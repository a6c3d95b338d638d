import CatFactory.Foundation.Runs
import Mathlib.Algebra.GroupWithZero.Nat

/-!
# The durable spend rollup

A retention sweep folds the token ledger into totals per UTC day and then
prunes the ledger.  The window of a fold is worked out in
`spend-rollup-window.ts`, the sweep's two steps stand in `retentionPass.ts` and
`retention.ts`, and the rewrite of the days in `spendRollup.ts`.  Instants are
epoch milliseconds.  A day's buckets are kept as the rows they sum.
-/

namespace CatFactory
namespace Spend

open Foundation

/-!
## The window of a fold
-/

def dayMs : Int := 24 * 60 * 60000

def spendDayRollupLookbackMs : Int := 3 * dayMs

def spendDayRollupMaxSpanMs : Int := 30 * dayMs

def spendDayRollupBackfillMs : Int := 90 * dayMs

/-- The midnight at or before an instant. -/
def dayFloor (t : Int) : Int := t / dayMs * dayMs

/-- The midnight at or after an instant. -/
def dayCeil (t : Int) : Int := -((-t) / dayMs) * dayMs

/-- The newest day that is complete at an instant. -/
def lastCompleteRollupDay (instant : Int) : Int := dayFloor instant - dayMs

structure SpendFoldSpan where
  from_ : Int
  to_ : Int
deriving DecidableEq

structure SpendRollupWindow where
  from_ : Int
  to_ : Int
  skipped : Option SpendFoldSpan
deriving DecidableEq

def resumePoint (throughDay : Option Int) (now : Int) : Int :=
  match throughDay with
  | none => now - spendDayRollupBackfillMs
  | some day => min day (now - spendDayRollupLookbackMs)

def foldHorizon (now ledgerRetentionMs : Int) : Int :=
  now - max ledgerRetentionMs spendDayRollupBackfillMs

def foldStart (throughDay : Option Int) (now ledgerRetentionMs : Int) :
    Int × Option SpendFoldSpan :=
  let resume := resumePoint throughDay now
  let horizon := foldHorizon now ledgerRetentionMs
  (max resume horizon,
    if throughDay.isSome && resume < horizon then
      some { from_ := resume, to_ := horizon }
    else none)

def spendRollupWindow (throughDay : Option Int) (now ledgerRetentionMs : Int) :
    SpendRollupWindow :=
  let start := foldStart throughDay now ledgerRetentionMs
  { from_ := start.1
    to_ := min now (start.1 + spendDayRollupMaxSpanMs)
    skipped := start.2 }

/-!
## The stores
-/

structure LedgerRow where
  id : String
  createdAt : Int
  cost : Nat
deriving DecidableEq

/-- The ledger, the rows each day's buckets sum, and how far the rollup has come. -/
structure SpendStore where
  tokenUsage : List LedgerRow
  spendDays : Int -> List LedgerRow
  throughDay : Option Int

def rowDay (row : LedgerRow) : Int := dayFloor row.createdAt

def dayTotal (store : SpendStore) (day : Int) : Nat :=
  ((store.spendDays day).map LedgerRow.cost).sum

/-- The days of the window are deleted and folded from the ledger again. -/
def rollupSpendDays (store : SpendStore) (fromEpochMs toEpochMs : Int) : SpendStore :=
  let start := dayFloor fromEpochMs
  let stop := dayCeil toEpochMs
  if stop ≤ start then store
  else
    { store with
      spendDays := fun day =>
        if start ≤ day ∧ day < stop then
          store.tokenUsage.filter fun row =>
            start ≤ row.createdAt && row.createdAt < stop && rowDay row = day
        else store.spendDays day
      throughDay := some
        (match store.throughDay with
        | none => lastCompleteRollupDay toEpochMs
        | some day => max day (lastCompleteRollupDay toEpochMs)) }

def deleteOlderThan (store : SpendStore) (cutoff : Int) : SpendStore :=
  { store with tokenUsage := store.tokenUsage.filter fun row => cutoff ≤ row.createdAt }

/-!
## The sweep
-/

/-- One step of a pass: what it leaves, and the table it names when it fails. -/
def isolate (table : String) (fails : Bool) (step : SpendStore -> SpendStore)
    (pass : SpendStore × List String) : SpendStore × List String :=
  if fails then (pass.1, pass.2 ++ [table]) else (step pass.1, pass.2)

def prune (table : String) (windowMs now : Int) (fails : Bool)
    (pass : SpendStore × List String) : SpendStore × List String :=
  if windowMs ≤ 0 then pass
  else isolate table fails (fun store => deleteOlderThan store (now - windowMs)) pass

def materializeSpendRollup (now ledgerRetentionMs : Int) (fails : Bool)
    (pass : SpendStore × List String) : SpendStore × List String :=
  isolate "spend_days" fails
    (fun store =>
      let window := spendRollupWindow store.throughDay now ledgerRetentionMs
      rollupSpendDays store window.from_ window.to_)
    pass

/-- The rollup first, then the prune of the ledger it folds. -/
def sweepRetention (tokenUsageMs now : Int) (rollupFails pruneFails : Bool)
    (store : SpendStore) : SpendStore × List String :=
  prune "token_usage" tokenUsageMs now pruneFails
    (materializeSpendRollup now tokenUsageMs rollupFails (store, []))

/-!
## A deployment
-/

/-- The stores, with what has been pruned, what the passes that succeeded have
reported as skipped, and where the first of them opened its window. -/
structure Deployment where
  store : SpendStore
  clock : Int
  pruned : List LedgerRow
  reported : List SpendFoldSpan
  firstFrom : Option Int

def init : Deployment :=
  { store := { tokenUsage := [], spendDays := fun _ => [], throughDay := none }
    clock := 0
    pruned := []
    reported := []
    firstFrom := none }

inductive Action where
  | record (row : LedgerRow)
  | sweep (now : Int) (rollupFails pruneFails : Bool)
deriving DecidableEq

/-- Every row the ledger ever took. -/
def arrived (s : Deployment) : List LedgerRow :=
  s.store.tokenUsage ++ s.pruned

/-- The window a pass at `now` opens. -/
def windowAt (retention : Int) (s : Deployment) (now : Int) : SpendRollupWindow :=
  spendRollupWindow s.store.throughDay now retention

/-- What the rollup of a sweep leaves, and what it reports. -/
def afterRollup (retention : Int) (s : Deployment) (now : Int) (rollupFails : Bool) :
    Deployment :=
  let window := windowAt retention s now
  { s with
    store := (materializeSpendRollup now retention rollupFails (s.store, [])).1
    clock := now
    reported := if rollupFails then s.reported else s.reported ++ window.skipped.toList
    firstFrom :=
      if rollupFails then s.firstFrom
      else some (s.firstFrom.getD (dayFloor window.from_)) }

/-- What the prune of a sweep leaves, with the rows it took out. -/
def afterPrune (retention : Int) (s : Deployment) (now : Int) (pruneFails : Bool) :
    Deployment :=
  let left := (prune "token_usage" retention now pruneFails (s.store, [])).1
  { s with
    store := left
    pruned := s.pruned ++ s.store.tokenUsage.filter fun row => row ∉ left.tokenUsage }

/-- A row arrives when it is created; a sweep runs at a later instant. -/
def act (retention : Int) (s : Deployment) : Action -> Option Deployment
  | .record row =>
      if s.clock ≤ row.createdAt ∧ row ∉ arrived s then
        some
          { s with
            store := { s.store with tokenUsage := s.store.tokenUsage ++ [row] }
            clock := row.createdAt }
      else none
  | .sweep now rollupFails pruneFails =>
      if s.clock ≤ now then
        some (afterPrune retention (afterRollup retention s now rollupFails) now pruneFails)
      else none

/-- The deployment's sweep is the sweep of its stores. -/
theorem act_sweep_store {retention : Int} {s t : Deployment} {now : Int}
    {rollupFails pruneFails : Bool}
    (h : act retention s (.sweep now rollupFails pruneFails) = some t) :
    t.store = (sweepRetention retention now rollupFails pruneFails s.store).1 := by
  simp only [act] at h
  split at h
  · cases h
    unfold afterPrune afterRollup sweepRetention prune isolate
    split
    · rfl
    · cases pruneFails with
      | false => rfl
      | true => rfl
  · cases h

end Spend
end CatFactory
