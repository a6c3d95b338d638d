import Mathlib.Logic.Function.Basic
import CatFactory.Foundation.Runs
import CatFactory.Foundation.Versioned
import CatFactory.Execution.RunTransitions

/-!
# Concurrent writers of one run

The durable driver, human handlers, teardowns and a cancel all write the one row
of a run.  Each loads the row, computes for as long as it takes and writes back;
the store's guarded write refuses what was computed from a row that has moved,
its force-write does not ask.
-/

namespace CatFactory
namespace Execution

open Foundation

/-!
## The store
-/

/-- `compareAndSwap`: an update of the row whose revision the instance carries.
The failure column is not among those it writes. -/
def casWrite (stored : Option ExecutionInstance) (execution : ExecutionInstance) :
    Option ExecutionInstance :=
  compareAndSwap ExecutionInstance.rev stored
    { execution with
      failure := stored.bind ExecutionInstance.failure
      rev := execution.rev + 1 }
    execution.rev

/-- `upsert`: insert, or overwrite whatever is there. -/
def upsertWrite (stored : Option ExecutionInstance)
    (execution : ExecutionInstance) : ExecutionInstance :=
  match stored with
  | none => { execution with failure := none, rev := 0 }
  | some row => { execution with failure := row.failure, rev := row.rev + 1 }

/-- `markFailed`: only a row that has neither failed nor finished. -/
def markFailedWrite (stored : Option ExecutionInstance) (failure : AgentFailure) :
    Option ExecutionInstance :=
  stored.map fun row =>
    if isSettledRun row then row
    else
      { row with
        status := ExecutionStatus.failed
        failure := some failure
        rev := row.rev + 1 }

/-!
## Writers
-/

/-- A run in a process's memory, with the number of commits behind the row when
the process loaded or last wrote it. -/
structure Loaded where
  run : ExecutionInstance
  seenCommits : Nat

/-- The row, what each process holds, how many human mutations, stops and failures
have committed, and whether the run has been cancelled. -/
structure RunStore where
  stored : Option ExecutionInstance
  held : Nat -> Option Loaded
  commits : Nat
  cancelled : Bool

/-- What a process computes from the run it loaded, on the way to its write. -/
abbrev Computation := ExecutionInstance -> ExecutionInstance

inductive StoreAction where
  | load (process : Nat)
  | casPersist (process : Nat) (compute : Computation)
  | mutateInstance (process : Nat) (mutate : Computation)
  | parkStepOnDecision (process : Nat) (compute : Computation) (now stepIndex : Nat)
      (approvalId proposal : String)
  | markFailed (failure : AgentFailure)
  | cancel

namespace RunStore

/-- `stopRun` and `failRun` commit when the row was not settled yet. -/
def failureCommits (stored : Option ExecutionInstance) : Nat :=
  if stored.any fun row => !isSettledRun row then 1 else 0

/-- The computed instance still carries the identity and the revision of the run
it was computed from. -/
def computed (loaded : Loaded) (compute : Computation) : ExecutionInstance :=
  { compute loaded.run with
    id := loaded.run.id
    rev := loaded.run.rev }

def hold (s : RunStore) (process : Nat) (loaded : Option Loaded) : RunStore :=
  { s with held := Function.update s.held process loaded }

/-- A guarded write of `process`, with `human` more commits if it lands; a refused
process drops what it holds and loads again. -/
def guardedWrite (s : RunStore) (process human : Nat) (compute : Computation) :
    Option RunStore :=
  match s.held process with
  | none => none
  | some loaded =>
      match casWrite s.stored (computed loaded compute) with
      | none => some (s.hold process none)
      | some row =>
          some
            ({ s with
                stored := some row
                commits := s.commits + human }.hold process
              (some { run := row, seenCommits := s.commits + human }))

def act (s : RunStore) : StoreAction -> Option RunStore
  | .load process =>
      some (s.hold process (s.stored.map fun row =>
        { run := row, seenCommits := s.commits }))
  | .casPersist process compute => s.guardedWrite process 0 compute
  | .mutateInstance process mutate => s.guardedWrite process 1 mutate
  | .parkStepOnDecision process compute now stepIndex approvalId proposal =>
      match s.held process with
      | none => none
      | some loaded =>
          match parkedRun now stepIndex approvalId proposal (computed loaded compute) with
          | none => none
          | some parked =>
              let row := upsertWrite s.stored parked
              some
                ({ s with stored := some row }.hold process
                  (some { run := row, seenCommits := s.commits }))
  | .markFailed failure =>
      some
        { s with
          stored := markFailedWrite s.stored failure
          commits := s.commits + failureCommits s.stored }
  | .cancel => some { s with stored := none, cancelled := true }

def start (run : ExecutionInstance) : RunStore :=
  { stored := some run
    held := fun _ => none
    commits := 0
    cancelled := false }

/-- What the writer of an action holds, if its write changes the row. -/
def landingWriter (s : RunStore) : StoreAction -> Option Loaded
  | .casPersist process compute =>
      (s.held process).filter fun loaded =>
        (casWrite s.stored (computed loaded compute)).isSome
  | .mutateInstance process mutate =>
      (s.held process).filter fun loaded =>
        (casWrite s.stored (computed loaded mutate)).isSome
  | .parkStepOnDecision process _ _ _ _ _ => s.held process
  | _ => none

/-- The test that `compareAndSwap` makes and the park leaves out: the row is still
there, with the revision of the run that the parking process holds. -/
def parksCurrent (s : RunStore) : StoreAction -> Bool
  | .parkStepOnDecision process _ _ _ _ _ =>
      (s.held process).all fun loaded =>
        s.stored.any fun row => row.rev = loaded.run.rev
  | _ => true

/-!
## The invariant
-/

/-- A row together with the number of commits behind it. -/
abbrev Version := ExecutionInstance × Nat

def versionRev (version : Version) : Nat :=
  version.1.rev

/-- What a process holds is a snapshot of the row and of its commits, and a
cancelled run has no row. -/
structure Guarded (s : RunStore) : Prop where
  snapshot : forall process loaded row, s.held process = some loaded ->
    s.stored = some row ->
      Snapshot versionRev (row, s.commits) (loaded.run, loaded.seenCommits)
  deleted : s.cancelled = true -> s.stored = none

theorem start_guarded (run : ExecutionInstance) : Guarded (start run) := by
  constructor
  · intro process loaded row hheld
    cases hheld
  · intro h
    cases h

variable {s : RunStore}

theorem casWrite_none (execution : ExecutionInstance) :
    casWrite none execution = none := rfl

theorem casWrite_lands {row written : ExecutionInstance} {loaded : Loaded} {compute : Computation}
    (hsnapshot : Snapshot versionRev (row, s.commits) (loaded.run, loaded.seenCommits))
    (hcas : casWrite (some row) (computed loaded compute) = some written) :
    loaded.run = row ∧ loaded.seenCommits = s.commits ∧ row.rev < written.rev := by
  have hrev : row.rev = loaded.run.rev ∧ written.rev = loaded.run.rev + 1 := by
    unfold casWrite compareAndSwap at hcas
    simp only at hcas
    split at hcas
    · rename_i hrev
      cases hcas
      exact ⟨hrev, rfl⟩
    · cases hcas
  have hsame := hsnapshot.same_of_rev hrev.1.symm
  injection hsame with hrun hseen
  exact ⟨hrun, hseen, by omega⟩

/-- Moving the row's revision on, with one process holding the new version. -/
theorem Guarded.write {row written : ExecutionInstance} {process commits : Nat} (hs : Guarded s)
    (hrow : s.stored = some row) (hrev : row.rev < written.rev) :
    Guarded
      ({ s with stored := some written, commits := commits }.hold process
        (some { run := written, seenCommits := commits })) := by
  constructor
  · intro other loaded stored hheld hstored
    cases hstored
    by_cases hsame : other = process
    · subst hsame
      simp only [hold, Function.update_self, Option.some.injEq] at hheld
      rw [<- hheld]
      exact Snapshot.fresh versionRev _
    · simp only [hold, Function.update_of_ne hsame] at hheld
      exact (hs.snapshot other loaded row hheld hrow).moved hrev
  · intro hcancelled
    have hnone := hs.deleted hcancelled
    rw [hrow] at hnone
    cases hnone

theorem Guarded.hold_none (hs : Guarded s) (process : Nat) :
    Guarded (s.hold process none) := by
  constructor
  · intro other loaded row hheld hrow
    by_cases hsame : other = process
    · subst hsame
      simp [hold] at hheld
    · simp only [hold, Function.update_of_ne hsame] at hheld
      exact hs.snapshot other loaded row hheld hrow
  · exact hs.deleted

theorem guardedWrite_guarded {s t : RunStore} {process human : Nat}
    {compute : Computation} (hs : Guarded s)
    (h : s.guardedWrite process human compute = some t) : Guarded t := by
  unfold guardedWrite at h
  cases hheld : s.held process with
  | none =>
      rw [hheld] at h
      cases h
  | some loaded =>
      rw [hheld] at h
      simp only at h
      cases hcas : casWrite s.stored (computed loaded compute) with
      | none =>
          rw [hcas] at h
          cases h
          exact hs.hold_none process
      | some written =>
          rw [hcas] at h
          cases h
          cases hrow : s.stored with
          | none =>
              rw [hrow, casWrite_none] at hcas
              cases hcas
          | some row =>
              rw [hrow] at hcas
              have hlands := casWrite_lands
                (hs.snapshot process loaded row hheld hrow) hcas
              exact hs.write hrow hlands.2.2

theorem load_guarded (hs : Guarded s) (process : Nat) :
    Guarded (s.hold process (s.stored.map fun row =>
      { run := row, seenCommits := s.commits })) := by
  constructor
  · intro other loaded row hheld hrow
    have hrow' : s.stored = some row := hrow
    by_cases hsame : other = process
    · subst hsame
      simp only [hold, Function.update_self, hrow', Option.map_some,
        Option.some.injEq] at hheld
      rw [<- hheld]
      exact Snapshot.fresh versionRev _
    · simp only [hold, Function.update_of_ne hsame] at hheld
      exact hs.snapshot other loaded row hheld hrow'
  · exact hs.deleted

/-- A park that meets the test of the guarded write replaces the row it was
computed from. -/
theorem parksCurrent_row {process now stepIndex : Nat} {compute : Computation}
    {approvalId proposal : String} {loaded : Loaded} (hs : Guarded s)
    (hheld : s.held process = some loaded)
    (hok : s.parksCurrent (.parkStepOnDecision process compute now stepIndex
      approvalId proposal) = true) :
    s.stored = some loaded.run ∧ loaded.seenCommits = s.commits := by
  simp only [parksCurrent, hheld, Option.all_some] at hok
  cases hrow : s.stored with
  | none =>
      rw [hrow] at hok
      cases hok
  | some row =>
      rw [hrow, Option.any_some] at hok
      have hrev : loaded.run.rev = row.rev := (of_decide_eq_true hok).symm
      have hsame := (hs.snapshot process loaded row hheld hrow).same_of_rev hrev
      injection hsame with hrun hseen
      rw [hrun]
      exact ⟨rfl, hseen⟩

theorem park_guarded {s t : RunStore} {process now stepIndex : Nat}
    {compute : Computation} {approvalId proposal : String} (hs : Guarded s)
    (hok : s.parksCurrent (.parkStepOnDecision process compute now stepIndex
      approvalId proposal) = true)
    (h : s.act (.parkStepOnDecision process compute now stepIndex approvalId
      proposal) = some t) : Guarded t := by
  unfold act at h
  cases hheld : s.held process with
  | none =>
      simp only [hheld] at h
      cases h
  | some loaded =>
      simp only [hheld] at h
      have hrow := (parksCurrent_row hs hheld hok).1
      cases hparked : parkedRun now stepIndex approvalId proposal
          (computed loaded compute) with
      | none =>
          rw [hparked] at h
          cases h
      | some parked =>
          rw [hparked] at h
          cases h
          rw [hrow]
          exact hs.write hrow (Nat.lt_succ_self loaded.run.rev)

theorem markFailed_guarded (hs : Guarded s) (failure : AgentFailure) :
    Guarded
      { s with
        stored := markFailedWrite s.stored failure
        commits := s.commits + failureCommits s.stored } := by
  constructor
  · intro process loaded row hheld hrow
    cases hstored : s.stored with
    | none => simp [markFailedWrite, hstored] at hrow
    | some before =>
        have hbefore := hs.snapshot process loaded before hheld hstored
        simp only [markFailedWrite, hstored, Option.map_some, Option.some.injEq] at hrow
        cases hsettled : isSettledRun before with
        | true =>
            simp only [hsettled, if_true] at hrow
            cases hrow
            simp only [failureCommits, Option.any_some, hsettled]
            exact hbefore
        | false =>
            simp only [hsettled] at hrow
            cases hrow
            exact hbefore.moved (Nat.lt_succ_self before.rev)
  · intro hcancelled
    simp [markFailedWrite, hs.deleted hcancelled]

theorem act_guarded {s t : RunStore} {action : StoreAction} (hs : Guarded s)
    (hok : s.parksCurrent action = true) (h : s.act action = some t) : Guarded t := by
  cases action with
  | load process =>
      cases h
      exact load_guarded hs process
  | casPersist process compute => exact guardedWrite_guarded hs h
  | mutateInstance process mutate => exact guardedWrite_guarded hs h
  | parkStepOnDecision process compute now stepIndex approvalId proposal =>
      exact park_guarded hs hok h
  | markFailed failure =>
      cases h
      exact markFailed_guarded hs failure
  | cancel =>
      cases h
      constructor
      · intro process loaded row _ hrow
        cases hrow
      · intro _
        rfl

/-!
## No lost update and no zombie
-/

theorem casWrite_fresh {process : Nat} {compute : Computation} {loaded : Loaded} (hs : Guarded s)
    (h : (s.held process).filter (fun held =>
      (casWrite s.stored (computed held compute)).isSome) = some loaded) :
    s.stored = some loaded.run ∧ loaded.seenCommits = s.commits := by
  rcases Option.filter_eq_some_iff.mp h with ⟨hheld, hlands⟩
  rcases Option.isSome_iff_exists.mp hlands with ⟨written, hcas⟩
  cases hrow : s.stored with
  | none =>
      rw [hrow, casWrite_none] at hcas
      cases hcas
  | some row =>
      rw [hrow] at hcas
      have hlands := casWrite_lands (hs.snapshot process loaded row hheld hrow) hcas
      rw [hlands.1]
      exact ⟨rfl, hlands.2.1⟩

theorem landingWriter_fresh {action : StoreAction} {loaded : Loaded} (hs : Guarded s)
    (hok : s.parksCurrent action = true) (h : s.landingWriter action = some loaded) :
    s.stored = some loaded.run ∧ loaded.seenCommits = s.commits := by
  cases action with
  | load process => cases h
  | casPersist process compute => exact casWrite_fresh hs h
  | mutateInstance process mutate => exact casWrite_fresh hs h
  | parkStepOnDecision process compute now stepIndex approvalId proposal =>
      exact parksCurrent_row hs h hok
  | markFailed failure => cases h
  | cancel => cases h

/-- In every run whose parks meet the test of the guarded write, each write that
changes the row was computed from the row it replaces, with every human mutation,
stop and failure committed so far in it, and a cancelled run stays deleted. -/
theorem store_keepsHumanMutations {run : ExecutionInstance}
    {trace : List StoreAction} {s : RunStore}
    (hrun : RunWhere act (fun s action => s.parksCurrent action = true) (start run)
      trace s) :
    (s.cancelled = true -> s.stored = none) ∧
      forall action loaded, s.parksCurrent action = true ->
        s.landingWriter action = some loaded ->
        s.stored = some loaded.run ∧ loaded.seenCommits = s.commits := by
  have hs : Guarded s :=
    hrun.invariant (start_guarded run) (fun _ _ _ hu hok h => act_guarded hu hok h)
  constructor
  · exact hs.deleted
  · intro action loaded hok h
    exact landingWriter_fresh hs hok h

/-- A run whose judge is about to park. -/
def judgeRun : ExecutionInstance :=
  { id := "exec_1"
    blockId := "blk_1"
    pipelineId := "pl_1"
    pipelineName := "Ship"
    steps := [{ agentKind := "judge", state := AgentState.working }]
    currentStep := 0
    status := ExecutionStatus.running }

/-- What `stopRun` records. -/
def stoppedByUser : AgentFailure :=
  { kind := "cancelled"
    message := "Stopped by the user."
    detail := none
    hint := none
    occurredAt := 1
    lastSubtasks := none
    stepIndex := some 0 }

/-- A driver loads before a human does, and its guarded write is refused; it
loads again and parks.  A stop comes before the driver's next write. -/
def guardedTrace : List StoreAction :=
  [.load 0, .load 1, .mutateInstance 1 id, .casPersist 0 id, .load 0,
    .parkStepOnDecision 0 id 1 0 "appr_1" "", .markFailed stoppedByUser,
    .casPersist 0 id, .load 0]

theorem store_keepsHumanMutations_judgeRun :
    ((endOf act (start judgeRun) guardedTrace).cancelled = true ->
        (endOf act (start judgeRun) guardedTrace).stored = none) ∧
      forall action loaded,
        (endOf act (start judgeRun) guardedTrace).parksCurrent action = true ->
        (endOf act (start judgeRun) guardedTrace).landingWriter action =
          some loaded ->
        (endOf act (start judgeRun) guardedTrace).stored = some loaded.run ∧
          loaded.seenCommits = (endOf act (start judgeRun) guardedTrace).commits :=
  store_keepsHumanMutations (runWhere_endOf (fun _ _ h => h) (by decide))

/-- The park's blind write lands over a human mutation or a stop the driver never
saw, and brings a cancelled run back. -/
theorem park_clobbers_and_revives :
    (exists trace s loaded, Run act (start judgeRun) trace s ∧
      s.landingWriter (.parkStepOnDecision 0 id 1 0 "appr_1" "") = some loaded ∧
      loaded.seenCommits < s.commits) ∧
    (exists trace s row, Run act (start judgeRun) trace s ∧ s.stored = some row ∧
      row.status = ExecutionStatus.blocked ∧ row.failure = some stoppedByUser) ∧
    (exists trace s, Run act (start judgeRun) trace s ∧ s.cancelled = true ∧
      s.stored ≠ none) :=
  ⟨⟨[.load 0, .load 1, .mutateInstance 1 id], _, _, run_endOf (by decide), rfl,
      by decide⟩,
    ⟨[.load 0, .markFailed stoppedByUser, .parkStepOnDecision 0 id 1 0 "appr_1" ""],
      _, _, run_endOf (by decide), rfl, rfl, rfl⟩,
    ⟨[.load 0, .cancel, .parkStepOnDecision 0 id 1 0 "appr_1" ""], _,
      run_endOf (by decide), by decide, by decide⟩⟩

end RunStore

end Execution
end CatFactory
