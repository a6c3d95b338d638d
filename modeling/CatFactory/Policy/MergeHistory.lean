import Mathlib.Logic.Function.Basic
import CatFactory.Foundation.Runs
import CatFactory.Execution.Step
import CatFactory.Policy.MergeExits

/-!
# Runs on one block and its pull request

The automatic exit reads the run it settles; the manual exit, possibly much
later, reads whatever run the block points at by then.  Between the two, runs
are started, replaced, persisted, cancelled and swept.
-/

namespace CatFactory
namespace Policy

open Foundation
open Execution (ExecutionStatus)
open Initiatives (BlockStatus)

variable {score : Type} [LinearOrder score]

/-!
## The rows
-/

abbrev RunId := String

structure RunRow where
  id : RunId
  run : MergeRun
  status : ExecutionStatus
deriving DecidableEq

structure BlockRow where
  status : BlockStatus
  executionId : Option RunId
deriving DecidableEq

/-- The block, its stored runs, and what every run ever started pinned; the
process that drives a run still holds that when the row is gone. -/
structure MergeHistory where
  block : Option BlockRow
  rows : List RunRow
  minted : RunId -> Option MergeRun

namespace MergeHistory

def fresh : MergeHistory where
  block := some { status := BlockStatus.planned, executionId := none }
  rows := []
  minted := fun _ => none

def status (s : MergeHistory) : Option BlockStatus :=
  s.block.map BlockRow.status

def getRun (s : MergeHistory) (id : RunId) : Option MergeRun :=
  (s.rows.find? fun row => row.id = id).map RunRow.run

def boundTo (s : MergeHistory) : Option RunId :=
  s.block.bind BlockRow.executionId

/-- The stored run that the block points at. -/
def boundRun (s : MergeHistory) : Option MergeRun :=
  s.boundTo.bind s.getRun

def writeBlock (s : MergeHistory) (change : BlockRow -> BlockRow) : MergeHistory :=
  { s with block := s.block.map change }

def writeStatus (s : MergeHistory) (status : BlockStatus) : MergeHistory :=
  s.writeBlock fun block => { block with status := status }

/-!
## What happens to them
-/

def isTerminalRun (status : ExecutionStatus) : Bool :=
  status = ExecutionStatus.done || status = ExecutionStatus.failed

/-- The rows that `insertLive` leaves: terminal ones go, and the replaced one. -/
def afterCleanup (rows : List RunRow) (replaceId : Option RunId) : List RunRow :=
  rows.filter fun row => !isTerminalRun row.status && replaceId ≠ some row.id

/-- One live run a block: the new row goes in only if the cleanup leaves none. -/
def insertLive (rows : List RunRow) (row : RunRow) (replaceId : Option RunId) :
    List RunRow × Bool :=
  let kept := afterCleanup rows replaceId
  if kept.isEmpty then ([row], true) else (kept, false)

def upsert (rows : List RunRow) (row : RunRow) : List RunRow :=
  if rows.any fun other => other.id = row.id then
    rows.map fun other => if other.id = row.id then row else other
  else rows ++ [row]

/-- What the real merge leaves on the block. -/
def afterFinalizeMerge (s : MergeHistory) : FinalizeMergeResult -> MergeHistory
  | FinalizeMergeResult.merged => s.writeStatus BlockStatus.done
  | FinalizeMergeResult.partly _ _ => s.writeStatus BlockStatus.blocked
  | FinalizeMergeResult.thrown => s

/-- What a settled merger step leaves on the block. -/
def afterMergerStep (s : MergeHistory) (finalizeMerge : FinalizeMergeResult)
    (step : MergerStep score) : MergeHistory :=
  let merged := if step.finalizeMergeCalled then s.afterFinalizeMerge finalizeMerge else s
  if step.reviewCard.isSome then merged.writeStatus BlockStatus.prReady else merged

/-- `mergePr` up to its call of `finalizeMerge`. -/
def mergePr (s : MergeHistory) (byRole : SubmissionClassesByRole)
    (changeClass : ChangeClass) : Except MergePrError Unit :=
  mergePrChecks byRole changeClass s.status s.boundRun

/-- A start claims the live run and writes the block afterwards; drivers settle
merger steps and write their rows back; a cancel deletes the rows and
then resets the block; anything else may write the block's status. -/
inductive MergeAction (score : Type) where
  | claimLiveRun (id : RunId) (run : MergeRun) (replaceId : Option RunId)
  | bindRun (id : RunId)
  | persist (id : RunId) (status : ExecutionStatus)
  | settleMerger (id : RunId) (inputs : MergeInputs score)
      (finalizeMerge : FinalizeMergeResult)
  | mergePr (byRole : SubmissionClassesByRole) (changeClass : ChangeClass)
      (finalizeMerge : FinalizeMergeResult)
  | writeStatus (status : BlockStatus)
  | deleteRuns
  | resetBlock
  | removeBlock

def act (s : MergeHistory) : MergeAction score -> Option MergeHistory
  | .claimLiveRun id run replaceId =>
      -- an id is minted once
      if (s.minted id).isSome then none
      else
        match insertLive s.rows
            { id := id, run := run, status := ExecutionStatus.running } replaceId with
        | (rows, true) =>
            some { s with rows := rows, minted := Function.update s.minted id (some run) }
        | (rows, false) => some { s with rows := rows }
  | .bindRun id =>
      if (s.minted id).isNone then none
      else
        some (s.writeBlock fun _ =>
          { status := BlockStatus.inProgress, executionId := some id })
  | .persist id status =>
      match s.minted id with
      | none => none
      | some run =>
          some { s with rows := upsert s.rows { id := id, run := run, status := status } }
  | .settleMerger id inputs finalizeMerge =>
      match s.minted id with
      | none => none
      | some run =>
          some (s.afterMergerStep finalizeMerge
            (resolveMergerStep s.status run inputs finalizeMerge))
  | .mergePr byRole changeClass finalizeMerge =>
      match s.mergePr byRole changeClass with
      | Except.error _ => some s
      | Except.ok _ => some (s.afterFinalizeMerge finalizeMerge)
  | .writeStatus status => some (s.writeStatus status)
  | .deleteRuns => some { s with rows := [] }
  | .resetBlock =>
      some (s.writeBlock fun _ => { status := BlockStatus.planned, executionId := none })
  | .removeBlock => some { s with block := none }

/-!
## Writes to the block's status
-/

/-- Two states that differ in the status of the block at most. -/
structure SameRuns (s t : MergeHistory) : Prop where
  boundTo : t.boundTo = s.boundTo
  rows : t.rows = s.rows
  minted : t.minted = s.minted

variable {s t : MergeHistory}

theorem SameRuns.refl (s : MergeHistory) : SameRuns s s where
  boundTo := rfl
  rows := rfl
  minted := rfl

theorem SameRuns.trans {s t u : MergeHistory} (hst : SameRuns s t)
    (htu : SameRuns t u) : SameRuns s u where
  boundTo := htu.boundTo.trans hst.boundTo
  rows := htu.rows.trans hst.rows
  minted := htu.minted.trans hst.minted

theorem writeStatus_sameRuns (s : MergeHistory) (status : BlockStatus) :
    SameRuns s (s.writeStatus status) where
  boundTo := by
    unfold boundTo writeStatus writeBlock
    cases s.block with
    | none => rfl
    | some block => rfl
  rows := rfl
  minted := rfl

theorem afterFinalizeMerge_sameRuns (s : MergeHistory)
    (finalizeMerge : FinalizeMergeResult) :
    SameRuns s (s.afterFinalizeMerge finalizeMerge) := by
  cases finalizeMerge with
  | merged => exact writeStatus_sameRuns s _
  | partly merged unmerged => exact writeStatus_sameRuns s _
  | thrown => exact SameRuns.refl s

omit [LinearOrder score] in
theorem afterMergerStep_sameRuns (s : MergeHistory)
    (finalizeMerge : FinalizeMergeResult) (step : MergerStep score) :
    SameRuns s (s.afterMergerStep finalizeMerge step) := by
  have hmerged : SameRuns s
      (if step.finalizeMergeCalled then s.afterFinalizeMerge finalizeMerge else s) := by
    split
    · exact afterFinalizeMerge_sameRuns s finalizeMerge
    · exact SameRuns.refl s
  unfold afterMergerStep
  dsimp only
  split
  · exact hmerged.trans (writeStatus_sameRuns _ _)
  · exact hmerged

/-!
## Stored rows agree with what their runs pinned
-/

def Agrees (s : MergeHistory) : Prop :=
  forall row, row ∈ s.rows -> s.minted row.id = some row.run

theorem minted_of_getRun {s : MergeHistory} (hagrees : s.Agrees) {id : RunId}
    {run : MergeRun} (h : s.getRun id = some run) : s.minted id = some run := by
  unfold getRun at h
  cases hfind : s.rows.find? (fun row => row.id = id) with
  | none =>
      rw [hfind] at h
      cases h
  | some row =>
      rw [hfind] at h
      cases h
      have hid : row.id = id := by
        simpa using List.find?_some hfind
      rw [← hid]
      exact hagrees row (List.mem_of_find?_eq_some hfind)

theorem mem_upsert {rows : List RunRow} {row other : RunRow}
    (h : other ∈ upsert rows row) : other ∈ rows ∨ other = row := by
  unfold upsert at h
  split at h
  · rcases List.mem_map.mp h with ⟨old, hold, heq⟩
    split at heq
    · exact Or.inr heq.symm
    · rw [← heq]
      exact Or.inl hold
  · simpa using h

theorem mem_of_mem_afterCleanup {rows : List RunRow} {replaceId : Option RunId}
    {row : RunRow} (h : row ∈ afterCleanup rows replaceId) : row ∈ rows :=
  (List.mem_filter.mp h).1

/-- What an action can do to the runs and to the block's pointer. -/
inductive Effect (s : MergeHistory) (a : MergeAction score) (t : MergeHistory) : Prop where
  | claimed (id : RunId) (run : MergeRun) (hfresh : s.minted id = none)
      (hbound : t.boundTo = s.boundTo)
      (hrows : t.rows = [{ id := id, run := run, status := ExecutionStatus.running }])
      (hminted : t.minted = Function.update s.minted id (some run))
  | bound (id : RunId) (run : MergeRun) (ha : a = .bindRun id)
      (hrun : s.minted id = some run) (hbound : t.boundTo = none ∨ t.boundTo = some id)
      (hrows : t.rows = s.rows) (hminted : t.minted = s.minted)
  | persisted (id : RunId) (run : MergeRun) (status : ExecutionStatus)
      (hrun : s.minted id = some run) (hbound : t.boundTo = s.boundTo)
      (hrows : t.rows = upsert s.rows { id := id, run := run, status := status })
      (hminted : t.minted = s.minted)
  | dropped (hbound : t.boundTo = none ∨ t.boundTo = s.boundTo)
      (hrows : forall row, row ∈ t.rows -> row ∈ s.rows) (hminted : t.minted = s.minted)

omit [LinearOrder score] in
theorem SameRuns.effect (h : SameRuns s t) (a : MergeAction score) : Effect s a t := by
  apply Effect.dropped
  · exact Or.inr h.boundTo
  · intro row hrow
    rw [← h.rows]
    exact hrow
  · exact h.minted

theorem act_effect {a : MergeAction score} (hact : s.act a = some t) : Effect s a t := by
  cases a with
  | claimLiveRun id run replaceId =>
      simp only [act, insertLive] at hact
      split at hact
      · cases hact
      · rename_i hminted
        by_cases hkept : (afterCleanup s.rows replaceId).isEmpty = true
        · rw [if_pos hkept] at hact
          cases hact
          exact Effect.claimed id run (by simpa using hminted) rfl rfl rfl
        · rw [if_neg hkept] at hact
          cases hact
          apply Effect.dropped
          · exact Or.inr rfl
          · intro row hrow
            exact mem_of_mem_afterCleanup hrow
          · rfl
  | bindRun id =>
      simp only [act] at hact
      split at hact
      · cases hact
      · rename_i hminted
        cases hact
        cases hrun : s.minted id with
        | none =>
            rw [hrun] at hminted
            exact absurd rfl hminted
        | some run =>
            apply Effect.bound id run rfl hrun
            · unfold boundTo writeBlock
              cases s.block with
              | none => exact Or.inl rfl
              | some block => exact Or.inr rfl
            · rfl
            · rfl
  | persist id status =>
      simp only [act] at hact
      split at hact
      · cases hact
      · rename_i run hminted
        cases hact
        exact Effect.persisted id run status hminted rfl rfl rfl
  | settleMerger id inputs finalizeMerge =>
      simp only [act] at hact
      split at hact
      · cases hact
      · cases hact
        exact (afterMergerStep_sameRuns s _ _).effect _
  | mergePr byRole changeClass finalizeMerge =>
      simp only [act] at hact
      split at hact
      · cases hact
        exact (SameRuns.refl s).effect _
      · cases hact
        exact (afterFinalizeMerge_sameRuns s _).effect _
  | writeStatus status =>
      cases hact
      exact (writeStatus_sameRuns s _).effect _
  | deleteRuns =>
      cases hact
      apply Effect.dropped
      · exact Or.inr rfl
      · intro row hrow
        cases hrow
      · rfl
  | resetBlock =>
      cases hact
      apply Effect.dropped
      · left
        unfold boundTo writeBlock
        cases s.block with
        | none => rfl
        | some block => rfl
      · intro row hrow
        exact hrow
      · rfl
  | removeBlock =>
      cases hact
      apply Effect.dropped
      · exact Or.inl rfl
      · intro row hrow
        exact hrow
      · rfl

theorem minted_of_act {a : MergeAction score} (hact : s.act a = some t) {id : RunId}
    {run : MergeRun} (hrun : s.minted id = some run) : t.minted id = some run := by
  cases act_effect hact with
  | claimed new newRun hfresh hbound hrows hminted =>
      have hne : id ≠ new := by
        intro heq
        rw [heq, hfresh] at hrun
        cases hrun
      rw [hminted, Function.update_of_ne hne]
      exact hrun
  | bound new newRun ha hnew hbound hrows hminted => exact hminted ▸ hrun
  | persisted new newRun status hnew hbound hrows hminted => exact hminted ▸ hrun
  | dropped hbound hrows hminted => exact hminted ▸ hrun

theorem agrees_of_act {a : MergeAction score} (hagrees : s.Agrees)
    (hact : s.act a = some t) : t.Agrees := by
  intro row hrow
  cases act_effect hact with
  | claimed id run hfresh hbound hrows hminted =>
      rw [hrows] at hrow
      rw [List.mem_singleton.mp hrow, hminted]
      exact Function.update_self _ _ _
  | bound id run ha hrun hbound hrows hminted =>
      rw [hminted]
      rw [hrows] at hrow
      exact hagrees row hrow
  | persisted id run status hrun hbound hrows hminted =>
      rw [hminted]
      rw [hrows] at hrow
      rcases mem_upsert hrow with h | h
      · exact hagrees row h
      · rw [h]
        exact hrun
  | dropped hbound hrows hminted =>
      rw [hminted]
      exact hagrees row (hrows row hrow)

theorem agrees_of_run {trace : List (MergeAction score)} {s : MergeHistory}
    (hrun : Run act fresh trace s) : s.Agrees := by
  apply hrun.invariant
  · intro row hrow
    cases hrow
  · intro s a t hagrees _ hact
    exact agrees_of_act hagrees hact

end MergeHistory

/-!
## What the manual exit reads
-/

/-- The platform may land what this run produced. -/
def mayLand (byRole : SubmissionClassesByRole) (changeClass : ChangeClass)
    (instanceRun : MergeRun) : Bool :=
  !isDryRun instanceRun.mode &&
    submissionAllowedForRole byRole instanceRun.initiatedByRole changeClass

theorem assertPlatformMayMerge_ok_iff (byRole : SubmissionClassesByRole)
    (changeClass : ChangeClass) (instanceRun : MergeRun) :
    assertPlatformMayMerge byRole changeClass (some instanceRun) = Except.ok () <->
      mayLand byRole changeClass instanceRun = true := by
  unfold assertPlatformMayMerge mayLand assertNotDryRun
  cases hdry : isDryRun instanceRun.mode with
  | true =>
      simp only [Option.bind_some, hdry, if_true, Bool.not_true, Bool.false_and]
      constructor
      · intro h
        cases h
      · intro h
        cases h
  | false =>
      simp only [Option.bind_some, hdry, Bool.false_eq_true, if_false, Bool.not_false,
        Bool.true_and]
      show assertSubmissionAllowed byRole changeClass (some instanceRun) = Except.ok () <-> _
      unfold assertSubmissionAllowed
      simp only [Option.bind_some]
      cases hrole : instanceRun.initiatedByRole with
      | none => simp [submissionAllowedForRole, submissionAllowlistForRole]
      | some role =>
          simp only
          split
          · rename_i hunscoped
            have hnone := Option.isNone_iff_eq_none.mp hunscoped
            simp [submissionAllowedForRole, hnone]
          · split
            · rename_i hallowed
              simp [hallowed]
            · rename_i hallowed
              simp [hallowed]

theorem mayLand_of_reason {instanceRun : MergeRun}
    {inputs : MergeInputs score} {reason : MergeReason}
    (hreason : reason = MergeReason.dryRun ∨ reason = MergeReason.submissionNotAllowed)
    (hholds : ReasonHolds instanceRun inputs reason) :
    mayLand inputs.preset.submissionClassesByRole inputs.changeClass instanceRun = false := by
  unfold mayLand
  rcases hreason with h | h
  · rw [h] at hholds
    have hdry : isDryRun instanceRun.mode = true := hholds
    simp [hdry]
  · rw [h] at hholds
    have hsubmission : submissionAllowedForRole inputs.preset.submissionClassesByRole
        instanceRun.initiatedByRole inputs.changeClass = false := hholds
    simp [hsubmission]

namespace MergeHistory

/-- The run the block points at, if any, may not land its work. -/
def HeldBack (byRole : SubmissionClassesByRole) (changeClass : ChangeClass)
    (s : MergeHistory) : Prop :=
  forall id, s.boundTo = some id ->
    exists run, s.minted id = some run ∧ mayLand byRole changeClass run = false

/-- The action binds no run that may land its work. -/
def BindsNoLanding (byRole : SubmissionClassesByRole) (changeClass : ChangeClass)
    (s : MergeHistory) (a : MergeAction score) : Prop :=
  forall id, a = .bindRun id ->
    forall run, s.minted id = some run -> mayLand byRole changeClass run = false

theorem heldBack_of_act {byRole : SubmissionClassesByRole} {changeClass : ChangeClass}
    {a : MergeAction score} (hheld : HeldBack byRole changeClass s)
    (hbinds : BindsNoLanding byRole changeClass s a) (hact : s.act a = some t) :
    HeldBack byRole changeClass t := by
  have hold (id : RunId) (hbound : s.boundTo = some id) :
      exists run, t.minted id = some run ∧ mayLand byRole changeClass run = false := by
    rcases hheld id hbound with ⟨run, hminted, hland⟩
    exact ⟨run, minted_of_act hact hminted, hland⟩
  intro id hnow
  cases act_effect hact with
  | claimed new run hfresh hbound hrows hminted => exact hold id (hbound.symm.trans hnow)
  | bound new run ha hrun hbound hrows hminted =>
      rcases hbound with h | h
      · rw [h] at hnow
        cases hnow
      · rw [h] at hnow
        cases hnow
        refine ⟨run, ?_, hbinds _ ha run hrun⟩
        rw [hminted]
        exact hrun
  | persisted new run status hrun hbound hrows hminted =>
      exact hold id (hbound.symm.trans hnow)
  | dropped hbound hrows hminted =>
      rcases hbound with h | h
      · rw [h] at hnow
        cases hnow
      · exact hold id (h.symm.trans hnow)

/-- Behind a block that points at a stored run which may not land its work, the
manual exit throws. -/
theorem mergePr_throws {byRole : SubmissionClassesByRole} {changeClass : ChangeClass}
    {s : MergeHistory} (hagrees : s.Agrees) (hheld : HeldBack byRole changeClass s)
    (hstored : s.boundRun ≠ none) :
    exists error, s.mergePr byRole changeClass = Except.error error := by
  rcases Option.ne_none_iff_exists'.mp hstored with ⟨run, hrun⟩
  have hland : mayLand byRole changeClass run = false := by
    unfold boundRun at hrun
    rcases Option.bind_eq_some_iff.mp hrun with ⟨id, hbound, hget⟩
    rcases hheld id hbound with ⟨pinned, hminted, hland⟩
    rw [minted_of_getRun hagrees hget] at hminted
    cases hminted
    exact hland
  unfold mergePr mergePrChecks
  split
  · exact ⟨_, rfl⟩
  · split
    · exact ⟨_, rfl⟩
    · rw [hrun]
      cases hchecks : assertPlatformMayMerge byRole changeClass (some run) with
      | error error => exact ⟨error, rfl⟩
      | ok =>
          have hmay := (assertPlatformMayMerge_ok_iff byRole changeClass run).mp hchecks
          rw [hland] at hmay
          cases hmay

/-!
## The two exits together
-/

theorem heldBack_of_refusal {s t : MergeHistory} {id : RunId} {run : MergeRun}
    {inputs : MergeInputs score} {finalizeMerge : FinalizeMergeResult}
    {decision : MergeDecision score} (hbound : s.boundTo = some id)
    (hminted : s.minted id = some run)
    (hdecision : (resolveMergerStep s.status run inputs finalizeMerge).decision =
      some decision)
    (hreason : decision.reason = MergeReason.dryRun ∨
      decision.reason = MergeReason.submissionNotAllowed)
    (hact : s.act (.settleMerger id inputs finalizeMerge) = some t) :
    HeldBack inputs.preset.submissionClassesByRole inputs.changeClass t := by
  have hcalled : (resolveMergerStep s.status run inputs
      finalizeMerge).finalizeMergeCalled = false := by
    by_contra hcalled
    have hmerging := reason_of_finalizeMergeCalled (by simpa using hcalled) hdecision
    rcases hreason with h | h
    · exact hmerging.1 h
    · exact hmerging.2 h
  have hholds := (refusal_recorded hcalled hdecision).2.2
  have hland := mayLand_of_reason hreason hholds
  have hsame : SameRuns s t := by
    simp only [act, hminted] at hact
    cases hact
    exact afterMergerStep_sameRuns s _ _
  intro other hother
  rw [hsame.boundTo, hbound] at hother
  cases hother
  refine ⟨run, ?_, hland⟩
  rw [hsame.minted]
  exact hminted

end MergeHistory

open MergeHistory

/-- The automatic exit merges a block that is not merged yet exactly when every
bar is met, and else records a reason that holds of the run.  After it refused
the run that the block points at for its mode or its role, and as long as no
run that may land its work is bound to the block, the manual exit throws
wherever the block points at a stored run. -/
theorem mergeExits_law :
    (forall (status : Option BlockStatus) (run : MergeRun) (inputs : MergeInputs score)
        (finalizeMerge : FinalizeMergeResult),
      (resolveMergerStep status run inputs finalizeMerge).finalizeMergeCalled = true <->
        status ≠ none ∧ status ≠ some BlockStatus.done ∧ MayAutoMerge run inputs) ∧
    (forall (status : BlockStatus) (run : MergeRun) (inputs : MergeInputs score)
        (finalizeMerge : FinalizeMergeResult), status ≠ BlockStatus.done ->
      (resolveMergerStep (some status) run inputs finalizeMerge).finalizeMergeCalled = false ->
        exists decision,
          (resolveMergerStep (some status) run inputs finalizeMerge).decision = some decision ∧
            (resolveMergerStep (some status) run inputs finalizeMerge).reviewCard =
              some decision.reason ∧
            decision.outcome = MergeOutcome.awaitingReview ∧
            ReasonHolds run inputs decision.reason) ∧
    (forall (before after : List (MergeAction score)) (s t u : MergeHistory) (id : RunId)
        (run : MergeRun) (inputs : MergeInputs score) (finalizeMerge : FinalizeMergeResult)
        (decision : MergeDecision score),
      Run act fresh before s -> s.boundTo = some id -> s.minted id = some run ->
      (resolveMergerStep s.status run inputs finalizeMerge).decision = some decision ->
      decision.reason = MergeReason.dryRun ∨
        decision.reason = MergeReason.submissionNotAllowed ->
      s.act (.settleMerger id inputs finalizeMerge) = some t ->
      RunWhere act
        (BindsNoLanding inputs.preset.submissionClassesByRole inputs.changeClass) t after u ->
      u.boundRun ≠ none ->
        exists error,
          u.mergePr inputs.preset.submissionClassesByRole inputs.changeClass =
            Except.error error) := by
  constructor
  · intro status run inputs finalizeMerge
    exact finalizeMergeCalled_iff status run inputs finalizeMerge
  constructor
  · intro status run inputs finalizeMerge hdone hcalled
    have hrefused : Not (MayAutoMerge run inputs) := by
      intro hmay
      have hcalls := (finalizeMergeCalled_iff (some status) run inputs finalizeMerge).mpr
        ⟨by simp, by simpa using hdone, hmay⟩
      rw [hcalls] at hcalled
      cases hcalled
    rw [resolveMergerStep_refused finalizeMerge hdone hrefused]
    exact ⟨_, rfl, rfl, rfl, reviewReasonFor_holds hrefused⟩
  · intro before after s t u id run inputs finalizeMerge decision hbefore hbound hminted
      hdecision hreason hact hafter hstored
    have ht : t.Agrees := agrees_of_act (agrees_of_run hbefore) hact
    have hu : u.Agrees ∧
        HeldBack inputs.preset.submissionClassesByRole inputs.changeClass u := by
      apply hafter.invariant
      · exact ⟨ht, heldBack_of_refusal hbound hminted hdecision hreason hact⟩
      · intro s a t h hbinds hact
        exact ⟨agrees_of_act h.1 hact, heldBack_of_act h.2 hbinds hact⟩
    exact mergePr_throws hu.1 hu.2 hstored

/-!
## A sandboxed run and its re-run
-/

def sandboxedRun : MergeRun where
  mode := some RunMode.dryRun
  initiatedByRole := none

def liveRun : MergeRun where
  mode := none
  initiatedByRole := none

/-- A policy that merges a change of configuration whatever its scores. -/
def configInputs : MergeInputs Nat where
  preset :=
    { maxComplexity := 0
      maxRisk := 0
      maxImpact := 0
      id := some "mp_1"
      name := "Balanced"
      autoMergeEnabled := true
      classRules := fun changeClass =>
        if changeClass = ChangeClass.config then some MergeClassRule.always else none
      classRulesByRole := fun _ => none
      submissionClassesByRole := fun _ => none }
  changeClass := ChangeClass.config
  assessment := none

def sandboxStart : List (MergeAction Nat) :=
  [.claimLiveRun "exec_1" sandboxedRun none, .bindRun "exec_1"]

def sandboxSettle : MergeAction Nat :=
  .settleMerger "exec_1" configInputs FinalizeMergeResult.merged

/-- The run finishes with its pull request left open. -/
def sandboxFinish : List (MergeAction Nat) :=
  [.persist "exec_1" ExecutionStatus.done]

/-- The task is started again, sandboxed as before; the claim deletes the finished
run's row before the block is written. -/
def sandboxReclaim : List (MergeAction Nat) :=
  [.persist "exec_1" ExecutionStatus.done,
    .claimLiveRun "exec_2" sandboxedRun (some "exec_1")]

def bindsNothing : MergeHistory -> MergeAction Nat -> Bool
  | _, .bindRun _ => false
  | _, _ => true

theorem bindsNoLanding_of_bindsNothing (byRole : SubmissionClassesByRole)
    (changeClass : ChangeClass) (s : MergeHistory) (a : MergeAction Nat)
    (h : bindsNothing s a = true) : BindsNoLanding byRole changeClass s a := by
  intro id ha
  rw [ha] at h
  cases h

def sandboxRefused : MergeHistory :=
  endOf act (endOf act fresh sandboxStart) [sandboxSettle]

theorem sandboxRefused_eq :
    (endOf act fresh sandboxStart).act sandboxSettle = some sandboxRefused := rfl

theorem mergeExits_law_sandboxed :
    exists error,
      (endOf act sandboxRefused sandboxFinish).mergePr
          configInputs.preset.submissionClassesByRole configInputs.changeClass =
        Except.error error := by
  have hafter : RunWhere act
      (BindsNoLanding configInputs.preset.submissionClassesByRole configInputs.changeClass)
      sandboxRefused sandboxFinish (endOf act sandboxRefused sandboxFinish) :=
    runWhere_endOf (bindsNoLanding_of_bindsNothing _ _) rfl
  exact (@mergeExits_law Nat _).2.2 sandboxStart sandboxFinish _ _ _ "exec_1" sandboxedRun
    configInputs FinalizeMergeResult.merged _ (run_endOf rfl) rfl rfl rfl (Or.inl rfl)
    sandboxRefused_eq hafter (by simp [show (endOf act sandboxRefused sandboxFinish).boundRun =
      some sandboxedRun from rfl])

/-- The automatic exit leaves a block that is already merged alone; and while a
start has claimed the live run and not yet written the block, the manual exit
finds no run behind the block and lands what the sandboxed run produced. -/
theorem not_mergeExits_agree :
    (MayAutoMerge liveRun configInputs ∧
      (resolveMergerStep (some BlockStatus.done) liveRun configInputs
        FinalizeMergeResult.merged).finalizeMergeCalled = false) ∧
    Run act fresh sandboxStart (endOf act fresh sandboxStart) ∧
    (resolveMergerStep (endOf act fresh sandboxStart).status sandboxedRun configInputs
        FinalizeMergeResult.merged).reviewCard = some MergeReason.dryRun ∧
    (endOf act fresh sandboxStart).act sandboxSettle = some sandboxRefused ∧
    RunWhere act
      (BindsNoLanding configInputs.preset.submissionClassesByRole configInputs.changeClass)
      sandboxRefused sandboxReclaim (endOf act sandboxRefused sandboxReclaim) ∧
    (endOf act sandboxRefused sandboxReclaim).mergePr
        configInputs.preset.submissionClassesByRole configInputs.changeClass =
      Except.ok () := by
  refine ⟨⟨⟨rfl, rfl, rfl, Or.inl rfl⟩, rfl⟩, run_endOf rfl, rfl, sandboxRefused_eq, ?_, rfl⟩
  exact runWhere_endOf (bindsNoLanding_of_bindsNothing _ _) rfl

end Policy
end CatFactory
