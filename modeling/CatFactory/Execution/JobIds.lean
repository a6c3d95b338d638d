import Mathlib.Data.List.Nodup
import CatFactory.Foundation.Runs
import CatFactory.Execution.Dispatch

/-!
# Job ids within a run

A job id is the run's id, the agent kind and, from the second job of the kind
on, the epoch, joined by dashes.  This module follows the ids a run mints over
any sequence of dispatches, claims and step resets, and says exactly when two
of them are the same text.
-/

namespace CatFactory
namespace Execution

open Foundation

/-!
## Runs of dispatches and resets
-/

/-- A run with the job ids it has minted so far, oldest first. -/
structure DispatchLog where
  run : ExecutionInstance
  minted : List String
deriving DecidableEq

inductive DispatchAction where
  | recordDispatchedJob (stepIndex : Nat) (handle : AgentJobHandle)
      (dispatchedKind : String)
  | claimDispatchEpoch (stepIndex : Nat) (dispatchedKind : String)
  | resetStepForRerun (stepIndex : Nat)
  | rerunRange (now fromIndex throughIndex : Nat)
  | rerunProducerThrough (now producerIndex companionIndex : Nat) (rework : Rework)
deriving DecidableEq

/-- The id the next job of `kind` gets. -/
def nextJobId (run : ExecutionInstance) (kind : String) : String :=
  stepJobId run.id kind (dispatchEpochFor run.steps kind)

def setStep (run : ExecutionInstance) (index : Nat) (step : PipelineStep) :
    ExecutionInstance :=
  { run with steps := run.steps.set index step }

/-- A dispatch or claim mints its id from the counters before it is counted;
the handle comes back with the minted id. -/
def DispatchLog.step (log : DispatchLog) (action : DispatchAction) :
    Option DispatchLog :=
  match action with
  | DispatchAction.recordDispatchedJob stepIndex handle dispatchedKind =>
      log.run.steps[stepIndex]?.map fun step =>
        let jobId := nextJobId log.run dispatchedKind
        { run := setStep log.run stepIndex
            (recordDispatchedJob step { handle with jobId := jobId } dispatchedKind)
          minted := log.minted ++ [jobId] }
  | DispatchAction.claimDispatchEpoch stepIndex dispatchedKind =>
      log.run.steps[stepIndex]?.map fun step =>
        { run := setStep log.run stepIndex
            (claimDispatchEpoch step dispatchedKind)
          minted := log.minted ++ [nextJobId log.run dispatchedKind] }
  | DispatchAction.resetStepForRerun stepIndex =>
      log.run.steps[stepIndex]?.map fun step =>
        { log with run := setStep log.run stepIndex (resetStepForRerun step) }
  | DispatchAction.rerunRange now fromIndex throughIndex =>
      (rerunRange now log.run fromIndex throughIndex).map fun run =>
        { log with run := run }
  | DispatchAction.rerunProducerThrough now producerIndex companionIndex rework =>
      (rerunProducerThrough now log.run producerIndex companionIndex rework).map
        fun run => { log with run := run }

def DispatchLog.start (run : ExecutionInstance) : DispatchLog :=
  { run := run, minted := [] }

/-- The kind an action dispatches, if it dispatches. -/
def DispatchAction.kind? : DispatchAction -> Option String
  | recordDispatchedJob _ _ dispatchedKind => some dispatchedKind
  | claimDispatchEpoch _ dispatchedKind => some dispatchedKind
  | _ => none

def dispatchedKinds (trace : List DispatchAction) : List String :=
  trace.filterMap DispatchAction.kind?

/-!
## What one action does
-/

theorem step_of_kind {log log' : DispatchLog} {action : DispatchAction}
    {kind : String} (h : log.step action = some log')
    (hkind : action.kind? = some kind) :
    log'.run.id = log.run.id ∧ log'.minted = log.minted ++ [nextJobId log.run kind] ∧
      forall other, dispatchEpochFor log'.run.steps other =
        dispatchEpochFor log.run.steps other + if kind = other then 1 else 0 := by
  unfold DispatchLog.step at h
  cases action with
  | recordDispatchedJob stepIndex handle dispatchedKind =>
      cases hkind
      rcases Option.map_eq_some_iff.mp h with ⟨step, hstep, rfl⟩
      exact ⟨rfl, rfl, dispatchEpochFor_set hstep
        (recordDispatchedJob_dispatches step _ kind)⟩
  | claimDispatchEpoch stepIndex dispatchedKind =>
      cases hkind
      rcases Option.map_eq_some_iff.mp h with ⟨step, hstep, rfl⟩
      exact ⟨rfl, rfl, dispatchEpochFor_set hstep rfl⟩
  | resetStepForRerun stepIndex => cases hkind
  | rerunRange now fromIndex throughIndex => cases hkind
  | rerunProducerThrough now producerIndex companionIndex rework => cases hkind

theorem rerunRange_id {now fromIndex throughIndex : Nat}
    {run run' : ExecutionInstance}
    (h : rerunRange now run fromIndex throughIndex = some run') :
    run'.id = run.id := by
  unfold rerunRange at h
  split at h
  · cases h
  · split at h
    · cases h
    · cases h
      rfl

theorem rerunProducerThrough_id {now producerIndex companionIndex : Nat}
    {rework : Rework} {run run' : ExecutionInstance}
    (h : rerunProducerThrough now run producerIndex companionIndex rework =
      some run') : run'.id = run.id := by
  unfold rerunProducerThrough at h
  split at h
  · cases h
  · simp only at h
    split at h
    · cases h
    · cases h
      rfl

/-- Resets and loop-backs mint nothing and keep every counter. -/
theorem step_of_no_kind {log log' : DispatchLog} {action : DispatchAction}
    (h : log.step action = some log') (hkind : action.kind? = none) :
    log'.run.id = log.run.id ∧ log'.minted = log.minted ∧
      forall kind, dispatchEpochFor log'.run.steps kind =
        dispatchEpochFor log.run.steps kind := by
  unfold DispatchLog.step at h
  cases action with
  | recordDispatchedJob stepIndex handle dispatchedKind => cases hkind
  | claimDispatchEpoch stepIndex dispatchedKind => cases hkind
  | resetStepForRerun stepIndex =>
      rcases Option.map_eq_some_iff.mp h with ⟨step, hstep, rfl⟩
      exact ⟨rfl, rfl, dispatchEpochFor_congr
        (map_set_view hstep (resetStepForRerun_dispatches step))⟩
  | rerunRange now fromIndex throughIndex =>
      rcases Option.map_eq_some_iff.mp h with ⟨run, hrun, rfl⟩
      exact ⟨rerunRange_id hrun, rfl, dispatchEpochFor_congr
        (rerunRange_view resetStepForRerun_dispatches
          (startStep_dispatches now) hrun)⟩
  | rerunProducerThrough now producerIndex companionIndex rework =>
      rcases Option.map_eq_some_iff.mp h with ⟨run, hrun, rfl⟩
      exact ⟨rerunProducerThrough_id hrun, rfl, dispatchEpochFor_congr
        (rerunProducerThrough_view resetStepForRerun_dispatches
          (startStep_dispatches now) (fun _ => rfl) (fun _ => rfl) hrun)⟩

/-!
## Rounds

A round is a kind with the epoch one of its jobs was dispatched at.  A run
mints one id for each round between the epochs it started with and the epochs
it has reached.
-/

theorem run_id_eq {run : ExecutionInstance} {trace : List DispatchAction}
    {log : DispatchLog}
    (hrun : Run DispatchLog.step (DispatchLog.start run) trace log) :
    log.run.id = run.id := by
  induction hrun with
  | nil => rfl
  | @snoc trace s t action _ _ hstep ih =>
      cases hkind : action.kind? with
      | none => rw [(step_of_no_kind hstep hkind).1, ih]
      | some kind => rw [(step_of_kind hstep hkind).1, ih]

theorem epoch_eq_start_add_count {run : ExecutionInstance}
    {trace : List DispatchAction} {log : DispatchLog}
    (hrun : Run DispatchLog.step (DispatchLog.start run) trace log)
    (kind : String) :
    dispatchEpochFor log.run.steps kind =
      dispatchEpochFor run.steps kind + (dispatchedKinds trace).count kind := by
  induction hrun with
  | nil => rfl
  | @snoc trace s t action _ _ hstep ih =>
      unfold dispatchedKinds at ih ⊢
      rw [List.filterMap_append, List.count_append]
      cases hkind : action.kind? with
      | none =>
          rw [(step_of_no_kind hstep hkind).2.2, ih]
          simp [hkind]
      | some dispatched =>
          rw [(step_of_kind hstep hkind).2.2, ih]
          by_cases hsame : dispatched = kind
          · simp [hkind, hsame]
            omega
          · simp [hkind, hsame]

/-- The id of a round. -/
def roundJobId (id : String) (round : String × Nat) : String :=
  stepJobId id round.1 round.2

theorem minted_rounds {run : ExecutionInstance} {trace : List DispatchAction}
    {log : DispatchLog}
    (hrun : Run DispatchLog.step (DispatchLog.start run) trace log) :
    exists rounds : List (String × Nat),
      log.minted = rounds.map (roundJobId run.id) ∧ rounds.Nodup ∧
        forall kind epoch, (kind, epoch) ∈ rounds <->
          dispatchEpochFor run.steps kind ≤ epoch ∧
            epoch < dispatchEpochFor log.run.steps kind := by
  induction hrun with
  | nil =>
      exists []
      constructor
      · rfl
      · constructor
        · exact List.nodup_nil
        · intro kind epoch
          simp [DispatchLog.start]
  | @snoc trace s t action hinit _ hstep ih =>
      rcases ih with ⟨rounds, hminted, hnodup, hmem⟩
      cases hkind : action.kind? with
      | none =>
          rcases step_of_no_kind hstep hkind with ⟨_, hminted', hepoch⟩
          exists rounds
          constructor
          · rw [hminted', hminted]
          · constructor
            · exact hnodup
            · intro kind epoch
              rw [hepoch]
              exact hmem kind epoch
      | some dispatched =>
          rcases step_of_kind hstep hkind with ⟨_, hminted', hepoch⟩
          -- the new round sits just above every earlier one of its kind
          have hfresh :
              (dispatched, dispatchEpochFor s.run.steps dispatched) ∉ rounds := by
            intro h
            have hlt := ((hmem _ _).mp h).2
            omega
          exists rounds ++ [(dispatched, dispatchEpochFor s.run.steps dispatched)]
          constructor
          · rw [hminted', hminted, List.map_append]
            unfold nextJobId roundJobId
            rw [run_id_eq hinit]
            rfl
          · constructor
            · apply List.nodup_append.mpr
              constructor
              · exact hnodup
              · constructor
                · exact List.nodup_singleton _
                · intro round hround last hlast heq
                  rw [List.mem_singleton.mp hlast] at heq
                  exact hfresh (heq ▸ hround)
            · intro kind epoch
              have hstart := epoch_eq_start_add_count hinit dispatched
              rw [List.mem_append, hmem, List.mem_singleton, Prod.mk.injEq, hepoch]
              by_cases hsame : dispatched = kind
              · subst hsame
                simp only [true_and, if_true]
                omega
              · have hsame' : Not (kind = dispatched) := fun h => hsame h.symm
                simp [hsame, hsame']

/-!
## When two rounds share a text
-/

theorem append_dash_cancel {first second : List Char} {n m : Nat}
    (h : first ++ '-' :: (toString n).toList = second ++ '-' :: (toString m).toList) :
    first = second ∧ n = m :=
  append_numeral_cancel (by decide) h

theorem stepJobId_zero (id kind : String) :
    stepJobId id kind 0 = id ++ "-" ++ kind := rfl

theorem stepJobId_pos (id kind : String) {epoch : Nat} (hpos : 0 < epoch) :
    stepJobId id kind epoch = id ++ "-" ++ kind ++ "-" ++ toString epoch := by
  unfold stepJobId
  simp [hpos]

/-- The id of a later job of `kind` is the id of the first job of the kind
whose name already ends in that epoch, and of no other. -/
theorem stepJobId_eq_iff (id kind kind' : String) (epoch epoch' : Nat) :
    stepJobId id kind epoch = stepJobId id kind' epoch' <->
      (kind = kind' ∧ epoch = epoch') ∨
        (0 < epoch ∧ epoch' = 0 ∧ kind' = kind ++ "-" ++ toString epoch) ∨
        (0 < epoch' ∧ epoch = 0 ∧ kind = kind' ++ "-" ++ toString epoch') := by
  have hcancel (tail tail' : String) :
      id ++ "-" ++ tail = id ++ "-" ++ tail' <-> tail = tail' := by
    simp [<- String.toList_inj]
  have hassoc (k : String) (e : Nat) :
      id ++ "-" ++ k ++ "-" ++ toString e = id ++ "-" ++ (k ++ "-" ++ toString e) := by
    simp [String.append_assoc]
  rcases Nat.eq_zero_or_pos epoch with hzero | hpos
  · subst hzero
    rcases Nat.eq_zero_or_pos epoch' with hzero' | hpos'
    · subst hzero'
      rw [stepJobId_zero, stepJobId_zero, hcancel]
      simp
    · rw [stepJobId_zero, stepJobId_pos id kind' hpos', hassoc, hcancel]
      constructor
      · intro h
        exact Or.inr (Or.inr ⟨hpos', rfl, h⟩)
      · intro h
        rcases h with h | h | h
        · omega
        · omega
        · exact h.2.2
  · rcases Nat.eq_zero_or_pos epoch' with hzero' | hpos'
    · subst hzero'
      rw [stepJobId_pos id kind hpos, stepJobId_zero, hassoc, hcancel]
      constructor
      · intro h
        exact Or.inr (Or.inl ⟨hpos, rfl, h.symm⟩)
      · intro h
        rcases h with h | h | h
        · omega
        · exact h.2.2.symm
        · omega
    · rw [stepJobId_pos id kind hpos, stepJobId_pos id kind' hpos', hassoc, hassoc,
        hcancel]
      constructor
      · intro h
        have hchars := congrArg String.toList h
        simp only [String.toList_append] at hchars
        have hdash : "-".toList = ['-'] := rfl
        simp only [hdash, List.append_assoc, List.singleton_append] at hchars
        rcases append_dash_cancel hchars with ⟨hkind, hepoch⟩
        exact Or.inl ⟨String.toList_injective hkind, hepoch⟩
      · intro h
        rcases h with h | h | h
        · rw [h.1, h.2]
        · omega
        · omega

/-- Some kind reaches a round whose suffix turns its name into that of another
kind, and the run dispatches that other kind for the first time. -/
def SuffixCollision (run : ExecutionInstance) (kinds : List String) : Prop :=
  exists kind round, 0 < round ∧
    dispatchEpochFor run.steps kind ≤ round ∧
    round < dispatchEpochFor run.steps kind + kinds.count kind ∧
    dispatchEpochFor run.steps (kind ++ "-" ++ toString round) = 0 ∧
    kind ++ "-" ++ toString round ∈ kinds

theorem minted_nodup_iff {run : ExecutionInstance} {trace : List DispatchAction}
    {log : DispatchLog}
    (hrun : Run DispatchLog.step (DispatchLog.start run) trace log) :
    log.minted.Nodup <-> Not (SuffixCollision run (dispatchedKinds trace)) := by
  rcases minted_rounds hrun with ⟨rounds, hminted, hnodup, hmem⟩
  have hround (kind : String) (epoch : Nat) : (kind, epoch) ∈ rounds <->
      dispatchEpochFor run.steps kind ≤ epoch ∧
        epoch < dispatchEpochFor run.steps kind +
          (dispatchedKinds trace).count kind := by
    rw [hmem, epoch_eq_start_add_count hrun]
  -- a collision is a later round of one kind and a first round of another
  have hcollision (kind : String) (epoch : Nat) (hpos : 0 < epoch)
      (hlater : (kind, epoch) ∈ rounds)
      (hfirst : (kind ++ "-" ++ toString epoch, 0) ∈ rounds) :
      SuffixCollision run (dispatchedKinds trace) := by
    have hbounds := (hround _ _).mp hlater
    have hzero := (hround _ _).mp hfirst
    exact ⟨kind, epoch, hpos, hbounds.1, hbounds.2, by omega,
      List.count_pos_iff.mp (by omega)⟩
  rw [hminted, List.nodup_map_iff_inj_on hnodup]
  constructor
  · intro hinj hcoll
    rcases hcoll with ⟨kind, round, hpos, hle, hlt, hzero, hkind⟩
    have hlater : (kind, round) ∈ rounds := (hround _ _).mpr ⟨hle, hlt⟩
    have hfirst : (kind ++ "-" ++ toString round, 0) ∈ rounds := by
      apply (hround _ _).mpr
      have hcount := List.count_pos_iff.mpr hkind
      omega
    have hsame : roundJobId run.id (kind, round) =
        roundJobId run.id (kind ++ "-" ++ toString round, 0) :=
      (stepJobId_eq_iff _ _ _ _ _).mpr (Or.inr (Or.inl ⟨hpos, rfl, rfl⟩))
    have heq := hinj _ hlater _ hfirst hsame
    have hround_zero : round = 0 := congrArg Prod.snd heq
    omega
  · intro hcoll first hfirst second hsecond hsame
    rcases first with ⟨kind, epoch⟩
    rcases second with ⟨kind', epoch'⟩
    rcases (stepJobId_eq_iff run.id kind kind' epoch epoch').mp hsame with h | h | h
    · rw [h.1, h.2]
    · rcases h with ⟨hpos, hzero, hkind⟩
      subst hzero hkind
      exact absurd (hcollision kind epoch hpos hfirst hsecond) hcoll
    · rcases h with ⟨hpos, hzero, hkind⟩
      subst hzero hkind
      exact absurd (hcollision kind' epoch' hpos hsecond hfirst) hcoll

/-- Every dispatch and every reset leaves each epoch where it was or above. -/
theorem epoch_le_of_run {run : ExecutionInstance} {trace : List DispatchAction}
    {log : DispatchLog}
    (hrun : Run DispatchLog.step (DispatchLog.start run) trace log)
    (kind : String) :
    dispatchEpochFor run.steps kind ≤ dispatchEpochFor log.run.steps kind := by
  rw [epoch_eq_start_add_count hrun]
  exact Nat.le_add_right _ _

/-- The job ids of a run are pairwise distinct and its epochs never go back
exactly when no kind's round is spelled into the name of another kind that the
run dispatches. -/
theorem jobIds_distinct_iff {run : ExecutionInstance}
    {trace : List DispatchAction} {log : DispatchLog}
    (hrun : Run DispatchLog.step (DispatchLog.start run) trace log) :
    (log.minted.Nodup ∧ forall kind,
        dispatchEpochFor run.steps kind ≤ dispatchEpochFor log.run.steps kind) <->
      Not (SuffixCollision run (dispatchedKinds trace)) := by
  constructor
  · intro h
    exact (minted_nodup_iff hrun).mp h.1
  · intro h
    exact ⟨(minted_nodup_iff hrun).mpr h, epoch_le_of_run hrun⟩

/-- A tester step that hands off to a fixer of an open-ended kind. -/
def testerRun : ExecutionInstance :=
  { id := "exec_1"
    blockId := "blk_1"
    pipelineId := "pl_1"
    pipelineName := "Test"
    steps := [{ agentKind := "tester", state := AgentState.working }]
    currentStep := 0
    status := ExecutionStatus.running }

def dispatchOf (kind : String) : DispatchAction :=
  DispatchAction.recordDispatchedJob 0 { jobId := "" } kind

/-- Two fix rounds with a reset between them. -/
def testerTrace : List DispatchAction :=
  [dispatchOf "fixer", DispatchAction.resetStepForRerun 0, dispatchOf "fixer"]

def testerLog : DispatchLog :=
  endOf DispatchLog.step (DispatchLog.start testerRun) testerTrace

theorem jobIds_distinct_testerRun :
    (testerLog.minted.Nodup ∧ forall kind,
        dispatchEpochFor testerRun.steps kind ≤
          dispatchEpochFor testerLog.run.steps kind) <->
      Not (SuffixCollision testerRun (dispatchedKinds testerTrace)) :=
  jobIds_distinct_iff (run_endOf (by decide))

/-- The second `fixer` job and the first job of a kind called `fixer-1` are one
id. -/
theorem jobIds_collide_suffixedKind :
    exists trace log,
      Run DispatchLog.step (DispatchLog.start testerRun) trace log ∧
        Not log.minted.Nodup :=
  ⟨[dispatchOf "fixer", dispatchOf "fixer", dispatchOf "fixer-1"], _,
    run_endOf (by decide), by decide⟩

end Execution
end CatFactory
