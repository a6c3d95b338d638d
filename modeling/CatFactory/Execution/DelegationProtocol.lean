import CatFactory.Foundation.Runs
import CatFactory.Execution.Delegation

/-!
# The delegation protocol

One step, followed through any sequence of claims, deaths between a claim and
its start, answers, polls, settlements, container jobs, resets and teardowns.
Every write of the run is guarded by its revision, so the process that
committed a claim folds the executor's answer onto that very claim or not at
all.
-/

namespace CatFactory
namespace Execution

open Foundation

variable {step : PipelineStep}

/-!
## The protocol's states and actions
-/

/-- A step with what has happened to it.  `dispatching` says that a live process
holds the claim it has just committed, `containerInFlight` that the job in
flight is a container's, `unanswered` the key of the claim nobody has answered,
and `opened` counts the claims that did not resume an unanswered one. -/
structure DelegatedStep where
  step : PipelineStep
  dispatching : Bool
  containerInFlight : Bool
  unanswered : Option String
  opened : Nat

inductive DelegationAction where
  | claimDelegation (input : ClaimInput)
  | processDeath
  | acceptDispatch (handle : AgentJobHandle) (delegated : DelegatedHandle)
      (dispatchedKind : String)
  | failDelegationDispatch (failure : DispatchFailure)
  | runningPoll (jobId : String) (update : RunningUpdate)
  | settledPoll (update : SettledUpdate) (clearsJob : Bool)
  | containerDispatch (handle : AgentJobHandle) (dispatchedKind : String)
  | resetStepForRerun
  | applyDelegationCancellation (report : List CancelReport)

namespace DelegatedStep

/-- Write the step.  A write that moves the row shuts out the process that
holds the claim. -/
def write (s : DelegatedStep) (next : PipelineStep) : DelegatedStep :=
  { s with
    step := next
    dispatching := s.dispatching && decide (next = s.step) }

def act (s : DelegatedStep) : DelegationAction -> Option DelegatedStep
  | .claimDelegation input =>
      some
        { step := Execution.claimDelegation s.step input
          dispatching := true
          containerInFlight := false
          unanswered := some input.correlationKey
          opened :=
            if s.unanswered = some input.correlationKey then s.opened
            else s.opened + 1 }
  | .processDeath => some { s with dispatching := false }
  | .acceptDispatch handle delegated dispatchedKind =>
      if s.dispatching then
        some
          { s with
            step := recordDispatchedJob s.step
              { handle with delegated := some delegated } dispatchedKind
            dispatching := false
            unanswered := none }
      else none
  | .failDelegationDispatch failure =>
      if s.dispatching then
        some
          { s with
            step := Execution.failDelegationDispatch s.step failure
            dispatching := false
            unanswered := if failure.contacted then s.unanswered else none }
      else none
  | .runningPoll jobId update =>
      if jobId = "" then none
      else
        some
          { s.write (applyRunningFold s.step jobId update) with
            unanswered :=
              if s.containerInFlight = false ∧ s.step.jobId = some jobId then none
              else s.unanswered }
  | .settledPoll update clearsJob =>
      if truthy s.step.jobId then
        let next := settleDelegatedJob s.step update
        some
          { s.write (if clearsJob then { next with jobId := none } else next) with
            containerInFlight := s.containerInFlight && !clearsJob
            unanswered := if s.containerInFlight then s.unanswered else none }
      else none
  | .containerDispatch handle dispatchedKind =>
      some
        { s with
          step := recordDispatchedJob s.step { handle with delegated := none }
            dispatchedKind
          dispatching := false
          containerInFlight := true }
  | .resetStepForRerun =>
      some
        { s.write (Execution.resetStepForRerun s.step) with
          containerInFlight := false }
  | .applyDelegationCancellation report =>
      some { s.write (cancelDelegation report s.step) with unanswered := none }

/-- A stored step at the start of a history. -/
def start (step : PipelineStep) : DelegatedStep :=
  { step := step
    dispatching := false
    containerInFlight := step.jobId.isSome && (inFlightDelegation step).isNone
    unanswered :=
      match step.delegated with
      | none => none
      | some record =>
          if record.status = RunDelegationStatus.starting then
            some record.correlationKey
          else none
    opened := 0 }

/-- Polls fold onto the record only while the record is live and the job in
flight is its own, and no container job takes the key of an unanswered claim. -/
def foldsOnlyLive (s : DelegatedStep) : DelegationAction -> Bool
  | .runningPoll jobId _ =>
      s.step.jobId ≠ some jobId ||
        match inFlightDelegation s.step with
        | none => true
        | some record => !s.containerInFlight && record.status.live
  | .settledPoll update _ =>
      match inFlightDelegation s.step with
      | none => true
      | some record =>
          !s.containerInFlight &&
            (record.status.live || record.status = update.settlement.status)
  | .containerDispatch handle _ =>
      match s.step.delegated with
      | none => true
      | some record =>
          record.status ≠ RunDelegationStatus.starting ||
            record.correlationKey ≠ handle.jobId
  | _ => true

def attemptLog (s : DelegatedStep) : List RunDelegationAttempt :=
  priorAttempts s.step.delegated

end DelegatedStep

def DelegationAction.isClaim : DelegationAction -> Bool
  | claimDelegation _ => true
  | _ => false

def DelegationAction.isPoll : DelegationAction -> Bool
  | runningPoll _ _ => true
  | settledPoll _ _ => true
  | _ => false

/-!
## Logs that only grow

An entry is frozen as soon as another one follows it.
-/

def Frozen (before after : List entry) : Prop :=
  before.length ≤ after.length ∧
    forall i, i + 1 < before.length -> after[i]? = before[i]?

theorem Frozen.refl (log : List entry) : Frozen log log :=
  ⟨Nat.le_refl _, fun _ _ => rfl⟩

theorem Frozen.trans {first second third : List entry}
    (hfirst : Frozen first second) (hsecond : Frozen second third) :
    Frozen first third := by
  constructor
  · exact Nat.le_trans hfirst.1 hsecond.1
  · intro i hi
    rw [hsecond.2 i (Nat.lt_of_lt_of_le hi hfirst.1), hfirst.2 i hi]

theorem Frozen.append (log more : List entry) : Frozen log (log ++ more) := by
  constructor
  · simp
  · intro i hi
    rw [List.getElem?_append_left (by omega)]

theorem withLastAttempt_length (change : RunDelegationAttempt -> RunDelegationAttempt)
    (attempts : List RunDelegationAttempt) :
    (withLastAttempt change attempts).length = attempts.length := by
  simp [withLastAttempt]

theorem withLastAttempt_frozen (change : RunDelegationAttempt -> RunDelegationAttempt)
    (attempts : List RunDelegationAttempt) :
    Frozen attempts (withLastAttempt change attempts) := by
  constructor
  · rw [withLastAttempt_length]
  · intro i hi
    unfold withLastAttempt
    have hne : attempts.length - 1 ≠ i := by omega
    exact List.getElem?_modify_ne change attempts hne

/-!
## What a fold leaves of the record
-/

/-- Everything but a claim keeps the record's key and touches at most the last
attempt of its log. -/
inductive Folds : Option RunDelegation -> Option RunDelegation -> Prop where
  | absent : Folds none none
  | record {before after : RunDelegation} :
      after.correlationKey = before.correlationKey ->
      after.attempts.length = before.attempts.length ->
      Frozen before.attempts after.attempts ->
      Folds (some before) (some after)

theorem Folds.refl (delegated : Option RunDelegation) : Folds delegated delegated := by
  cases delegated with
  | none => exact Folds.absent
  | some record => exact Folds.record rfl rfl (Frozen.refl _)

theorem folds_map {change : RunDelegation -> RunDelegation}
    (hkey : forall record, (change record).correlationKey = record.correlationKey)
    (hlog : forall record, (change record).attempts = record.attempts ∨
      exists last, (change record).attempts = withLastAttempt last record.attempts)
    (delegated : Option RunDelegation) : Folds delegated (delegated.map change) := by
  cases delegated with
  | none => exact Folds.absent
  | some record =>
      rcases hlog record with h | ⟨last, h⟩
      · apply Folds.record (hkey record)
        · rw [h]
        · rw [h]
          exact Frozen.refl _
      · apply Folds.record (hkey record)
        · rw [h, withLastAttempt_length]
        · rw [h]
          exact withLastAttempt_frozen last record.attempts

theorem Folds.log_length {before after : Option RunDelegation}
    (h : Folds before after) :
    (priorAttempts after).length = (priorAttempts before).length := by
  cases h with
  | absent => rfl
  | record _ hlength _ => exact hlength

theorem Folds.log_frozen {before after : Option RunDelegation}
    (h : Folds before after) : Frozen (priorAttempts before) (priorAttempts after) := by
  cases h with
  | absent => exact Frozen.refl _
  | record _ _ hfrozen => exact hfrozen

theorem settleDelegation_folds (step : PipelineStep) (settlement : Settlement) :
    Folds step.delegated (settleDelegation step settlement).delegated :=
  @folds_map (fun record => settledRecord record settlement) (fun _ => rfl)
    (fun _ => Or.inr ⟨_, rfl⟩) step.delegated

theorem failDelegationDispatch_folds (step : PipelineStep)
    (failure : DispatchFailure) :
    Folds step.delegated (failDelegationDispatch step failure).delegated := by
  unfold failDelegationDispatch
  cases failure.contacted with
  | true =>
      apply folds_map
      · intro record
        rfl
      · intro record
        exact Or.inr ⟨_, rfl⟩
  | false => exact settleDelegation_folds { step with jobId := none } _

theorem runningRecord_folds (prev : RunDelegation)
    (externalId url phase : Option String) :
    (runningRecord prev externalId url phase).correlationKey = prev.correlationKey ∧
      ((runningRecord prev externalId url phase).attempts = prev.attempts ∨
        exists last, (runningRecord prev externalId url phase).attempts =
          withLastAttempt last prev.attempts) := by
  unfold runningRecord
  simp only
  split
  · exact ⟨rfl, Or.inl rfl⟩
  · constructor
    · rfl
    · simp only
      split
      · exact Or.inr ⟨_, rfl⟩
      · exact Or.inl rfl

theorem applyRunningFold_folds (step : PipelineStep) (jobId : String)
    (update : RunningUpdate) :
    Folds step.delegated (applyRunningFold step jobId update).delegated := by
  unfold applyRunningFold
  split
  · cases inFlightDelegation step with
    | none => exact Folds.refl _
    | some _ =>
        exact folds_map (fun record => (runningRecord_folds record _ _ _).1)
          (fun record => (runningRecord_folds record _ _ _).2) step.delegated
  · exact Folds.refl _

theorem settleDelegatedJob_folds (step : PipelineStep) (update : SettledUpdate) :
    Folds step.delegated (settleDelegatedJob step update).delegated := by
  unfold settleDelegatedJob
  cases inFlightDelegation step with
  | none => exact Folds.refl _
  | some _ => exact settleDelegation_folds step _

theorem cancelDelegation_folds (report : List CancelReport) (step : PipelineStep) :
    Folds step.delegated (cancelDelegation report step).delegated := by
  unfold cancelDelegation
  cases hrecord : step.delegated with
  | none =>
      simp only [hrecord]
      exact Folds.absent
  | some record =>
      simp only
      split
      · have h := settleDelegation_folds step (cancelSettlement record report)
        rw [hrecord] at h
        exact h
      · rw [hrecord]
        exact Folds.refl _

/-!
## Statuses and handles
-/

theorem inFlightDelegation_eq_some_iff {record : RunDelegation} :
    inFlightDelegation step = some record <->
      step.delegated = some record ∧ step.jobId = some record.correlationKey := by
  unfold inFlightDelegation
  cases hrecord : step.delegated with
  | none => simp
  | some current =>
      simp only
      split
      · rename_i hjob
        constructor
        · intro h
          cases h
          exact ⟨rfl, hjob⟩
        · intro h
          exact h.1
      · rename_i hjob
        constructor
        · intro h
          cases h
        · intro h
          cases h.1
          exact absurd h.2 hjob

theorem runningRecord_status (prev : RunDelegation)
    (externalId url phase : Option String) :
    (runningRecord prev externalId url phase).status = RunDelegationStatus.running := by
  unfold runningRecord
  simp only
  split
  · rename_i h
    rw [<- h]
  · rfl

theorem settlement_status_ne_starting (update : SettledUpdate) :
    update.settlement.status ≠ RunDelegationStatus.starting := by
  cases update with
  | done _ _ _ => exact fun h => by cases h
  | failed _ _ _ => exact fun h => by cases h

@[simp]
theorem recordDispatchedJob_jobId (step : PipelineStep) (handle : AgentJobHandle)
    (kind : String) : (recordDispatchedJob step handle kind).jobId = some handle.jobId := by
  unfold recordDispatchedJob recordDispatchAttribution
  cases handle.toolServers with
  | none =>
      cases handle.delegated with
      | none => rfl
      | some _ => rfl
  | some _ =>
      cases handle.delegated with
      | none => rfl
      | some _ => rfl

/-- A container dispatch leaves the delegation record alone. -/
theorem recordDispatchedJob_container (step : PipelineStep)
    (handle : AgentJobHandle) (kind : String) :
    (recordDispatchedJob step { handle with delegated := none } kind).delegated =
      step.delegated := by
  unfold recordDispatchedJob recordDispatchAttribution
  cases handle.toolServers with
  | none => rfl
  | some _ => rfl

/-- A delegated dispatch stamps the claim it answers. -/
theorem recordDispatchedJob_delegated {record : RunDelegation}
    (hrecord : step.delegated = some record) (hattempts : record.attempts ≠ [])
    (handle : AgentJobHandle) (delegated : DelegatedHandle) (kind : String) :
    exists stamped,
      (recordDispatchedJob step { handle with delegated := some delegated }
        kind).delegated = some stamped ∧
      stamped.status = RunDelegationStatus.running ∧
      Folds (some record) (some stamped) := by
  have hfolds (stamped : RunDelegation)
      (hkey : stamped.correlationKey = record.correlationKey)
      (hlog : exists last, stamped.attempts = withLastAttempt last record.attempts) :
      Folds (some record) (some stamped) := by
    rcases hlog with ⟨last, hlog⟩
    apply Folds.record hkey
    · rw [hlog, withLastAttempt_length]
    · rw [hlog]
      exact withLastAttempt_frozen last record.attempts
  unfold recordDispatchedJob recordDispatchAttribution stampDelegationDispatch
    claimOrInvented stampToolServers
  cases handle.toolServers with
  | none =>
      simp only [hrecord, Option.getD_some, if_neg hattempts, Option.isSome_some,
        if_true]
      exact ⟨_, rfl, rfl, hfolds _ rfl ⟨_, rfl⟩⟩
  | some _ =>
      simp only [hrecord, Option.getD_some, if_neg hattempts, Option.isSome_some,
        if_true]
      exact ⟨_, rfl, rfl, hfolds _ rfl ⟨_, rfl⟩⟩

theorem applyRunningFold_jobId (step : PipelineStep) (jobId : String)
    (update : RunningUpdate) : (applyRunningFold step jobId update).jobId = step.jobId := by
  unfold applyRunningFold
  split
  · cases inFlightDelegation step with
    | none => rfl
    | some _ => rfl
  · rfl

theorem applyRunningFold_hit {record : RunDelegation} {jobId : String}
    (hjob : step.jobId = some jobId) (hflight : inFlightDelegation step = some record)
    (update : RunningUpdate) :
    exists folded, (applyRunningFold step jobId update).delegated = some folded ∧
      folded.status = RunDelegationStatus.running := by
  have hrecord := (inFlightDelegation_eq_some_iff.mp hflight).1
  unfold applyRunningFold
  rw [if_pos hjob, hflight]
  simp only [applyDelegationRunning, hrecord, Option.map_some]
  exact ⟨_, rfl, runningRecord_status _ _ _ _⟩

theorem applyRunningFold_miss {jobId : String}
    (hmiss : step.jobId = some jobId -> inFlightDelegation step = none) (update : RunningUpdate) :
    (applyRunningFold step jobId update).delegated = step.delegated := by
  unfold applyRunningFold
  split
  · rename_i hjob
    rw [hmiss hjob]
    rfl
  · rfl

theorem settleDelegatedJob_hit {record : RunDelegation}
    (hflight : inFlightDelegation step = some record) (update : SettledUpdate) :
    (settleDelegatedJob step update).delegated =
      some (settledRecord record update.settlement) := by
  have hrecord := (inFlightDelegation_eq_some_iff.mp hflight).1
  unfold settleDelegatedJob
  rw [hflight]
  simp only [settleDelegation, hrecord, Option.map_some]

theorem settleDelegatedJob_miss (hflight : inFlightDelegation step = none)
    (update : SettledUpdate) :
    settleDelegatedJob step update = step := by
  unfold settleDelegatedJob
  rw [hflight]

end Execution
end CatFactory
