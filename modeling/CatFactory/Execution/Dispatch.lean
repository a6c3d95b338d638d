import CatFactory.Foundation.Text
import CatFactory.Execution.StepGraph

/-!
# Recording a dispatch

An accepted dispatch leaves on the step everything the later poll cannot find
out again: the job id, the attribution, the tool servers, the external run of a
delegated job, and one more on the counter of the kind that ran.  The counter
gives the epoch of the next job of that kind, and the epoch its id.
-/

namespace CatFactory
namespace Execution

open Foundation

/-!
## The handle a dispatch returns
-/

/-- What a delegated dispatch resolved to in the executor's own system. -/
structure DelegatedHandle where
  executor : String
  externalId : String
  url : Option String := none
  branches : Option DelegationBranches := none
  repo : Option DelegationRepo := none
deriving DecidableEq

structure DispatchToolServers where
  wired : Payload
  unavailable : Payload
deriving DecidableEq

structure AgentJobHandle where
  jobId : String
  model : Option String := none
  subscriptionTokenId : Option String := none
  initiatedByUserId : Option String := none
  toolServers : Option DispatchToolServers := none
  delegated : Option DelegatedHandle := none
deriving DecidableEq

/-!
## Folding the handle onto the step
-/

/-- Change the last attempt, which is the round in flight. -/
def withLastAttempt (change : RunDelegationAttempt -> RunDelegationAttempt)
    (attempts : List RunDelegationAttempt) : List RunDelegationAttempt :=
  attempts.modify (attempts.length - 1) change

/-- Executors put a claim on record before they are called; a dispatch without
one gets a record with no cadence and an unknown start. -/
def claimOrInvented (step : PipelineStep) (delegated : DelegatedHandle) :
    RunDelegation :=
  step.delegated.getD
    { executor := delegated.executor
      status := RunDelegationStatus.starting
      correlationKey := step.jobId.getD delegated.externalId
      poll := none
      attempts := [{ startedAt := 0 }] }

def stampDelegationDispatch (step : PipelineStep) (delegated : DelegatedHandle) :
    PipelineStep :=
  let claim := claimOrInvented step delegated
  let attempts := if claim.attempts = [] then [{ startedAt := 0 }] else claim.attempts
  { step with
    delegated := some
      { claim with
        executor := delegated.executor
        status := RunDelegationStatus.running
        externalId := some delegated.externalId
        url := delegated.url.or claim.url
        branches := delegated.branches.or claim.branches
        repo := delegated.repo.or claim.repo
        attempts := withLastAttempt
          (fun attempt =>
            { attempt with
              externalId := some delegated.externalId
              url := delegated.url.or attempt.url })
          attempts } }

def stampToolServers (step : PipelineStep) (resolved : DispatchToolServers)
    (dispatchedKind : String) : PipelineStep :=
  { step with
    toolServers := some
      { agentKind := dispatchedKind
        wired := resolved.wired
        unavailable := resolved.unavailable } }

/-- One more dispatch of `kind`: on the first entry of the kind, or on a new
entry at the end. -/
def countDispatch (kind : String) : List DispatchCount -> List DispatchCount
  | [] => [{ agentKind := kind, count := 1 }]
  | entry :: rest =>
      if entry.agentKind = kind then { entry with count := entry.count + 1 } :: rest
      else entry :: countDispatch kind rest

def recordDispatchAttribution (step : PipelineStep) (handle : AgentJobHandle)
    (dispatchedKind : String) : PipelineStep :=
  let step :=
    { step with
      model := truthyOr handle.model step.model
      subscriptionTokenId :=
        truthyOr handle.subscriptionTokenId step.subscriptionTokenId
      initiatedByUserId :=
        truthyOr handle.initiatedByUserId step.initiatedByUserId }
  let step :=
    match handle.toolServers with
    | none => step
    | some resolved => stampToolServers step resolved dispatchedKind
  let step :=
    match handle.delegated with
    | none => step
    | some delegated => stampDelegationDispatch step delegated
  { step with dispatches := countDispatch dispatchedKind step.dispatches }

/-- An accepted dispatch.  A delegated one stamps no container. -/
def recordDispatchedJob (step : PipelineStep) (handle : AgentJobHandle)
    (dispatchedKind : String) : PipelineStep :=
  let step :=
    recordDispatchAttribution { step with jobId := some handle.jobId } handle
      dispatchedKind
  if handle.delegated.isSome then step
  else { step with container := some { status := RunContainerStatus.up } }

/-!
## Epochs and job ids
-/

/-- How many jobs of `kind` a list of counters has seen. -/
def countedOf (kind : String) (dispatches : List DispatchCount) : Nat :=
  ((dispatches.filter (fun entry => entry.agentKind = kind)).map
    DispatchCount.count).sum

/-- How many jobs of `kind` the run has dispatched, over all of its steps. -/
def dispatchEpochFor (steps : List PipelineStep) (kind : String) : Nat :=
  (steps.map (fun step => countedOf kind step.dispatches)).sum

/-- Count the dispatch on the step before anything is dispatched. -/
def claimDispatchEpoch (step : PipelineStep) (dispatchedKind : String) :
    PipelineStep :=
  { step with dispatches := countDispatch dispatchedKind step.dispatches }

def stepJobId (executionId agentKind : String) (dispatchEpoch : Nat) : String :=
  let base := executionId ++ "-" ++ agentKind
  if 0 < dispatchEpoch then base ++ "-" ++ toString dispatchEpoch else base

@[simp]
theorem recordDispatchAttribution_dispatches (step : PipelineStep)
    (handle : AgentJobHandle) (kind : String) :
    (recordDispatchAttribution step handle kind).dispatches =
      countDispatch kind step.dispatches := by
  unfold recordDispatchAttribution
  cases handle.toolServers with
  | none =>
      cases handle.delegated with
      | none => rfl
      | some _ => rfl
  | some _ =>
      cases handle.delegated with
      | none => rfl
      | some _ => rfl

@[simp]
theorem recordDispatchedJob_dispatches (step : PipelineStep)
    (handle : AgentJobHandle) (kind : String) :
    (recordDispatchedJob step handle kind).dispatches =
      countDispatch kind step.dispatches := by
  unfold recordDispatchedJob
  cases handle.delegated.isSome with
  | true => simp
  | false => simp

theorem countedOf_countDispatch (kind other : String)
    (dispatches : List DispatchCount) :
    countedOf other (countDispatch kind dispatches) =
      countedOf other dispatches + if kind = other then 1 else 0 := by
  induction dispatches with
  | nil =>
      by_cases hkind : kind = other
      · simp [countDispatch, countedOf, hkind]
      · simp [countDispatch, countedOf, hkind]
  | cons entry rest ih =>
      unfold countDispatch
      unfold countedOf at ih ⊢
      by_cases hentry : entry.agentKind = kind
      · rw [if_pos hentry]
        by_cases hkind : kind = other
        · simp [hentry, hkind]
          omega
        · simp [hentry, hkind]
      · rw [if_neg hentry]
        by_cases hother : entry.agentKind = other
        · simp [hother, ih]
          omega
        · simp [hother, ih]

/-- A step that counts one more dispatch of `kind` moves that kind's epoch by
one and no other's. -/
theorem dispatchEpochFor_set {steps : List PipelineStep} {index : Nat}
    {step next : PipelineStep} {kind : String} (hstep : steps[index]? = some step)
    (hcount : next.dispatches = countDispatch kind step.dispatches)
    (other : String) :
    dispatchEpochFor (steps.set index next) other =
      dispatchEpochFor steps other + if kind = other then 1 else 0 := by
  induction steps generalizing index with
  | nil => simp at hstep
  | cons first rest ih =>
      cases index with
      | zero =>
          have hfirst : first = step := by simpa using hstep
          unfold dispatchEpochFor
          simp only [List.set_cons_zero, List.map_cons, List.sum_cons, hcount,
            countedOf_countDispatch, hfirst]
          omega
      | succ index =>
          have htail := @ih index (by simpa using hstep)
          unfold dispatchEpochFor at htail ⊢
          simp only [List.set_cons_succ, List.map_cons, List.sum_cons, htail]
          omega

/-- Only the counters matter to an epoch. -/
theorem dispatchEpochFor_congr {steps steps' : List PipelineStep}
    (h : steps'.map PipelineStep.dispatches = steps.map PipelineStep.dispatches)
    (kind : String) :
    dispatchEpochFor steps' kind = dispatchEpochFor steps kind := by
  have hmap : steps'.map (fun step => countedOf kind step.dispatches) =
      steps.map (fun step => countedOf kind step.dispatches) := by
    simpa [Function.comp_def] using congrArg (List.map (countedOf kind)) h
  unfold dispatchEpochFor
  rw [hmap]

end Execution
end CatFactory
