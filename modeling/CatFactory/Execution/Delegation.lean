import CatFactory.Execution.Dispatch

/-!
# The delegation record

A delegated step runs in somebody else's system.  Its record is claimed before
the executor is called and folded on by every later poll, settlement and
teardown; whether a job is the record's own is told by the correlation key.
-/

namespace CatFactory
namespace Execution

/-!
## Whose job is in flight
-/

/-- The record the step's job belongs to, if the job in flight is the
record's. -/
def inFlightDelegation (step : PipelineStep) : Option RunDelegation :=
  match step.delegated with
  | none => none
  | some record =>
      if step.jobId = some record.correlationKey then some record else none

/-- The job a re-entering advance may attach to.  A claim the executor has not
answered is no live job. -/
def liveJobId (step : PipelineStep) : Option String :=
  if truthy step.jobId = false then none
  else if (inFlightDelegation step).map RunDelegation.status =
      some RunDelegationStatus.starting then none
  else step.jobId

/-!
## Claim and dispatch failure
-/

structure ClaimInput where
  executor : String
  correlationKey : String
  startedAt : Nat
  poll : DelegationPoll
deriving DecidableEq

/-- The claim re-opens the same, still unanswered attempt. -/
def resumesClaim (prior : Option RunDelegation) (input : ClaimInput) : Bool :=
  match prior with
  | none => false
  | some record =>
      record.status = RunDelegationStatus.starting ∧
        record.correlationKey = input.correlationKey ∧ record.attempts ≠ []

def priorAttempts (prior : Option RunDelegation) : List RunDelegationAttempt :=
  (prior.map RunDelegation.attempts).getD []

def claimDelegation (step : PipelineStep) (input : ClaimInput) : PipelineStep :=
  { step with
    jobId := some input.correlationKey
    delegated := some
      { executor := input.executor
        status := RunDelegationStatus.starting
        correlationKey := input.correlationKey
        poll := some input.poll
        externalId := none
        url := none
        phase := none
        attempts :=
          if resumesClaim step.delegated input then priorAttempts step.delegated
          else priorAttempts step.delegated ++ [{ startedAt := input.startedAt }] } }

structure Settlement where
  status : RunDelegationStatus
  outcome : Option String := none
  url : Option String := none
  note : Option String := none
  usageReported : Option Bool := none
  branch : Option String := none
deriving DecidableEq

def settledRecord (record : RunDelegation) (settlement : Settlement) :
    RunDelegation :=
  { record with
    status := settlement.status
    url := truthyOr settlement.url record.url
    note := truthyOr settlement.note record.note
    branch := truthyOr settlement.branch record.branch
    attempts := withLastAttempt
      (fun attempt =>
        { attempt with
          outcome := truthyOr settlement.outcome attempt.outcome
          url := truthyOr settlement.url attempt.url
          usageReported := settlement.usageReported.or attempt.usageReported })
      record.attempts }

def settleDelegation (step : PipelineStep) (settlement : Settlement) : PipelineStep :=
  { step with
    delegated := step.delegated.map fun record => settledRecord record settlement }

structure DispatchFailure where
  error : String
  contacted : Bool
deriving DecidableEq

/-- Fold a dispatch that threw.  The job id goes; the claim stays open when the
executor was called, and settles as failed when it was not. -/
def failDelegationDispatch (step : PipelineStep) (failure : DispatchFailure) :
    PipelineStep :=
  let step := { step with jobId := none }
  if failure.contacted then
    { step with
      delegated := step.delegated.map fun record =>
        { record with
          note := some failure.error
          attempts := withLastAttempt
            (fun attempt => { attempt with outcome := some failure.error })
            record.attempts } }
  else
    settleDelegation step
      { status := RunDelegationStatus.failed, outcome := some failure.error }

/-!
## Polls
-/

/-- What a running poll reports, of a container or of an external run. -/
structure RunningUpdate where
  phase : Option String := none
  containerId : Option String := none
  containerUrl : Option String := none
  delegatedExternalId : Option String := none
  delegatedUrl : Option String := none
deriving DecidableEq

/-- The delegated record after a running poll, or the record unchanged when the
poll tells nothing new. -/
def runningRecord (prev : RunDelegation) (externalId url phase : Option String) :
    RunDelegation :=
  let next :=
    { prev with
      status := RunDelegationStatus.running
      externalId := externalId.or prev.externalId
      url := url.or prev.url
      phase := phase.or prev.phase }
  if next = prev then prev
  else
    { next with
      attempts :=
        if truthy externalId then
          withLastAttempt (fun attempt => { attempt with externalId := externalId })
            next.attempts
        else next.attempts }

def applyDelegationRunning (step : PipelineStep)
    (externalId url phase : Option String) : PipelineStep :=
  { step with
    delegated := step.delegated.map fun prev =>
      runningRecord prev externalId url phase }

def applyContainerRunning (step : PipelineStep) (update : RunningUpdate) :
    PipelineStep :=
  let prev := step.container
  { step with
    container := some
      { status := RunContainerStatus.up
        phase := update.phase.or (prev.bind RunContainer.phase)
        id := update.containerId.or (prev.bind RunContainer.id)
        url := update.containerUrl.or (prev.bind RunContainer.url) } }

/-- Fold a running poll of job `jobId` onto the live record of the job in
flight; a step whose job has changed meanwhile is left alone. -/
def applyRunningFold (step : PipelineStep) (jobId : String)
    (update : RunningUpdate) : PipelineStep :=
  if step.jobId = some jobId then
    match inFlightDelegation step with
    | some _ =>
        applyDelegationRunning step (truthyOr update.delegatedExternalId none)
          (truthyOr update.delegatedUrl none) (truthyOr update.phase none)
    | none => applyContainerRunning step update
  else step

/-- A settled poll, in either disposition. -/
inductive SettledUpdate where
  | done (usageReported : Bool) (url branch : Option String)
  | failed (error : String) (usageReported : Bool) (url : Option String)
deriving DecidableEq

def SettledUpdate.settlement : SettledUpdate -> Settlement
  | done usageReported url branch =>
      { status := RunDelegationStatus.done
        usageReported := some usageReported
        url := url
        branch := branch }
  | failed error usageReported url =>
      { status := RunDelegationStatus.failed
        outcome := some error
        usageReported := some usageReported
        url := url }

def settleDelegatedJob (step : PipelineStep) (update : SettledUpdate) :
    PipelineStep :=
  match inFlightDelegation step with
  | none => step
  | some _ => settleDelegation step update.settlement

/-!
## Teardown
-/

structure CancelReport where
  correlationKey : String
  cancelled : Bool
  note : Option String := none
deriving DecidableEq

def RunDelegationStatus.live : RunDelegationStatus -> Bool
  | starting => true
  | running => true
  | done => false
  | failed => false
  | cancelled => false

/-- How a teardown settles a live record.  A handle the executor said nothing
about counts as not cancelled; of two reports on one key the later one
counts. -/
def cancelSettlement (record : RunDelegation) (report : List CancelReport) :
    Settlement :=
  let outcome :=
    (report.filter (fun entry => entry.correlationKey = record.correlationKey)).getLast?
  let cancelled := (outcome.map CancelReport.cancelled).getD false
  { status := RunDelegationStatus.cancelled
    outcome := some
      (if cancelled then "cancelled"
      else "cancel requested; the external run may still be running")
    note := (outcome.bind CancelReport.note).or
      (if cancelled then none
      else
        some ("This run was stopped, but \"" ++ record.executor ++
          "\" could not stop the external work. " ++
          "It may still be running, and opening a pull request; " ++
          "stop it there if that matters.")) }

def cancelDelegation (report : List CancelReport) (step : PipelineStep) :
    PipelineStep :=
  match step.delegated with
  | none => step
  | some record =>
      if record.status.live then settleDelegation step (cancelSettlement record report)
      else step

end Execution
end CatFactory
