import CatFactory.Execution.Step
import CatFactory.Foundation.KeyedFold

/-!
# The parents of a run's trace

A settled run is told to the trace as one root span and one span for each agent
kind that ran: the kinds of its steps, and the helpers the steps dispatched.
The spans are folded from the stamps that the run itself recorded.
-/

namespace CatFactory
namespace Observability

open Foundation
open Execution (ExecutionStatus)

/-!
## The run
-/

structure StepDispatch where
  agentKind : String
  count : Int
deriving DecidableEq

/-- What the trace reads of a step; the wire schema takes no empty kind. -/
structure PipelineStep where
  agentKind : String
  firstStartedAt : Option Int := none
  startedAt : Option Int := none
  finishedAt : Option Int := none
  lastActivityAt : Option Int := none
  attempts : Option Int := none
  dispatches : List StepDispatch := []
  kind_nonempty : agentKind ≠ ""

structure RunFailure where
  message : String
  occurredAt : Int
  stepIndex : Option Int := none
deriving DecidableEq

structure ExecutionInstance where
  id : String
  pipelineName : String
  status : ExecutionStatus
  createdAt : Option Int := none
  failure : Option RunFailure := none
  steps : List PipelineStep

/-!
## The spans
-/

structure LlmRunSpan where
  workspaceId : Option String
  executionId : String
  pipelineName : String
  startedAt : Int
  endedAt : Int
  ok : Bool
  errorMessage : Option String
deriving DecidableEq

structure LlmStepSpan where
  workspaceId : Option String
  executionId : String
  agentKind : String
  parentAgentKind : Option String
  startedAt : Int
  endedAt : Int
  stepCount : Nat
  attemptCount : Int
  ok : Bool
  errorMessage : Option String
deriving DecidableEq

structure RunTraceSpans where
  run : LlmRunSpan
  steps : List LlmStepSpan
deriving DecidableEq

/-- One agent kind's slice, over every step that ran it. -/
structure StepFold where
  startedAt : Int
  endedAt : Int
  stepCount : Nat
  attemptCount : Int
  failed : Bool
  parentAgentKind : Option String
deriving DecidableEq

/-- When a step actually began: its first attempt, where that is recorded. -/
def stepStartedAt (step : PipelineStep) : Option Int :=
  step.firstStartedAt.or step.startedAt

def stepStamps (step : PipelineStep) : List Int :=
  (stepStartedAt step).toList ++ step.finishedAt.toList ++ step.lastActivityAt.toList

def observedStamps (execution : ExecutionInstance) : List Int :=
  execution.steps.flatMap stepStamps ++ (execution.failure.map RunFailure.occurredAt).toList

/-- `step.dispatches?.find((d) => d.agentKind === agentKind)?.count`, when it is not zero -/
def dispatchCount (step : PipelineStep) (agentKind : String) : Int :=
  match step.dispatches.find? fun dispatch => dispatch.agentKind = agentKind with
  | some dispatch =>
      if dispatch.count = 0 then inlineCount else dispatch.count
  | none => inlineCount
where
  inlineCount : Int :=
    if agentKind = step.agentKind then step.attempts.getD 1 else 1

/-- The kinds a step dispatched besides its own. -/
def helpersOf (step : PipelineStep) : List String :=
  (step.dispatches.map StepDispatch.agentKind).filter fun kind => kind ≠ step.agentKind

def kindsOf (step : PipelineStep) : List (String × Option String) :=
  (step.agentKind, none) :: (helpersOf step).map fun kind => (kind, some step.agentKind)

/-- What a started step says of one of its kinds. -/
structure Mention where
  agentKind : String
  parentAgentKind : Option String
  startedAt : Int
  endedAt : Int
  attempts : Int
  failed : Bool
deriving DecidableEq

/-- `Math.min(runEndedAt, step.finishedAt ?? runEndedAt)` -/
def stepEndedAt (runEndedAt : Int) (step : PipelineStep) : Int :=
  min runEndedAt (step.finishedAt.getD runEndedAt)

def mentionOf (runEndedAt : Int) (failedStepIndex : Option Int) (indexed : PipelineStep × Nat)
    (startedAt : Int) (kind : String × Option String) : Mention :=
  { agentKind := kind.1
    parentAgentKind := kind.2
    startedAt := startedAt
    endedAt := stepEndedAt runEndedAt indexed.1
    attempts := dispatchCount indexed.1 kind.1
    failed := failedStepIndex = some (indexed.2 : Int) }

def mentionsOf (runEndedAt : Int) (failedStepIndex : Option Int) (indexed : PipelineStep × Nat) :
    List Mention :=
  match stepStartedAt indexed.1 with
  | none => []
  | some startedAt =>
      (kindsOf indexed.1).map (mentionOf runEndedAt failedStepIndex indexed startedAt)

/-- What `folds.set` stores: the first mention decides the parent, the window only widens. -/
def foldMention (mention : Mention) (existing : Option StepFold) : StepFold :=
  match existing with
  | none =>
      { startedAt := mention.startedAt
        endedAt := mention.endedAt
        stepCount := 1
        attemptCount := mention.attempts
        failed := mention.failed
        parentAgentKind := mention.parentAgentKind }
  | some existing =>
      { startedAt := min existing.startedAt mention.startedAt
        endedAt := max existing.endedAt mention.endedAt
        stepCount := existing.stepCount + 1
        attemptCount := existing.attemptCount + mention.attempts
        failed := existing.failed || mention.failed
        parentAgentKind := existing.parentAgentKind }

section Build

variable (execution : ExecutionInstance)

/-- `instance.createdAt ?? (started.length > 0 ? Math.min(...started) : null)` -/
def runStartedAt : Option Int :=
  execution.createdAt.or (execution.steps.filterMap stepStartedAt).min?

/-- `Math.max(runStartedAt, ...observedStamps(instance))` -/
def runEndedAt (startedAt : Int) : Int :=
  (observedStamps execution).foldl max startedAt

def succeeded : Bool :=
  execution.status = .done

def failedStepIndex : Option Int :=
  if succeeded execution then none else execution.failure.bind RunFailure.stepIndex

/-- Every step's kinds, in list order. -/
def mentions (runEndedAt : Int) : List Mention :=
  execution.steps.zipIdx.flatMap (mentionsOf runEndedAt (failedStepIndex execution))

def toStepSpan (workspaceId : Option String) (row : String × StepFold) : LlmStepSpan :=
  { workspaceId := workspaceId
    executionId := execution.id
    agentKind := row.1
    parentAgentKind := row.2.parentAgentKind.filter fun parent => parent ≠ ""
    startedAt := row.2.startedAt
    endedAt := max row.2.startedAt row.2.endedAt
    stepCount := row.2.stepCount
    attemptCount := row.2.attemptCount
    ok := !row.2.failed
    errorMessage := if row.2.failed then execution.failure.map RunFailure.message else none }

/-- The spans of a run with this start. -/
def traceSpans (workspaceId : Option String) (startedAt : Int) : RunTraceSpans :=
  { run :=
      { workspaceId := workspaceId
        executionId := execution.id
        pipelineName := execution.pipelineName
        startedAt := startedAt
        endedAt := runEndedAt execution startedAt
        ok := succeeded execution
        errorMessage :=
          if succeeded execution then none else execution.failure.map RunFailure.message }
    steps :=
      (foldByKey Mention.agentKind foldMention
        (mentions execution (runEndedAt execution startedAt))).map
          (toStepSpan execution workspaceId) }

/-- Null when the run has no observable extent. -/
def buildRunTraceSpans (workspaceId : Option String) : Option RunTraceSpans :=
  (runStartedAt execution).map (traceSpans execution workspaceId)

end Build

end Observability
end CatFactory
