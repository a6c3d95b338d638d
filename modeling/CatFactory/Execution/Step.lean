import CatFactory.Foundation.CodeUnits
import Mathlib.Algebra.Order.Ring.Unbundled.Rat
import Mathlib.Algebra.Ring.Rat
import Mathlib.Data.Rat.Defs

/-!
# The steps of a run

A run is a chain of steps with a cursor.  This module holds the persisted step
record and the run record around it, with the fields that the modelled
functions read, write or clear.  Instants are epoch milliseconds.  An optional
or nullable field is an `Option`, and an optional array is a list, empty when
absent, wherever the source reads it with a default.
-/

namespace CatFactory
namespace Execution

open Foundation

/-- A JSON value that is stored, copied or dropped without being looked into. -/
structure Payload where
  json : String
deriving DecidableEq

inductive AgentState where
  | pending
  | working
  | waitingDecision
  | done
deriving DecidableEq

/-!
## What the pipeline defines on a step
-/

inductive OnMissingEstimate where
  | run
  | skip
deriving DecidableEq

/-- A step that runs only when the task's estimate reaches one of the bars. -/
structure StepGating where
  enabled : Bool
  minComplexity : Option Rat := none
  minRisk : Option Rat := none
  minImpact : Option Rat := none
  onMissingEstimate : OnMissingEstimate := OnMissingEstimate.run
deriving DecidableEq

/-- The quality companion of a tester step: its configuration and its loop. -/
structure TesterQualityStepState where
  enabled : Bool
  attempts : Nat := 0
  maxAttempts : Nat
  gating : Option StepGating := none
  verdicts : List Payload := []
  exceeded : Option Bool := none
deriving DecidableEq

/-- The per-step options bag of the pipeline builder. -/
structure StepOptions where
  autoRecommend : Option Bool := none
  skillId : Option String := none
  maxOutputTokens : Option Nat := none
  agentVariantId : Option String := none
  binaryOutput : Option Payload := none
  retainEnvironment : Option Bool := none
  deployFix : Option Payload := none
  environmentInvestigation : Option Payload := none
  gateConfig : Option Payload := none
  condition : Option Payload := none
deriving DecidableEq

/-!
## What an attempt leaves on a step
-/

inductive StepApprovalStatus where
  | pending
  | approved
  | rejected
  | changesRequested
deriving DecidableEq

structure StepApproval where
  id : String
  status : StepApprovalStatus
  proposal : String
deriving DecidableEq

structure CompanionState where
  threshold : Rat
  maxAttempts : Nat
  attempts : Nat := 0
  verdicts : List Payload := []
  exceeded : Option Bool := none
  capSettledByPolicy : Option Bool := none
  stalled : Option Bool := none
deriving DecidableEq

inductive ReworkRequester where
  | human
  | reviewer
deriving DecidableEq

structure Rework where
  previousProposal : String
  feedback : String
  comments : Option Payload := none
  requestedBy : ReworkRequester
deriving DecidableEq

inductive RalphPhase where
  | iterating
deriving DecidableEq

/-- One recorded iteration of a `ralph` loop. -/
structure RalphAttempt where
  attempt : Nat
  occurredAt : Nat
  validationPassed : Bool
  exitCode : Option Int := none
  outputTail : Option String := none
  summary : Option String := none
  headSha : Option String := none
deriving DecidableEq

/-- The retry-until-done loop of a `ralph` step. -/
structure RalphStepState where
  phase : RalphPhase := RalphPhase.iterating
  attempts : Nat
  maxIterations : Nat
  validationCommand : String
  progressPath : Option String := none
  lastExitCode : Option Int := none
  lastValidationTail : Option String := none
  noProgressStreak : Option Nat := none
  attemptLog : List RalphAttempt := []
  droppedAttempts : Option Nat := none
deriving DecidableEq

inductive DeployFixPhase where
  | fixing
  | retrying
deriving DecidableEq

structure DeployFixState where
  phase : DeployFixPhase
  attempts : Nat
  maxAttempts : Nat
  frameId : String
  reason : String
  lastError : String
  cycle : Option Nat := none
  attemptLog : List Payload := []
  droppedAttempts : Option Nat := none
deriving DecidableEq

structure EnvironmentInvestigationState where
  attempts : Nat
  maxAttempts : Nat
  frameId : String
  environmentId : Option String := none
  waitExtensions : Option Nat := none
  cycle : Option Nat := none
  attemptLog : List Payload := []
  droppedAttempts : Option Nat := none
deriving DecidableEq

/-- How often a step dispatched jobs of one agent kind. -/
structure DispatchCount where
  agentKind : String
  count : Nat
deriving DecidableEq

/-- The tool servers of a dispatch, stamped with the kind that ran. -/
structure StepToolServers where
  agentKind : String
  wired : Payload
  unavailable : Payload
deriving DecidableEq

inductive RunContainerStatus where
  | starting
  | up
  | errored
  | destroyed
deriving DecidableEq

structure RunContainer where
  status : RunContainerStatus
  phase : Option String := none
  id : Option String := none
  url : Option String := none
deriving DecidableEq

/-!
## Work that runs in another system
-/

inductive RunDelegationStatus where
  | starting
  | running
  | done
  | failed
  | cancelled
deriving DecidableEq

structure RunDelegationAttempt where
  startedAt : Nat
  externalId : Option String := none
  url : Option String := none
  outcome : Option String := none
  usageReported : Option Bool := none
deriving DecidableEq

structure DelegationPoll where
  intervalMs : Nat
  maxDurationMs : Nat
deriving DecidableEq

structure DelegationBranches where
  base : String
  work : String
deriving DecidableEq

structure DelegationRepo where
  owner : String
  name : String
deriving DecidableEq

structure RunDelegation where
  executor : String
  status : RunDelegationStatus
  correlationKey : String
  poll : Option DelegationPoll := none
  externalId : Option String := none
  url : Option String := none
  phase : Option String := none
  branches : Option DelegationBranches := none
  repo : Option DelegationRepo := none
  branch : Option String := none
  attempts : List RunDelegationAttempt
  note : Option String := none
deriving DecidableEq

/-!
## The step and the run
-/

structure PipelineStep where
  agentKind : String
  state : AgentState
  progress : Rat := 0
  gate : Option Payload := none
  testerQuality : Option TesterQualityStepState := none
  subtasks : Option Payload := none
  container : Option RunContainer := none
  delegated : Option RunDelegation := none
  decision : Option Payload := none
  requiresApproval : Option Bool := none
  approval : Option StepApproval := none
  companion : Option CompanionState := none
  ralph : Option RalphStepState := none
  reproduction : Option Payload := none
  rework : Option Rework := none
  gating : Option StepGating := none
  stepOptions : Option StepOptions := none
  output : Option Utf16 := none
  custom : Option Payload := none
  model : Option String := none
  subscriptionTokenId : Option String := none
  initiatedByUserId : Option String := none
  selectedFragmentIds : Option (List String) := none
  toolServers : Option StepToolServers := none
  jobId : Option String := none
  startedAt : Option Nat := none
  finishedAt : Option Nat := none
  firstStartedAt : Option Nat := none
  attempts : Option Nat := none
  dispatches : List DispatchCount := []
  lastActivityAt : Option Nat := none
  pausedAt : Option Nat := none
  delegatedRetries : Option Nat := none
  deployProvisioning : Option Payload := none
  deployEnvs : Option Payload := none
  deployFrameId : Option String := none
  deployPrimaryFrameId : Option String := none
  deployWait : Option Payload := none
  deployFix : Option DeployFixState := none
  environmentInvestigation : Option EnvironmentInvestigationState := none
deriving DecidableEq

inductive ExecutionStatus where
  | running
  | blocked
  | done
  | paused
  | failed
deriving DecidableEq

structure AgentFailure where
  kind : String
  message : String
  detail : Option String
  hint : Option String
  reason : Option String := none
  occurredAt : Nat
  lastSubtasks : Option Payload
  stepIndex : Option Nat := none
deriving DecidableEq

structure PriorStepOutput where
  stepIndex : Nat
  occurredAt : Nat
  output : Utf16
  truncated : Option Bool := none
deriving DecidableEq

structure ExecutionInstance where
  id : String
  blockId : String
  pipelineId : String
  pipelineName : String
  steps : List PipelineStep
  currentStep : Nat
  status : ExecutionStatus
  failure : Option AgentFailure := none
  failureHistory : List AgentFailure := []
  outputHistory : List PriorStepOutput := []
  initiatedBy : Option String := none
  initiatedByRole : Option String := none
  initiatedByExternalIdentity : Option String := none
  mode : Option String := none
  intakeOrigin : Option String := none
  rev : Nat := 0
deriving DecidableEq

/-- JavaScript's truth value of an optional text: absent and empty are false. -/
def truthy (text : Option String) : Bool :=
  match text with
  | none => false
  | some t => t ≠ ""

/-- `next ? next : prev` of two optional texts. -/
def truthyOr (next prev : Option String) : Option String :=
  if truthy next then next else prev

end Execution
end CatFactory
