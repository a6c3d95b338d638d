import CatFactory.Execution.StepGraph
import CatFactory.Reviews.PrReview

/-!
# Steps that wait for people

The step record of a run once more, with the parts that people decide on
spelled out: the approval and who may give it, the companion's verdicts, the
judge, the review and its challenge queue.  `stored` forgets what the plain
record keeps opaque.
-/

namespace CatFactory
namespace Gates

open Foundation (stringUnits)
open Execution (AgentState ExecutionStatus StepApprovalStatus ReworkRequester Payload)
open Reviews

/-!
## Approvals
-/

inductive WorkspaceRole where
  | admin
  | member
  | viewer
deriving DecidableEq

structure GateApproverPolicy where
  roles : List WorkspaceRole := []
  userIds : List String := []
deriving DecidableEq

structure GateApprovalRecord where
  actorId : String
  actorLabel : Option String := none
  recordedAt : Nat
deriving DecidableEq

inductive ActorKind where
  | user
  | apiKey
  | unattributed
deriving DecidableEq

structure GateActor where
  id : String
  kind : ActorKind
  role : Option WorkspaceRole := none
  label : Option String := none
deriving DecidableEq

inductive ReviewCommentSeverity where
  | blocker
  | major
  | minor
deriving DecidableEq

structure StepReviewComment where
  quotedSource : Option String := none
  anchorId : Option String := none
  severity : Option ReviewCommentSeverity := none
  body : String
deriving DecidableEq

structure StepApproval where
  id : String
  status : StepApprovalStatus
  proposal : String
  feedback : Option String := none
  comments : List StepReviewComment := []
  requiredApprovals : Option Nat := none
  approverPolicy : Option GateApproverPolicy := none
  approvals : List GateApprovalRecord := []
deriving DecidableEq

/-!
## Companions, judges and questions
-/

structure CompanionVerdict where
  rating : Rat
  threshold : Rat
  passed : Bool
  feedback : String
  comments : List StepReviewComment := []
deriving DecidableEq

structure Companion where
  threshold : Rat
  maxAttempts : Nat
  attempts : Nat := 0
  verdicts : List CompanionVerdict := []
  exceeded : Bool := false
  stalled : Bool := false
  capSettledByPolicy : Bool := false
deriving DecidableEq

structure Rework where
  previousProposal : String
  feedback : String
  comments : List StepReviewComment := []
  requestedBy : ReworkRequester
deriving DecidableEq

inductive JudgeStatus where
  | evaluating
  | awaitingDecision
  | bouncing
  | passed
  | failed
  | skipped
deriving DecidableEq

inductive JudgeDisposition where
  | pass
  | park
  | bounce
  | fail
deriving DecidableEq

inductive JudgeChoice where
  | proceed
  | bounce
  | stop
deriving DecidableEq

structure JudgeResolution where
  choice : JudgeChoice
  feedback : Option String := none
  recordedAt : Nat
deriving DecidableEq

inductive JudgeFindingSeverity where
  | low
  | medium
  | high
  | critical
deriving DecidableEq

structure JudgeFinding where
  title : String
  detail : Option String := none
  severity : JudgeFindingSeverity
  place : Option String := none
deriving DecidableEq

structure JudgeVerdict where
  score : Rat
  summary : String
  findings : List JudgeFinding := []
deriving DecidableEq

inductive JudgeModelPinStatus where
  | applied
  | overridden
  | unavailable
deriving DecidableEq

structure JudgeModelPin where
  requested : String
  status : JudgeModelPinStatus
deriving DecidableEq

/-- One settled round: the verdict and what was done with it. -/
structure JudgeRound where
  round : Nat
  recordedAt : Nat
  verdict : JudgeVerdict
  disposition : JudgeDisposition
  model : Option String := none
deriving DecidableEq

def DEFAULT_JUDGE_MAX_BOUNCES : Nat := 1

structure JudgeStepState where
  status : JudgeStatus
  rubricId : Option String := none
  rubricName : Option String := none
  rubricOverridden : Bool := false
  verdict : Option JudgeVerdict := none
  threshold : Option Rat := none
  disposition : Option JudgeDisposition := none
  bounces : Nat := 0
  maxBounces : Nat := DEFAULT_JUDGE_MAX_BOUNCES
  model : Option String := none
  modelPin : Option JudgeModelPin := none
  rounds : List JudgeRound := []
  note : Option String := none
  capSettledByPolicy : Bool := false
  resolution : Option JudgeResolution := none
deriving DecidableEq

structure StepDecision where
  id : String
  chosen : Option String := none
deriving DecidableEq

inductive ForkDecisionStatus where
  | proposing
  | awaitingChoice
  | answering
  | chosen
  | singlePath
  | skipped
deriving DecidableEq

inductive FollowUpItemKind where
  | followUp
  | question
deriving DecidableEq

inductive FollowUpItemStatus where
  | pending
  | filed
  | queued
  | answered
  | closed
  | dismissed
deriving DecidableEq

structure FollowUpItem where
  id : String
  kind : FollowUpItemKind
  title : String
  detail : String := ""
  suggestedAction : Option String := none
  status : FollowUpItemStatus := .pending
  answer : Option String := none
  sentToCoder : Bool := false
  dismissedByPolicy : Bool := false
  sendBackDropped : Bool := false
  ticketExternalId : Option String := none
  ticketUrl : Option String := none
  createdAt : Nat := 0
  updatedAt : Nat := 0
deriving DecidableEq

/-- The follow-ups of a step: are they on, what surfaced, and the send-backs made
and allowed. -/
structure FollowUps where
  enabled : Bool
  items : List FollowUpItem := []
  loops : Option Nat := none
  maxLoops : Option Nat := none
deriving DecidableEq

def FollowUps.anyPending (state : FollowUps) : Bool :=
  state.items.any fun item => item.status = .pending

/-!
## The step and the run
-/

structure Step where
  agentKind : String
  state : AgentState
  progress : Rat := 0
  output : Option String := none
  outputIsRendered : Bool := false
  jobId : Option String := none
  startedAt : Option Nat := none
  finishedAt : Option Nat := none
  firstStartedAt : Option Nat := none
  pausedAt : Option Nat := none
  attempts : Option Nat := none
  decision : Option StepDecision := none
  requiresApproval : Bool := false
  gateApprovers : Option GateApproverPolicy := none
  minApprovals : Option Nat := none
  approval : Option StepApproval := none
  companion : Option Companion := none
  rework : Option Rework := none
  judge : Option JudgeStepState := none
  prReview : Option PrReviewStepState := none
  challengeJobs : List PrReviewChallengeJob := []
  pendingPrReviewPost : Bool := false
  credentialWait : Bool := false
  followUps : Option FollowUps := none
  forkDecision : Option ForkDecisionStatus := none
  binaryCandidatesAwaitChoice : Bool := false
deriving DecidableEq

structure Run where
  id : String
  steps : List Step
  currentStep : Nat := 0
  status : ExecutionStatus := ExecutionStatus.running
  inputGateBlocked : Bool := false
deriving DecidableEq

def isSettled (run : Run) : Bool :=
  run.status = ExecutionStatus.failed || run.status = ExecutionStatus.done

/-- `if (instance.status === 'blocked') instance.status = 'running'`. -/
def unblock (status : ExecutionStatus) : ExecutionStatus :=
  if status = ExecutionStatus.blocked then ExecutionStatus.running else status

/-!
## What is registered about the step kinds
-/

structure JudgeDefinition where
  rubricName : String
  bounceTargets : List String := []
deriving DecidableEq

/-- The registries the engine was built with. -/
structure Registry where
  isCompanionKind : String -> Bool
  companionTargets : String -> List String
  hasInterviewGate : String -> Bool
  deliverableIsReply : String -> Bool
  judgeFor : String -> Option JudgeDefinition

/-!
## One step
-/

def startStep (now : Nat) (step : Step) : Step :=
  match step.startedAt with
  | none =>
      { step with
        state := AgentState.working
        startedAt := some now
        firstStartedAt := some (step.firstStartedAt.getD now)
        attempts := some (step.attempts.getD 0 + 1)
        pausedAt := none }
  | some _ =>
      { step with
        state := AgentState.working
        pausedAt := none }

def finishStep (now : Nat) (step : Step) : Step :=
  { step with
    state := AgentState.done
    finishedAt := some (step.finishedAt.getD (step.pausedAt.getD now))
    pausedAt := none }

def pauseStepForInput (now : Nat) (step : Step) : Step :=
  { step with
    state := AgentState.waitingDecision
    pausedAt := some (step.pausedAt.getD now) }

/-- What a step keeps when it is run again: the record that it ran before, and
the states that carry a resolution over the reset. -/
def resetStepForRerun (step : Step) : Step :=
  { step with
    state := AgentState.pending
    startedAt := none
    finishedAt := none
    pausedAt := none
    jobId := none
    approval := none
    progress := 0
    output := none
    rework := none }

def openDecisionPark (now : Nat) (approvalId proposal : String) (step : Step) : Step :=
  pauseStepForInput now
    { step with
      approval := some
        { id := approvalId
          status := StepApprovalStatus.pending
          proposal := proposal } }

/-- The flags that say how a companion loop ended. -/
def rearmCompanion (step : Step) : Step :=
  { step with
    companion := step.companion.map fun companion =>
      { companion with exceeded := false, stalled := false, capSettledByPolicy := false } }

@[simp]
theorem startStep_state (now : Nat) (step : Step) :
    (startStep now step).state = AgentState.working := by
  unfold startStep
  cases step.startedAt with
  | none => rfl
  | some _ => rfl

@[simp]
theorem startStep_companion (now : Nat) (step : Step) :
    (startStep now step).companion = step.companion := by
  unfold startStep
  cases step.startedAt with
  | none => rfl
  | some _ => rfl

@[simp]
theorem startStep_agentKind (now : Nat) (step : Step) :
    (startStep now step).agentKind = step.agentKind := by
  unfold startStep
  cases step.startedAt with
  | none => rfl
  | some _ => rfl

@[simp]
theorem startStep_approval (now : Nat) (step : Step) :
    (startStep now step).approval = step.approval := by
  unfold startStep
  cases step.startedAt with
  | none => rfl
  | some _ => rfl

/-!
## Loop-backs
-/

/-- Reset the steps from one index through another. -/
def resetRange (fromIndex throughIndex : Nat) (steps : List Step) : List Step :=
  steps.mapIdx fun i step =>
    if fromIndex ≤ i ∧ i ≤ throughIndex then resetStepForRerun step else step

/-- Loop the producer back for rework and re-arm every step through the one that
graded it. -/
def rerunProducerThrough (now producerIndex companionIndex : Nat) (rework : Rework)
    (run : Run) : Run :=
  { run with
    steps :=
      ((resetRange producerIndex companionIndex run.steps).modify companionIndex
        rearmCompanion).modify producerIndex
          fun producer => startStep now { producer with rework := some rework }
    currentStep := producerIndex }

/-- Re-run every step of the range, with no feedback. -/
def rerunRange (now fromIndex throughIndex : Nat) (run : Run) : Run :=
  { run with
    steps := (resetRange fromIndex throughIndex run.steps).modify fromIndex (startStep now)
    currentStep := fromIndex }

/-- The nearest step before `index` that satisfies the predicate. -/
def nearestStepIndexBefore (p : Step -> Bool) (steps : List Step) : Nat -> Option Nat
  | 0 => none
  | index + 1 =>
      if steps[index]?.any p then some index else nearestStepIndexBefore p steps index

def companionProducerIndex (registry : Registry) (run : Run) (companionIndex : Nat) :
    Option Nat :=
  match run.steps[companionIndex]? with
  | none => none
  | some companion =>
      nearestStepIndexBefore
        (fun step => (registry.companionTargets companion.agentKind).contains step.agentKind)
        run.steps companionIndex

def chargeAttempt (step : Step) : Step :=
  { step with
    companion := step.companion.map fun companion =>
      { companion with attempts := companion.attempts + 1 } }

/-- Charge one attempt and run the producer again; a companion without a budget
or a producer is a thrown error. -/
def loopCompanionProducer (registry : Registry) (now companionIndex : Nat)
    (rework : Rework) (run : Run) : Option Run :=
  match run.steps[companionIndex]?.bind Step.companion,
    companionProducerIndex registry run companionIndex with
  | some _, some producerIndex =>
      let run :=
        rerunProducerThrough now producerIndex companionIndex rework
          { run with steps := run.steps.modify companionIndex chargeAttempt }
      some { run with status := unblock run.status }
  | _, _ => none

end Gates
end CatFactory
