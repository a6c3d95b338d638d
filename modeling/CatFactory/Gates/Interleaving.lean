import CatFactory.Foundation.Runs
import CatFactory.Gates.HumanDecisions

/-!
# Decisions, stops and the driver in any order

Every interleaving of what people decide, of a stop, and of the driver, each one
an atomic write to the stored run.  The handlers each carry their own list of
refused states, and the lists have gaps; `fallsThrough` names the inputs that
reach one.
-/

namespace CatFactory
namespace Gates

open Execution (AgentState ExecutionStatus StepApprovalStatus)
open Foundation Reviews

/-!
## The driver
-/

/-- What a step parks on. -/
inductive ParkKind where
  | approvalGate
  | companionCap
  | judgeVerdict (state : JudgeStepState)
  | reviewFindings (review : PrReviewStepState)
  | other
deriving DecidableEq

inductive DriverMove where
  | dispatch
  | askDecision (decisionId : String)
  | park (approvalId proposal : String) (kind : ParkKind)
  | settle
  | loopBack (fromIndex : Nat) (rework : Rework)
  | recordReview (review : PrReviewStepState) (jobs : List PrReviewChallengeJob)
  | pause
  | resume
deriving DecidableEq

/-- What the step carries beside the pending approval while it is parked. -/
def preparePark (kind : ParkKind) (step : Step) : Step :=
  match kind with
  | .approvalGate => step
  | .companionCap =>
      { step with companion := step.companion.map fun c => { c with exceeded := true } }
  | .judgeVerdict state => { step with judge := some state }
  | .reviewFindings review => { step with prReview := some review }
  | .other => step

def parkStep (now : Nat) (approvalId proposal : String) (kind : ParkKind) (step : Step) :
    Step :=
  match kind with
  | .approvalGate =>
      pauseStepForInput now
        { step with approval := some (buildStepApproval step approvalId proposal) }
  | kind => openDecisionPark now approvalId proposal (preparePark kind step)

/-- The driver works on a running run, and resumes a paused one. -/
def driverHolds (run : Run) : DriverMove -> Bool
  | .resume => run.status = ExecutionStatus.paused
  | _ =>
      run.status = ExecutionStatus.running && run.currentStep < run.steps.length

def driverWrite (now : Nat) (run : Run) : DriverMove -> Option Run
  | .dispatch =>
      some { run with steps := run.steps.modify run.currentStep (startStep now) }
  | .askDecision decisionId =>
      -- a step whose question was answered asks no second one
      if run.steps[run.currentStep]?.any fun step =>
          (step.decision.bind StepDecision.chosen).isSome then none
      else
        some { run with
          steps := run.steps.modify run.currentStep fun step =>
            pauseStepForInput now { step with decision := some { id := decisionId } }
          status := ExecutionStatus.blocked }
  | .park approvalId proposal kind =>
      some { run with
        steps := run.steps.modify run.currentStep (parkStep now approvalId proposal kind)
        status := ExecutionStatus.blocked }
  | .settle => some (advanceRunPastGate now run.currentStep run)
  | .loopBack fromIndex rework =>
      if fromIndex ≤ run.currentStep then
        some (rerunProducerThrough now fromIndex run.currentStep rework run)
      else none
  | .recordReview review jobs =>
      some { run with
        steps := run.steps.modify run.currentStep fun step =>
          { step with prReview := some review, challengeJobs := jobs } }
  | .pause => some { run with status := ExecutionStatus.paused }
  | .resume => some { run with status := ExecutionStatus.running }

/-- One atomic write of the driver. -/
def driverAct (now : Nat) (run : Run) (move : DriverMove) : Option Run :=
  if driverHolds run move then driverWrite now run move else none

/-!
## Actions
-/

inductive Action where
  | resolveDecision (now : Nat) (decisionId choice : String)
  | approveStep (now : Nat) (approvalId : String) (proposal : Option String)
      (actor : GateActor)
  | requestStepChanges (now : Nat) (approvalId : String) (review : StepReview)
      (actor : GateActor)
  | rejectStep (approvalId : String) (reason : Option String) (actor : GateActor)
  | resolveCompanionExceeded (now : Nat) (approvalId : String)
      (choice : IterationCapChoice)
  | resolvePrReview (now : Nat) (action : PrReviewResolution) (findingIds : List String)
  | challengeFinding (now : Nat) (findingId : String) (question : Option String)
  | dismissFinding (findingId : String)
  | resolveJudge (now : Nat) (choice : JudgeChoice) (feedback : Option String)
      (rework : Rework)
  | stopRun
  | failRun
  | driver (now : Nat) (move : DriverMove)
deriving DecidableEq

def notRunning : DecisionError := .thrown "the driver holds no running run"

def handle (registry : Registry) (run : Run) : Action -> Except DecisionError Run
  | .resolveDecision now decisionId choice => resolveDecision now decisionId choice run
  | .approveStep now approvalId proposal actor =>
      approveStep registry now run.id approvalId proposal actor run
  | .requestStepChanges now approvalId review actor =>
      requestStepChanges registry now approvalId review actor run
  | .rejectStep approvalId reason actor => rejectStep registry approvalId reason actor run
  | .resolveCompanionExceeded now approvalId choice =>
      resolveCompanionExceeded registry now approvalId choice run
  | .resolvePrReview now action findingIds => resolvePrReview now action findingIds run
  | .challengeFinding now findingId question =>
      challengeFinding now findingId question run
  | .dismissFinding findingId => dismissParkedFinding findingId run
  | .resolveJudge now choice feedback rework =>
      resolveJudge registry now choice feedback rework run
  | .stopRun => .ok (failRun run)
  | .failRun => .ok (failRun run)
  | .driver now move =>
      match driverAct now run move with
      | none => .error notRunning
      | some run => .ok run

/-- The run after the action; a refused one leaves it as it was. -/
def apply (registry : Registry) (run : Run) (a : Action) : Run :=
  match handle registry run a with
  | .ok run' => run'
  | .error _ => run

def parkedJudge (run : Run) : Option Step :=
  (run.steps.findIdx? isParkedJudge).bind fun i => run.steps[i]?

/-- The approval that a decision is about. -/
def actsOn (run : Run) : Action -> Option String
  | .approveStep _ approvalId _ _ => some approvalId
  | .requestStepChanges _ approvalId _ _ => some approvalId
  | .rejectStep approvalId _ _ => some approvalId
  | .resolveCompanionExceeded _ approvalId _ => some approvalId
  | .resolvePrReview _ _ _ => (findParkedReview run).map fun found => found.2.2.1.id
  | .challengeFinding _ _ _ =>
      if run.steps.any isChallengingReview then none
      else (findParkedReview run).map fun found => found.2.2.1.id
  | .resolveJudge _ _ _ _ =>
      (parkedJudge run).bind fun step => step.approval.map StepApproval.id
  | _ => none

/-- The approval that the driver mints in this step. -/
def mints : Action -> Option String
  | .driver _ (.park approvalId _ _) => some approvalId
  | _ => none

/-- Where a run stands: its status, its cursor, and which steps run, wait or are
over since when. -/
def progressOf (run : Run) :
    ExecutionStatus × Nat × List (AgentState × Option Nat × Option Nat) :=
  (run.status, run.currentStep,
    run.steps.map fun step => (step.state, step.startedAt, step.finishedAt))

/-- A run, the approvals minted in it, and those that a decision resolved: it
moved the cursor, started or finished a step, or ended the run. -/
structure History where
  run : Run
  minted : List String := []
  resolved : List String := []
deriving DecidableEq

def resolves (run run' : Run) (a : Action) : List String :=
  if progressOf run' = progressOf run then [] else (actsOn run a).toList

/-- One action on the stored run; the id generator mints each id once. -/
def act (registry : Registry) (s : History) (a : Action) : Option History :=
  if (mints a).any fun id => s.minted.contains id then none
  else
    let run' := apply registry s.run a
    some
      { run := run'
        minted := (mints a).toList ++ s.minted
        resolved := resolves s.run run' a ++ s.resolved }

/-!
## The gaps
-/

/-- Neither another surface nor the approver policy keeps the actor out. -/
def mayResolve (registry : Registry) (run : Run) (step : Step) (approval : StepApproval)
    (actor : GateActor) : Bool :=
  dedicatedParkSurface registry run step = none &&
    refuseGateResolution approval.approverPolicy actor = none

def challengeable (review : PrReviewStepState) (findingId : String) : Bool :=
  (review.findings.find? fun f => f.id = findingId).any fun target =>
    !isRetracted target && !isChallengeInFlight target.challenge

/-- The decision reaches a gate whose step no longer waits for it, or a run that
is over. -/
def fallsThrough (registry : Registry) (run : Run) : Action -> Bool
  | .resolveDecision _ decisionId _ =>
      isSettled run &&
        run.steps.any fun s => s.decision.map StepDecision.id = some decisionId
  | .approveStep now approvalId proposal actor =>
      match gateOf run approvalId with
      | none => false
      | some (_, step, approval) =>
          mayResolve registry run step approval actor && !isSettled run &&
            approval.status ≠ .approved && approval.status ≠ .rejected &&
            (foldGateApproval approval actor now).2 &&
            !(proposal.isSome && step.outputIsRendered) && !stepAwaitsDecision step
  | .requestStepChanges _ approvalId _ actor =>
      match gateOf run approvalId with
      | none => false
      | some (_, step, approval) =>
          mayResolve registry run step approval actor && approval.status = .pending &&
            (isSettled run || !stepAwaitsDecision step)
  | .rejectStep approvalId _ actor =>
      match gateOf run approvalId with
      | none => false
      | some (_, step, approval) =>
          mayResolve registry run step approval actor && approval.status = .pending &&
            !isSettled run && !stepAwaitsDecision step
  | .resolveCompanionExceeded _ approvalId choice =>
      match gateOf run approvalId with
      | none => false
      | some (i, step, approval) =>
          step.companion.any Companion.exceeded && approval.status ≠ .approved &&
            (choice = .proceed || (companionProducerIndex registry run i).isSome) &&
            (isSettled run || !stepAwaitsDecision step)
  | .resolvePrReview _ action findingIds =>
      match findParkedReview run with
      | none => false
      | some (_, _, _, review) =>
          isSettled run && (action = .finish || selectable review findingIds ≠ [])
  | .challengeFinding _ findingId _ =>
      match findParkedReview run with
      | none => false
      | some (_, _, _, review) =>
          isSettled run && !run.steps.any isChallengingReview &&
            challengeable review findingId
  | .resolveJudge _ choice _ _ =>
      match (run.steps.findIdx? isParkedJudge).bind fun i =>
          run.steps[i]?.map fun step => (i, step) with
      | none => false
      | some (i, step) =>
          match registry.judgeFor step.agentKind with
          | none => false
          | some judge =>
              isSettled run && choice ≠ .stop &&
                (choice = .proceed || (bounceTargetIndex judge run.steps i).isSome)
  | _ => false

/-- The action falls into none of the gaps. -/
def InOrder (registry : Registry) (s : History) (a : Action) : Prop :=
  fallsThrough registry s.run a = false

end Gates
end CatFactory
