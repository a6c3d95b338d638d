import CatFactory.Gates.Step

/-!
# What people decide on a run

The handlers behind the decision surfaces: answering a question, approving,
sending back and rejecting a proposal, the iteration cap of a companion, the
review window and the judge.  Each one is what a handler does to the stored run
in one compare-and-swap, or the error it answers with.
-/

namespace CatFactory
namespace Gates

open Execution (AgentState ExecutionStatus StepApprovalStatus ReworkRequester)
open Foundation Reviews

/-!
## Who owns a park
-/

inductive DedicatedParkSurface where
  | inputGate
  | credential
  | requirementsReview
  | clarityReview
  | brainstorm
  | humanTest
  | visualConfirmation
  | interview
  | companionCap
  | followUps
  | forkDecision
  | binaryCandidates
deriving DecidableEq

/-- The surface that alone may resolve this step's park. -/
def dedicatedParkSurface (registry : Registry) (run : Run) (step : Step) :
    Option DedicatedParkSurface :=
  if run.inputGateBlocked then some .inputGate
  else if step.credentialWait ∧
      step.approval.map StepApproval.status = some StepApprovalStatus.pending then
    some .credential
  else if step.agentKind = "requirements-review" then some .requirementsReview
  else if step.agentKind = "clarity-review" then some .clarityReview
  else if step.agentKind = "requirements-brainstorm" ∨
      step.agentKind = "architecture-brainstorm" then
    some .brainstorm
  else if step.agentKind = "human-test" then some .humanTest
  else if step.agentKind = "visual-confirmation" then some .visualConfirmation
  else if registry.hasInterviewGate step.agentKind then some .interview
  else if step.companion.any Companion.exceeded then some .companionCap
  else if step.followUps.any (fun f => f.enabled && f.anyPending) then some .followUps
  else if step.forkDecision = some .awaitingChoice ∨
      step.forkDecision = some .answering then
    some .forkDecision
  else if step.binaryCandidatesAwaitChoice then some .binaryCandidates
  else none

def WRONG_SURFACE_MESSAGES : DedicatedParkSurface -> String
  | .inputGate =>
      "Resolve this run's input check through its notice (fix the task and re-check, " ++
        "or proceed anyway), not the approval gate"
  | .credential =>
      "Resume this run by entering your personal password on its credential notice, " ++
        "not the approval gate"
  | .requirementsReview =>
      "Resolve the requirements review through its review window, not the approval gate"
  | .clarityReview =>
      "Resolve the clarity review through its review window, not the approval gate"
  | .brainstorm =>
      "Resolve the brainstorm through its brainstorm window, not the approval gate"
  | .humanTest =>
      "Resolve the human-testing gate through its window (confirm / request a fix), " ++
        "not the approval gate"
  | .visualConfirmation =>
      "Resolve the visual-confirmation gate through its window (approve / request a " ++
        "fix), not the approval gate"
  | .interview =>
      "Resolve the interview through its interview window, not the approval gate"
  | .companionCap =>
      "Resolve this companion review through its iteration-cap prompt, not the approval gate"
  | .binaryCandidates =>
      "Resolve this step through its candidate window (keep the generated candidates " ++
        "you want), not the approval gate"
  | .followUps =>
      "Resolve the follow-up companion through its window (file / send back / answer / " ++
        "dismiss), not the approval gate"
  | .forkDecision =>
      "Resolve the implementation-fork decision through its fork window (choose an " ++
        "approach), not the approval gate"

/-!
## Who may resolve a gate
-/

inductive GateApprovalRefusal where
  | notAGateApprover
  | gateApproverIdentityRequired
deriving DecidableEq

/-- A policy that names nobody is no policy. -/
def hasApproverPolicy (policy : Option GateApproverPolicy) : Bool :=
  policy.any fun p => !p.roles.isEmpty || !p.userIds.isEmpty

def refuseGateResolution (policy : Option GateApproverPolicy) (actor : GateActor) :
    Option GateApprovalRefusal :=
  if !hasApproverPolicy policy then none
  else if actor.kind ≠ ActorKind.user then some .gateApproverIdentityRequired
  else if actor.role = some WorkspaceRole.admin then none
  else if actor.role.any fun role => policy.any fun p => p.roles.contains role then none
  else if policy.any fun p => p.userIds.contains actor.id then none
  else some .notAGateApprover

def requiredGateApprovals (minApprovals : Option Nat) : Nat :=
  match minApprovals with
  | none => 1
  | some min => if 1 < min then min else 1

/-- Count one actor's approval; a second one by the same actor replaces the
first. -/
def foldGateApproval (approval : StepApproval) (actor : GateActor) (now : Nat) :
    List GateApprovalRecord × Bool :=
  let record :=
    { actorId := actor.id
      actorLabel := actor.label.filter fun label => label ≠ ""
      recordedAt := now }
  let approvals := (approval.approvals.filter fun a => a.actorId ≠ actor.id) ++ [record]
  (approvals, approval.requiredApprovals.getD 1 ≤ approvals.length)

/-- The pending approval of a step's own gate, with the policy the step was
configured with. -/
def buildStepApproval (step : Step) (approvalId proposal : String) : StepApproval :=
  { id := approvalId
    status := StepApprovalStatus.pending
    proposal := proposal
    requiredApprovals :=
      if 1 < requiredGateApprovals step.minApprovals then
        some (requiredGateApprovals step.minApprovals)
      else none
    approverPolicy :=
      if hasApproverPolicy step.gateApprovers then step.gateApprovers else none }

/-!
## Finding the gate
-/

inductive DecisionError where
  | notFound (entity id : String)
  | conflict (message : String)
  | forbidden (reason : GateApprovalRefusal)
  | validation (reason : String)
  | thrown (message : String)
deriving DecidableEq

def carriesApproval (approvalId : String) (step : Step) : Bool :=
  step.approval.map StepApproval.id = some approvalId

/-- The first step that carries the approval, with its index. -/
def gateOf (run : Run) (approvalId : String) : Option (Nat × Step × StepApproval) :=
  (run.steps.findIdx? (carriesApproval approvalId)).bind fun i =>
    run.steps[i]?.bind fun step => step.approval.map fun approval => (i, step, approval)

/-- The step is parked and waits for its approval. -/
def stepAwaitsDecision (step : Step) : Bool :=
  step.state = AgentState.waitingDecision &&
    step.approval.map StepApproval.status = some StepApprovalStatus.pending

/-- Mark a resolved gate's step done and move the cursor past it. -/
def advanceRunPastGate (now stepIndex : Nat) (run : Run) : Run :=
  let steps :=
    run.steps.modify stepIndex fun step => { finishStep now step with progress := 1 }
  if stepIndex + 1 = run.steps.length then
    { run with steps := steps, status := ExecutionStatus.done }
  else
    { run with
      steps := steps.modify (stepIndex + 1) (startStep now)
      currentStep := stepIndex + 1
      status := unblock run.status }

/-- Record a terminal failure, unless the run has already failed or finished. -/
def failRun (run : Run) : Run :=
  if isSettled run then run else { run with status := ExecutionStatus.failed }

/-!
## Questions and approvals
-/

def resolveDecision (now : Nat) (decisionId choice : String) (run : Run) :
    Except DecisionError Run :=
  match run.steps.findIdx? fun s => s.decision.map StepDecision.id = some decisionId with
  | none => .error (.notFound "Decision" decisionId)
  | some i =>
      .ok { run with
        steps := run.steps.modify i fun step =>
          startStep now
            { step with
              decision := step.decision.map fun d => { d with chosen := some choice } }
        status := unblock run.status }

def statusWord : ExecutionStatus -> String
  | .running => "running"
  | .blocked => "blocked"
  | .done => "done"
  | .paused => "paused"
  | .failed => "failed"

def approveStep (registry : Registry) (now : Nat) (executionId approvalId : String)
    (proposal : Option String) (actor : GateActor) (run : Run) :
    Except DecisionError Run :=
  match gateOf run approvalId with
  | none => .error (.notFound "Approval" approvalId)
  | some (i, step, approval) =>
      match dedicatedParkSurface registry run step with
      | some surface => .error (.conflict (WRONG_SURFACE_MESSAGES surface))
      | none =>
          if approval.status = StepApprovalStatus.approved then .ok run
          else
            match refuseGateResolution approval.approverPolicy actor with
            | some refusal => .error (.forbidden refusal)
            | none =>
                if approval.status = StepApprovalStatus.rejected then
                  .error (.conflict ("Approval '" ++ approvalId ++ "' was rejected"))
                else if isSettled run then
                  .error (.conflict
                    ("Execution '" ++ executionId ++ "' is already " ++
                      statusWord run.status))
                else
                  let fold := foldGateApproval approval actor now
                  if proposal.isSome && step.outputIsRendered then
                    .error (.validation "proposal_not_editable")
                  else if proposal.isSome && !fold.2 then
                    .error (.validation "proposal_not_editable_until_quorum")
                  else
                    let voted :=
                      { approval with
                        proposal := proposal.getD approval.proposal
                        approvals := fold.1 }
                    let step := { step with output := proposal.or step.output }
                    if fold.2 then
                      .ok (advanceRunPastGate now i
                        { run with
                          steps := run.steps.set i
                            { step with
                              approval := some
                                { voted with status := StepApprovalStatus.approved } } })
                    else
                      .ok { run with
                        steps := run.steps.set i { step with approval := some voted } }

/-- What a reviewer writes when sending a proposal back. -/
structure StepReview where
  feedback : Option String := none
  comments : List StepReviewComment := []
deriving DecidableEq

/-- The same step once more, its old job dropped. -/
def restartStep (now : Nat) (step : Step) : Step :=
  startStep now { step with jobId := none, startedAt := none, finishedAt := none }

def requestStepChanges (registry : Registry) (now : Nat) (approvalId : String)
    (review : StepReview) (actor : GateActor) (run : Run) : Except DecisionError Run :=
  match gateOf run approvalId with
  | none => .error (.notFound "Approval" approvalId)
  | some (i, step, approval) =>
      match dedicatedParkSurface registry run step with
      | some surface => .error (.conflict (WRONG_SURFACE_MESSAGES surface))
      | none =>
          match approval.status with
          | .approved =>
              .error (.conflict ("Approval '" ++ approvalId ++ "' is already approved"))
          | .rejected =>
              .error (.conflict ("Approval '" ++ approvalId ++ "' was rejected"))
          | .changesRequested =>
              .error (.conflict ("Approval '" ++ approvalId ++ "' is already being re-run"))
          | .pending =>
              match refuseGateResolution approval.approverPolicy actor with
              | some refusal => .error (.forbidden refusal)
              | none =>
                  let marked :=
                    { step with
                      approval := some
                        { approval with
                          status := StepApprovalStatus.changesRequested
                          feedback := review.feedback
                          comments := review.comments } }
                  let run :=
                    { run with
                      steps := run.steps.set i marked
                      status := unblock run.status }
                  let producerIndex :=
                    if registry.isCompanionKind step.agentKind then
                      companionProducerIndex registry run i
                    else none
                  match producerIndex with
                  | some p =>
                      .ok (rerunProducerThrough now p i
                        { previousProposal :=
                            (run.steps[p]?.bind Step.output).getD approval.proposal
                          feedback := review.feedback.getD ""
                          comments := review.comments
                          requestedBy := ReworkRequester.human } run)
                  | none =>
                      .ok { run with steps := run.steps.set i (restartStep now marked) }

/-- The gate is marked, then the run fails. -/
def rejectStep (registry : Registry) (approvalId : String) (reason : Option String)
    (actor : GateActor) (run : Run) : Except DecisionError Run :=
  match gateOf run approvalId with
  | none => .error (.notFound "Approval" approvalId)
  | some (i, step, approval) =>
      match dedicatedParkSurface registry run step with
      | some surface => .error (.conflict (WRONG_SURFACE_MESSAGES surface))
      | none =>
          match approval.status with
          | .approved =>
              .error (.conflict ("Approval '" ++ approvalId ++ "' is already approved"))
          | .changesRequested =>
              .error (.conflict ("Approval '" ++ approvalId ++ "' is being re-run"))
          | .rejected => .ok run
          | .pending =>
              match refuseGateResolution approval.approverPolicy actor with
              | some refusal => .error (.forbidden refusal)
              | none =>
                  .ok (failRun
                    { run with
                      steps := run.steps.set i
                        { step with
                          approval := some
                            { approval with
                              status := StepApprovalStatus.rejected
                              feedback :=
                                if Execution.truthy reason then reason
                                else approval.feedback } } })

/-!
## The iteration cap of a companion
-/

inductive IterationCapChoice where
  | extraRound
  | proceed
deriving DecidableEq

def grantRound (step : Step) : Step :=
  { step with
    companion := step.companion.map fun companion =>
      { companion with maxAttempts := companion.maxAttempts + 1 } }

/-- The rework a granted round starts with: the last verdict of the companion. -/
def extraRoundRework (registry : Registry) (run : Run) (i : Nat) (companion : Companion) :
    Rework :=
  { previousProposal :=
      (((companionProducerIndex registry run i).bind fun p => run.steps[p]?).bind
        Step.output).getD ""
    feedback := (companion.verdicts.getLast?.map CompanionVerdict.feedback).getD ""
    comments := (companion.verdicts.getLast?.map CompanionVerdict.comments).getD []
    requestedBy := ReworkRequester.reviewer }

def resolveCompanionExceeded (registry : Registry) (now : Nat) (approvalId : String)
    (choice : IterationCapChoice) (run : Run) : Except DecisionError Run :=
  match gateOf run approvalId with
  | none => .error (.notFound "Approval" approvalId)
  | some (i, step, approval) =>
      match step.companion with
      | none =>
          .error (.conflict
            ("Approval '" ++ approvalId ++ "' is not a companion iteration-cap gate"))
      | some companion =>
          if companion.exceeded = false then
            .error (.conflict
              ("Approval '" ++ approvalId ++ "' is not a companion iteration-cap gate"))
          else if approval.status = StepApprovalStatus.approved then .ok run
          else
            match choice with
            | .extraRound =>
                match loopCompanionProducer registry now i
                    (extraRoundRework registry run i companion)
                    { run with steps := run.steps.modify i grantRound } with
                | none => .error (.thrown "loopCompanionProducer: no preceding producer")
                | some run => .ok run
            | .proceed =>
                .ok (advanceRunPastGate now i
                  { run with
                    steps := run.steps.set i
                      { step with
                        companion := some { companion with exceeded := false }
                        approval := some
                          { approval with status := StepApprovalStatus.approved } } })

/-!
## The review window
-/

def PR_REVIEW_STEP_KIND : String := "pr-reviewer"

def isParkedReview (step : Step) : Bool :=
  step.agentKind = PR_REVIEW_STEP_KIND && stepAwaitsDecision step &&
    step.prReview.any fun review => review.status = PrReviewStatus.awaitingSelection

def isChallengingReview (step : Step) : Bool :=
  step.agentKind = PR_REVIEW_STEP_KIND &&
    step.prReview.any fun review => review.status = PrReviewStatus.challenging

/-- The parked review: the step, its approval and its review state. -/
def findParkedReview (run : Run) :
    Option (Nat × Step × StepApproval × PrReviewStepState) :=
  (run.steps.findIdx? isParkedReview).bind fun i =>
    run.steps[i]?.bind fun step =>
      step.approval.bind fun approval =>
        step.prReview.map fun review => (i, step, approval, review)

/-- Run the same step again; the review on it survives the reset. -/
def rearmStep (now i : Nat) (step : Step) (run : Run) : Run :=
  { run with
    steps := run.steps.set i (startStep now (resetStepForRerun step))
    status := unblock run.status }

def actionWord : PrReviewResolution -> String
  | .finish => "finish"
  | .fix => "fix"
  | .post => "post"

def notAwaitingSelection : DecisionError :=
  .conflict "The run is no longer awaiting a PR-review selection"

def resolvePrReview (now : Nat) (action : PrReviewResolution) (findingIds : List String)
    (run : Run) : Except DecisionError Run :=
  match findParkedReview run with
  | none => .error notAwaitingSelection
  | some (i, step, approval, review) =>
      let selectedFindingIds := selectable review findingIds
      if action ≠ PrReviewResolution.finish ∧ selectedFindingIds = [] then
        .error (.conflict ("Select at least one finding to " ++ actionWord action ++ "."))
      else
        match action with
        | .finish =>
            .ok (advanceRunPastGate now i
              { run with
                steps := run.steps.set i
                  { step with
                    prReview := some
                      { review with
                        status := PrReviewStatus.done
                        resolution := some .finish
                        selectedFindingIds := selectedFindingIds }
                    approval := some
                      { approval with status := StepApprovalStatus.approved } } })
        | .fix =>
            .ok (rearmStep now i
              { step with
                prReview := some
                  { review with
                    status := PrReviewStatus.fixing
                    resolution := some .fix
                    selectedFindingIds := selectedFindingIds } } run)
        | .post =>
            .ok (rearmStep now i
              { step with
                prReview := some
                  { review with
                    status := PrReviewStatus.posting
                    resolution := some .post
                    selectedFindingIds := selectedFindingIds
                    postAttempts := review.postAttempts + 1 }
                pendingPrReviewPost := true } run)

def dismissParkedFinding (findingId : String) (run : Run) : Except DecisionError Run :=
  match findParkedReview run with
  | none => .error notAwaitingSelection
  | some (i, step, _, review) =>
      .ok { run with
        steps := run.steps.set i
          { step with prReview := some (dismissFinding review findingId) } }

/-- Queue a challenge on a review, or refuse it. -/
def queueChallenge (findingId : String) (question : Option String)
    (review : PrReviewStepState) (step : Step) : Except DecisionError Step :=
  match review.findings.find? fun f => f.id = findingId with
  | none => .error (.conflict "That finding is no longer part of the review.")
  | some target =>
      if isRetracted target then
        .error (.conflict "A retracted finding can no longer be challenged.")
      else if isChallengeInFlight target.challenge then
        .error (.conflict "That finding is already being challenged.")
      else
        .ok { step with
          challengeJobs :=
            step.challengeJobs ++ [{ findingId := findingId, question := question }]
          prReview := some
            { review with
              status := PrReviewStatus.challenging
              resolution := none
              findings :=
                setChallenge findingId
                  { status := ChallengeStatus.queued
                    question := question } review.findings } }

/-- A challenge joins the queue of a running review, or re-arms a parked one. -/
def challengeFinding (now : Nat) (findingId : String) (question : Option String)
    (run : Run) : Except DecisionError Run :=
  let question := trimmed question
  match run.steps.findIdx? isChallengingReview with
  | some i =>
      if run.status ≠ ExecutionStatus.running ∧ run.status ≠ ExecutionStatus.paused then
        .error (.conflict "The run is no longer running its challenge investigations")
      else
        match run.steps[i]?.bind fun step => step.prReview.map fun review => (step, review) with
        | none => .error notAwaitingSelection
        | some (step, review) =>
            match queueChallenge findingId question review step with
            | .error e => .error e
            | .ok step => .ok { run with steps := run.steps.set i step }
  | none =>
      match findParkedReview run with
      | none => .error notAwaitingSelection
      | some (i, step, _, review) =>
          match queueChallenge findingId question review step with
          | .error e => .error e
          | .ok step => .ok (rearmStep now i step run)

/-!
## The judge
-/

def isParkedJudge (step : Step) : Bool :=
  stepAwaitsDecision step &&
    step.judge.any fun judge => judge.status = JudgeStatus.awaitingDecision

/-- The index a bounce starts again from. -/
def bounceTargetIndex (judge : JudgeDefinition) (steps : List Step) (i : Nat) : Option Nat :=
  if judge.bounceTargets ≠ [] then
    nearestStepIndexBefore (fun s => judge.bounceTargets.contains s.agentKind) steps i
  else if i = 0 then none
  else some (i - 1)

/-- `rework` is the text a bounce hands to the producer. -/
def resolveJudge (registry : Registry) (now : Nat) (choice : JudgeChoice)
    (feedback : Option String) (rework : Rework) (run : Run) : Except DecisionError Run :=
  match (run.steps.findIdx? isParkedJudge).bind fun i =>
      run.steps[i]?.bind fun step => step.judge.map fun state => (i, step, state) with
  | none => .error (.conflict "The run is no longer awaiting a review decision")
  | some (i, step, state) =>
      match registry.judgeFor step.agentKind with
      | none =>
          .error (.conflict
            ("No judge is registered for step kind '" ++ step.agentKind ++ "'"))
      | some judge =>
          let resolution :=
            { choice := choice, feedback := trimmed feedback, recordedAt := now }
          match choice with
          | .bounce =>
              match bounceTargetIndex judge run.steps i with
              | none =>
                  .error (.conflict "There is no preceding step to send this work back to")
              | some target =>
                  let rerun := rerunProducerThrough now target i rework run
                  .ok { rerun with
                    steps := rerun.steps.modify i fun step =>
                      { step with
                        judge := some
                          { state with
                            status := JudgeStatus.bouncing
                            resolution := some resolution
                            disposition := some .bounce } }
                    status := unblock run.status }
          | .stop =>
              .ok (failRun
                { run with
                  steps := run.steps.set i
                    { step with
                      judge := some
                        { state with
                          status := JudgeStatus.failed
                          resolution := some resolution
                          disposition := some .fail } } })
          | .proceed =>
              .ok (advanceRunPastGate now i
                { run with
                  steps := run.steps.set i
                    { step with
                      judge := some
                        { state with
                          status := JudgeStatus.passed
                          resolution := some resolution
                          disposition := some .pass
                          note := some
                            "A human chose to proceed despite the verdict." }
                      output := some
                        ("The \"" ++ judge.rubricName ++
                          "\" review was overruled by a human; the run proceeded.") } })

end Gates
end CatFactory
