import CatFactory.Gates.HumanDecisions

/-!
# Grading a producer

What one verdict of a companion does to the run: it passes, sends the producer
back while a round is left, or stops for a person at the cap.
-/

namespace CatFactory
namespace Gates

open Execution (AgentState ExecutionStatus StepApprovalStatus ReworkRequester)
open Foundation Reviews

/-!
## The disposition of a verdict
-/

def hasBlockingReviewComments (comments : List StepReviewComment) : Bool :=
  comments.any fun comment => comment.severity = some ReviewCommentSeverity.blocker

def hasReviewCommentsBeyondNits (comments : List StepReviewComment) : Bool :=
  comments.any fun comment => comment.severity ≠ some ReviewCommentSeverity.minor

inductive CompanionParkReason where
  | budgetSpent
  | blockingFindings
deriving DecidableEq

def companionParkReasonFor (comments : List StepReviewComment) : CompanionParkReason :=
  if hasBlockingReviewComments comments then .blockingFindings else .budgetSpent

/-- `park` always names its reason, the others never do. -/
inductive CompanionDisposition where
  | pass
  | rework
  | park (reason : CompanionParkReason)
deriving DecidableEq

structure CompanionDispositionInput where
  rating : Rat
  threshold : Rat
  comments : List StepReviewComment
  attempts : Nat
  maxAttempts : Nat
  hasProducer : Bool
deriving DecidableEq

def disposeCompanionVerdict (input : CompanionDispositionInput) : CompanionDisposition :=
  if !input.hasProducer then .pass
  else
    let hasBudget := input.attempts < input.maxAttempts
    if hasBlockingReviewComments input.comments then
      if hasBudget then .rework else .park (companionParkReasonFor input.comments)
    else if input.attempts = 0 ∧ hasBudget ∧ hasReviewCommentsBeyondNits input.comments then
      .rework
    else if input.threshold ≤ input.rating then .pass
    else if hasBudget then .rework
    else .park (companionParkReasonFor input.comments)

/-!
## A loop that gets nowhere
-/

def RATING_EPSILON : Rat := 1 / 100

/-- `Math.abs(a - b)`. -/
def ratingMoved (a b : Rat) : Rat := max (a - b) (b - a)

def trimEnd (cs : List Char) : List Char :=
  (cs.reverse.dropWhile isSpace).reverse

/-- Keep two newlines of every longer run; `seen` counts those just before. -/
def collapseNewlines (seen : Nat) : List Char -> List Char
  | [] => []
  | c :: cs =>
      if c = '\n' then
        if seen < 2 then c :: collapseNewlines (seen + 1) cs else collapseNewlines seen cs
      else c :: collapseNewlines 0 cs

def normalizeProposal (text : String) : String :=
  let lines := (text.splitOn "\n").map fun line => String.ofList (trimEnd line.toList)
  trim (String.ofList (collapseNewlines 0 (String.intercalate "\n" lines).toList))

/-- The producer handed back what it was asked to revise and the rating did not
move. -/
def companionLoopStalled (producer : Step) (verdicts : List CompanionVerdict)
    (producerDeliverableIsReply : Bool) : Bool :=
  match producerDeliverableIsReply, verdicts.reverse, producer.rework with
  | true, current :: previous :: _, some rework =>
      !(RATING_EPSILON < ratingMoved current.rating previous.rating) &&
        rework.requestedBy = ReworkRequester.reviewer &&
        normalizeProposal (producer.output.getD "") =
          normalizeProposal rework.previousProposal
  | _, _, _ => false

/-!
## One grading
-/

structure CompanionAssessment where
  rating : Rat
  summary : String
  comments : List StepReviewComment := []
deriving DecidableEq

/-- What came back from the companion: the parsed assessment, if it parsed, and
the reply's text. -/
structure Grading where
  assessment : Option CompanionAssessment
  output : String
deriving DecidableEq

/-- How a grading ended. -/
inductive GradeExit where
  | unparseable
  | passed
  | settledByPolicy
  | parked (reason : CompanionParkReason)
  | reworked
deriving DecidableEq

def DEFAULT_COMPANION_MAX_ATTEMPTS : Nat := 4

/-- The companion of a step, as a catalog entry seeds it where it is absent. -/
def seededCompanion (threshold : Rat) (step : Step) : Companion :=
  step.companion.getD { threshold := threshold, maxAttempts := DEFAULT_COMPANION_MAX_ATTEMPTS }

def recordCompanionVerdict (assessment : Option CompanionAssessment) (rating : Rat)
    (passed : Bool) (output : String) (companion : Companion) (step : Step) : Step :=
  let feedback := (assessment.map CompanionAssessment.summary).getD ""
  { step with
    companion := some
      { companion with
        verdicts := companion.verdicts ++
          [{ rating := rating
             threshold := companion.threshold
             passed := passed
             feedback := feedback
             comments := (assessment.map CompanionAssessment.comments).getD [] }] }
    output := some (if feedback ≠ "" then feedback else output) }

def setCompanion (change : Companion -> Companion) (step : Step) : Step :=
  { step with companion := step.companion.map change }

def settleStepAndAdvance (now : Nat) (run : Run) : Run :=
  if run.currentStep + 1 = run.steps.length then
    { run with status := ExecutionStatus.done }
  else
    { run with
      currentStep := run.currentStep + 1
      steps := run.steps.modify (run.currentStep + 1) (startStep now) }

/-- Finish the companion; a gated one holds the producer's output up for a person
first. -/
def resolvePassedCompanion (now : Nat) (approvalId : String) (producer : Option Step)
    (step : Step) (run : Run) : Run :=
  let finished := { finishStep now step with progress := 1 }
  if step.requiresApproval && decide (run.currentStep + 1 ≠ run.steps.length) &&
      step.approval.map StepApproval.status ≠ some StepApprovalStatus.approved then
    let proposal := ((producer.bind Step.output).or finished.output).getD ""
    { run with
      steps := run.steps.set run.currentStep
        (pauseStepForInput now
          { finished with approval := some (buildStepApproval finished approvalId proposal) })
      status := ExecutionStatus.blocked }
  else
    settleStepAndAdvance now { run with steps := run.steps.set run.currentStep finished }

/-- What the grading is decided on. -/
def dispositionInput (companion : Companion) (assessment : Option CompanionAssessment)
    (hasProducer : Bool) : CompanionDispositionInput :=
  { rating :=
      match assessment with
      | some a => if hasProducer then a.rating else 1
      | none => 1
    threshold := companion.threshold
    comments := (assessment.map CompanionAssessment.comments).getD []
    attempts := companion.attempts
    maxAttempts := companion.maxAttempts
    hasProducer := hasProducer }

/-- The park a round takes instead of its rework when the loop gets nowhere. -/
def parkForUnproductiveLoop (registry : Registry) (producer : Option Step)
    (verdicts : List CompanionVerdict) (input : CompanionDispositionInput)
    (decision : CompanionDisposition) : Option CompanionParkReason :=
  match decision, producer with
  | .rework, some producer =>
      if companionLoopStalled producer verdicts
          (registry.deliverableIsReply producer.agentKind) then
        some (companionParkReasonFor input.comments)
      else none
  | _, _ => none

/-- Park at the cap, unless the policy answers it: it answers a spent budget, and
nothing else. -/
def takeCapExit (now : Nat) (approvalId : String) (resolvesOwnCaps : Bool)
    (reason : CompanionParkReason) (producer : Option Step) (step : Step) (run : Run) :
    Run × GradeExit :=
  if reason = .budgetSpent ∧ resolvesOwnCaps then
    (resolvePassedCompanion now approvalId producer
      (setCompanion (fun c => { c with capSettledByPolicy := true }) step) run,
      .settledByPolicy)
  else
    ({ run with
       steps := run.steps.set run.currentStep
         (openDecisionPark now approvalId (step.output.getD "")
           (setCompanion (fun c => { c with exceeded := true }) step))
       status := ExecutionStatus.blocked },
      .parked reason)

/-- Act on the verdict of the companion under the cursor.  `none` is a thrown
error. -/
def applyAssessment (registry : Registry) (defaultThreshold : Rat) (now : Nat)
    (approvalId : String) (resolvesOwnCaps : Bool) (grading : Grading) (run : Run) :
    Option (Run × GradeExit) :=
  match run.steps[run.currentStep]? with
  | none => none
  | some step =>
      let producerIndex := companionProducerIndex registry run run.currentStep
      let producer := producerIndex.bind fun p => run.steps[p]?
      let companion := seededCompanion defaultThreshold step
      if producerIndex.isSome ∧ grading.assessment = none then
        -- the driver fails the run with the reply as the detail
        some
          (failRun
            { run with
              steps := run.steps.set run.currentStep
                { step with output := some grading.output, companion := some companion } },
            .unparseable)
      else
        let input := dispositionInput companion grading.assessment producerIndex.isSome
        let decision := disposeCompanionVerdict input
        let step :=
          recordCompanionVerdict grading.assessment input.rating (decision = .pass)
            grading.output companion step
        match decision with
        | .pass =>
            some (resolvePassedCompanion now approvalId producer step run, .passed)
        | decision =>
            let verdicts := (step.companion.map Companion.verdicts).getD []
            match parkForUnproductiveLoop registry producer verdicts input decision,
              decision with
            | some reason, _ =>
                some (takeCapExit now approvalId resolvesOwnCaps reason producer
                  (setCompanion (fun c => { c with stalled := true }) step) run)
            | none, .park reason =>
                some (takeCapExit now approvalId resolvesOwnCaps reason producer step run)
            | none, _ =>
                (loopCompanionProducer registry now run.currentStep
                  { previousProposal := (producer.bind Step.output).getD ""
                    feedback := (grading.assessment.map CompanionAssessment.summary).getD ""
                    comments :=
                      (grading.assessment.map CompanionAssessment.comments).getD []
                    requestedBy := ReworkRequester.reviewer }
                  { run with steps := run.steps.set run.currentStep step }).map
                    fun run => (run, .reworked)

end Gates
end CatFactory
