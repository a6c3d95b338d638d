import CatFactory.Foundation.Text

/-!
# A pull-request review on a step

The findings a reviewer returned, what people and investigators did to them,
and the marks that the posting passes leave.  All of it rides on one step of
the run.
-/

namespace CatFactory
namespace Reviews

open Foundation

/-!
## Findings
-/

inductive PrReviewSeverity where
  | blocker
  | high
  | medium
  | low
  | nit
deriving DecidableEq

inductive PrReviewCategory where
  | correctness
  | security
  | performance
  | maintainability
  | style
  | test
  | other
deriving DecidableEq

/-- The side of a diff: `left` is the base, `right` the head. -/
inductive DiffSide where
  | left
  | right
deriving DecidableEq

inductive ChallengeStatus where
  | queued
  | investigating
  | upheld
  | amended
  | retracted
  | failed
deriving DecidableEq

structure PrReviewFindingChallenge where
  status : ChallengeStatus
  question : Option String := none
  justification : Option String := none
deriving DecidableEq

structure PrReviewFinding where
  id : String
  path : String
  line : Option Int := none
  side : Option DiffSide := none
  severity : PrReviewSeverity
  category : PrReviewCategory
  title : String
  detail : String
  suggestedFix : Option String := none
  challenge : Option PrReviewFindingChallenge := none
deriving DecidableEq

/-- The challenge waits for an investigator, or one is at work. -/
def isChallengeInFlight (challenge : Option PrReviewFindingChallenge) : Bool :=
  match challenge with
  | none => false
  | some c =>
      c.status = ChallengeStatus.queued || c.status = ChallengeStatus.investigating

def isRetracted (finding : PrReviewFinding) : Bool :=
  finding.challenge.map PrReviewFindingChallenge.status = some ChallengeStatus.retracted

/-!
## The review
-/

inductive PrReviewStatus where
  | reviewing
  | awaitingSelection
  | challenging
  | fixing
  | posting
  | done
  | skipped
deriving DecidableEq

inductive PrReviewResolution where
  | finish
  | fix
  | post
deriving DecidableEq

structure PrReviewPostFailure where
  findingId : String
  path : String
  line : Option Int := none
  reason : String
deriving DecidableEq

/-- What the last posting pass did. -/
structure PrReviewPostReport where
  attempted : Nat
  posted : Nat
  folded : Nat
  bodyPosted : Option Bool := none
  bodyError : Option String := none
  failures : List PrReviewPostFailure := []
  attempt : Option Nat := none
deriving DecidableEq

structure PrReviewStepState where
  status : PrReviewStatus
  summary : Option String := none
  findings : List PrReviewFinding := []
  selectedFindingIds : List String := []
  resolution : Option PrReviewResolution := none
  reviewedHeadSha : Option String := none
  postReport : Option PrReviewPostReport := none
  postedFindingIds : List String := []
  postedBody : Bool := false
  postAttempts : Nat := 0
deriving DecidableEq

/-- One entry of the challenge queue.  An entry without an epoch is waiting; one
with an epoch has been claimed, and has a job once the executor accepted it. -/
structure PrReviewChallengeJob where
  findingId : String
  question : Option String := none
  epoch : Option Nat := none
  jobId : Option String := none
  model : Option String := none
  subscriptionTokenId : Option String := none
  initiatedByUserId : Option String := none
  evictionRecoveries : Option Nat := none
deriving DecidableEq

/-!
## What a person does to the findings
-/

/-- The requested ids that name a finding which may be acted on. -/
def selectable (review : PrReviewStepState) (findingIds : List String) : List String :=
  let known := (review.findings.filter fun f => !isRetracted f).map PrReviewFinding.id
  findingIds.filter fun id => known.contains id

/-- Remove a finding, and its id from every list that refers to it. -/
def dismissFinding (state : PrReviewStepState) (findingId : String) : PrReviewStepState :=
  { state with
    findings := state.findings.filter fun f => f.id ≠ findingId
    selectedFindingIds := state.selectedFindingIds.filter fun id => id ≠ findingId
    postedFindingIds := state.postedFindingIds.filter fun id => id ≠ findingId
    postReport := state.postReport.map fun report =>
      { report with failures := report.failures.filter fun f => f.findingId ≠ findingId } }

/-- Write the challenge of the findings with this id. -/
def setChallenge (findingId : String) (challenge : PrReviewFindingChallenge)
    (findings : List PrReviewFinding) : List PrReviewFinding :=
  findings.map fun f => if f.id = findingId then { f with challenge := some challenge } else f

/-- Move a challenge that exists to another status. -/
def setChallengeStatus (findingId : String) (status : ChallengeStatus)
    (findings : List PrReviewFinding) : List PrReviewFinding :=
  findings.map fun f =>
    if f.id = findingId then
      { f with challenge := f.challenge.map fun c => { c with status := status } }
    else f

/-!
## What an investigator does to a finding
-/

inductive ChallengeVerdict where
  | upheld
  | retracted
deriving DecidableEq

structure PrReviewChallengeOutput where
  verdict : Option ChallengeVerdict := none
  justification : Option String := none
  revisedTitle : Option String := none
  revisedDetail : Option String := none
  revisedSeverity : Option PrReviewSeverity := none
  revisedSuggestedFix : Option String := none
deriving DecidableEq

/-- `text?.trim() || none`. -/
def trimmed (text : Option String) : Option String :=
  match text with
  | none => none
  | some t => if trim t = "" then none else some (trim t)

/-- Fold an upheld verdict into the finding; it is amended when a field changes. -/
def reviseFinding (question justification : Option String)
    (output : PrReviewChallengeOutput) (f : PrReviewFinding) : PrReviewFinding :=
  let title := (trimmed output.revisedTitle).getD f.title
  let detail := (trimmed output.revisedDetail).getD f.detail
  let severity := output.revisedSeverity.getD f.severity
  let suggestedFix :=
    match trimmed output.revisedSuggestedFix with
    | some revisedFix => some revisedFix
    | none => f.suggestedFix
  let changed :=
    title ≠ f.title ∨ detail ≠ f.detail ∨ severity ≠ f.severity ∨
      suggestedFix ≠ f.suggestedFix
  { f with
    title := title
    detail := detail
    severity := severity
    suggestedFix := suggestedFix
    challenge := some
      { status := if changed then ChallengeStatus.amended else ChallengeStatus.upheld
        question := question
        justification := justification } }

def applyChallengeVerdict (state : PrReviewStepState) (findingId : String)
    (question : Option String) (output : Option PrReviewChallengeOutput) :
    PrReviewStepState :=
  let output := output.getD {}
  let verdict := output.verdict.getD ChallengeVerdict.upheld
  let justification := trimmed output.justification
  match verdict with
  | ChallengeVerdict.retracted =>
      { state with
        findings := setChallenge findingId
          { status := ChallengeStatus.retracted
            question := question
            justification := justification } state.findings
        selectedFindingIds := state.selectedFindingIds.filter fun id => id ≠ findingId }
  | ChallengeVerdict.upheld =>
      { state with
        findings := state.findings.map fun f =>
          if f.id = findingId then reviseFinding question justification output f else f }

/-- Settle a challenge whose investigation failed; the finding stays as it was. -/
def failChallenge (state : PrReviewStepState) (findingId : String)
    (question reason : Option String) : PrReviewStepState :=
  { state with
    findings := setChallenge findingId
      { status := ChallengeStatus.failed
        question := question
        justification := reason } state.findings }

end Reviews
end CatFactory
