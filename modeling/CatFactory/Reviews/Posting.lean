import CatFactory.Foundation.Runs
import CatFactory.Reviews.PrReview

/-!
# Posting a review on a pull request

One pass posts what a person selected: the findings that anchor to the diff as
inline comments, the others in the body.  What the pull request accepted is kept
beside the review.
-/

namespace CatFactory
namespace Reviews

open Foundation

/-!
## Texts
-/

def PrReviewSeverity.word : PrReviewSeverity -> String
  | .blocker => "blocker"
  | .high => "high"
  | .medium => "medium"
  | .low => "low"
  | .nit => "nit"

def PrReviewCategory.word : PrReviewCategory -> String
  | .correctness => "correctness"
  | .security => "security"
  | .performance => "performance"
  | .maintainability => "maintainability"
  | .style => "style"
  | .test => "test"
  | .other => "other"

def renderFindingBody (finding : PrReviewFinding) : String :=
  String.intercalate "\n"
    (["**[" ++ finding.severity.word ++ " · " ++ finding.category.word ++ "] " ++
        finding.title ++ "**", "", finding.detail] ++
      match finding.suggestedFix with
      | none => []
      | some fix => if fix = "" then [] else ["", "**Suggested fix:** " ++ fix])

/-- A finding's line in the body, with where it is. -/
def renderUnanchored (finding : PrReviewFinding) : String :=
  let loc :=
    match finding.line with
    | some line => finding.path ++ ":" ++ toString line
    | none => finding.path
  "- " ++ (if loc = "" then "" else "`" ++ loc ++ "` — ") ++ renderFindingBody finding

/-- One part of a review's body. -/
inductive BodyPart where
  | summary (text : String)
  | findings (staleHead : Bool) (unanchored : List PrReviewFinding)
  | count (inline : Nat)
deriving DecidableEq

def findingsHeading (staleHead : Bool) : String :=
  if staleHead then
    "Findings (the pull request branch was updated after this review started, so they are " ++
      "summarized here rather than anchored to lines that may have since shifted):"
  else "Additional findings (no in-diff line to anchor to):"

def BodyPart.texts : BodyPart -> List String
  | .summary text => [text]
  | .findings staleHead unanchored =>
      [findingsHeading staleHead,
        String.intercalate "\n\n" (unanchored.map renderUnanchored)]
  | .count inline =>
      ["Deep review: " ++ toString inline ++ " inline finding" ++
        (if inline = 1 then "" else "s") ++ "."]

def bodyText (parts : List BodyPart) : String :=
  String.intercalate "\n\n" (parts.flatMap BodyPart.texts)

/-!
## Building a post
-/

/-- The lines of one file that a comment can anchor to, on each side of the diff. -/
structure CommentableLines where
  right : List Int := []
  left : List Int := []
deriving DecidableEq

structure CreateReviewComment where
  path : String
  line : Int
  side : DiffSide
  body : String
deriving DecidableEq

structure CreateReviewInput where
  body : String
  comments : List CreateReviewComment
deriving DecidableEq

/-- A built post; the body is kept by its parts beside the input. -/
structure BuiltPrReviewPost where
  bodyParts : List BodyPart
  input : CreateReviewInput
  commentFindingIds : List String
  foldedFindingIds : List String
deriving DecidableEq

/-- The finding carries a line and a path. -/
def carriesLocation (finding : PrReviewFinding) : Bool :=
  finding.line.isSome && finding.path ≠ ""

/-- The finding's line is one that an inline comment can anchor to. -/
def isAnchorable (staleHead : Bool) (commentable : Option (String -> Option CommentableLines))
    (finding : PrReviewFinding) : Bool :=
  !staleHead &&
    match finding.line with
    | none => false
    | some line =>
        finding.path ≠ "" &&
          match commentable with
          | none => true
          | some lines =>
              (lines finding.path).any fun file =>
                match finding.side.getD DiffSide.right with
                | .left => file.left.contains line
                | .right => file.right.contains line

def inlineComment (finding : PrReviewFinding) : CreateReviewComment :=
  { path := finding.path
    line := finding.line.getD 0
    side := finding.side.getD DiffSide.right
    body := renderFindingBody finding }

def reviewBodyParts (summary : Option String) (unanchored : List PrReviewFinding)
    (inline : Nat) (staleHead summaryAlreadyPosted : Bool) : List BodyPart :=
  let parts :=
    (if summaryAlreadyPosted then []
      else (trimmed summary).toList.map BodyPart.summary) ++
    (if unanchored = [] then [] else [BodyPart.findings staleHead unanchored])
  if parts = [] then [BodyPart.count inline] else parts

def buildPrReviewPost (findings : List PrReviewFinding) (summary : Option String)
    (commentable : Option (String -> Option CommentableLines))
    (staleHead summaryAlreadyPosted : Bool) : BuiltPrReviewPost :=
  let anchored := findings.filter fun f => isAnchorable staleHead commentable f
  let unanchored := findings.filter fun f => !isAnchorable staleHead commentable f
  let parts :=
    reviewBodyParts summary unanchored anchored.length staleHead summaryAlreadyPosted
  { bodyParts := parts
    input :=
      { body := bodyText parts
        comments := anchored.map inlineComment }
    commentFindingIds := anchored.map PrReviewFinding.id
    foldedFindingIds := (unanchored.filter carriesLocation).map PrReviewFinding.id }

/-!
## What the pull request answers
-/

structure ReviewCommentOutcome where
  posted : Bool
  error : Option String := none
deriving DecidableEq

structure CreateReviewResult where
  comments : List ReviewCommentOutcome
  bodyPosted : Option Bool
  bodyError : Option String := none
deriving DecidableEq

/-- How the host takes a review: it throws before it starts, or it accepts each
comment and the body or names an error for it. -/
inductive CreateReviewCall where
  | throws (reason : String)
  | answers (comment : Nat -> Option String) (body : Option String)

/-- A throw is read as a failure of every comment. -/
def createReview (call : CreateReviewCall) (input : CreateReviewInput) : CreateReviewResult :=
  match call with
  | .throws reason =>
      { comments := input.comments.map fun _ => { posted := false, error := some reason }
        bodyPosted := if input.body = "" then none else some false
        bodyError := if input.body = "" then none else some reason }
  | .answers comment body =>
      { comments := input.comments.mapIdx fun i _ =>
          { posted := (comment i).isNone, error := comment i }
        bodyPosted := if input.body = "" then none else some body.isNone
        bodyError := if input.body = "" then none else body }

/-- The outcome at this index says that the comment is posted. -/
def isPosted (outcomes : List ReviewCommentOutcome) (i : Nat) : Bool :=
  outcomes[i]?.any ReviewCommentOutcome.posted

/-- The items whose comment posted, of a list aligned with the outcomes. -/
def postedOf {item : Type} (outcomes : List ReviewCommentOutcome) (items : List item) :
    List item :=
  (items.zipIdx.filter fun x => isPosted outcomes x.2).map Prod.fst

def buildPrReviewPostReport (built : BuiltPrReviewPost) (selected : List PrReviewFinding)
    (result : CreateReviewResult) (attempt : Nat) : PrReviewPostReport × List String :=
  let newlyPostedFindingIds := postedOf result.comments built.commentFindingIds
  let failures :=
    (built.commentFindingIds.zipIdx.filter fun x => !isPosted result.comments x.2).map
      fun x =>
        let finding := selected.reverse.find? fun f => f.id = x.1
        { findingId := x.1
          path := (finding.map PrReviewFinding.path).getD ""
          line := finding.bind PrReviewFinding.line
          reason :=
            (result.comments[x.2]?.bind ReviewCommentOutcome.error).getD
              "The comment was not posted." }
  ({ attempted := built.commentFindingIds.length
     posted := newlyPostedFindingIds.length
     folded := built.foldedFindingIds.length
     bodyPosted := result.bodyPosted
     bodyError := result.bodyError
     failures := failures
     attempt := some attempt },
    newlyPostedFindingIds)

def isPrReviewPostComplete (report : PrReviewPostReport) : Bool :=
  report.failures.isEmpty && report.bodyPosted ≠ some false

/-!
## One pass
-/

/-- What the pull request accepted: bodies by their parts, and inline comments
with the finding each is for. -/
structure PullRequest where
  bodies : List (List BodyPart) := []
  comments : List (String × CreateReviewComment) := []
deriving DecidableEq

structure Posting where
  review : PrReviewStepState
  pr : PullRequest := {}
deriving DecidableEq

/-- One `post` resolution and what its pass meets: the head of the branch, the
diff, and the host. -/
structure PostPass where
  findingIds : List String
  currentHeadSha : Option String := none
  commentable : Option (String -> Option CommentableLines) := none
  call : CreateReviewCall

/-- The branch moved since the review started; an unknown head says nothing. -/
def detectStaleHead (review : PrReviewStepState) (currentHeadSha : Option String) : Bool :=
  match review.reviewedHeadSha, currentHeadSha with
  | some reviewed, some current => reviewed ≠ "" && current ≠ reviewed
  | _, _ => false

/-- The selected findings that no earlier pass posted. -/
def toPost (review : PrReviewStepState) : List PrReviewFinding :=
  review.findings.filter fun f =>
    review.selectedFindingIds.contains f.id && !review.postedFindingIds.contains f.id

/-- A person resolves the parked review with `post`. -/
def resolvePost (findingIds : List String) (review : PrReviewStepState) :
    Option PrReviewStepState :=
  let selectedFindingIds := selectable review findingIds
  if review.status = PrReviewStatus.awaitingSelection ∧ selectedFindingIds ≠ [] then
    some
      { review with
        status := PrReviewStatus.posting
        resolution := some .post
        selectedFindingIds := selectedFindingIds
        postAttempts := review.postAttempts + 1 }
  else none

/-- The pass of the driver that follows. -/
def post (pass : PostPass) (s : Posting) : Posting :=
  let review := s.review
  let selected := toPost review
  let staleHead := detectStaleHead review pass.currentHeadSha
  let bodyAlreadyPosted := review.postedBody
  let built :=
    buildPrReviewPost selected review.summary pass.commentable staleHead bodyAlreadyPosted
  let deliversNewlyFolded := staleHead && !built.foldedFindingIds.isEmpty
  let suppressBody := bodyAlreadyPosted && !deliversNewlyFolded
  let input := if suppressBody then { built.input with body := "" } else built.input
  let result := createReview pass.call input
  let summary := buildPrReviewPostReport built selected result review.postAttempts
  let complete := isPrReviewPostComplete summary.1
  { review :=
      { review with
        postReport := some summary.1
        postedFindingIds := review.postedFindingIds ++ summary.2
        postedBody := bodyAlreadyPosted || result.bodyPosted = some true
        status := if complete then PrReviewStatus.done else PrReviewStatus.awaitingSelection
        resolution := if complete then review.resolution else none }
    pr :=
      { bodies :=
          s.pr.bodies ++ if result.bodyPosted = some true then [built.bodyParts] else []
        comments :=
          s.pr.comments ++
            postedOf result.comments (built.commentFindingIds.zip input.comments) } }

def postStep (s : Posting) (pass : PostPass) : Option Posting :=
  (resolvePost pass.findingIds s.review).map fun review =>
    post pass { s with review := review }

end Reviews
end CatFactory
