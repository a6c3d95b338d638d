import CatFactory.Foundation.KeyedFold
import CatFactory.Replies.LlmOutput

/-!
# Slice reviews

A pull-request review fans its slices out, and each poll reports what became of
them.  The reports are folded onto the reviewer's step, so that a resumed review
covers only the slices that never finished.
-/

namespace CatFactory
namespace Reviews

open Foundation Replies

attribute [local instance] lawfulBEq_units

variable {num : Type}

inductive SliceStatus where
  | inProgress
  | completed
deriving DecidableEq

/-- A report that is absent and one that is null are told apart. -/
structure PrReviewSliceReview where
  label : List Nat
  status : SliceStatus
  report : Option (Option (List Nat)) := none
deriving DecidableEq

/-- The report, `report ?? null`. -/
def PrReviewSliceReview.text (review : PrReviewSliceReview) : Option (List Nat) :=
  review.report.join

/-- `label.trim()` -/
def PrReviewSliceReview.key (review : PrReviewSliceReview) : List Nat :=
  trim review.label

/-- What a pr-reviewer step carries once it was dispatched. -/
structure SliceReviewState where
  sliceReviews : Option (List PrReviewSliceReview)
deriving DecidableEq

structure ReviewerStep where
  prReview : Option SliceReviewState
deriving DecidableEq

/-!
## Reading a payload
-/

def parseLabel : Option (Json num) -> Option (List Nat)
  | some (.string label) => some label
  | _ => none

def parseStatus : Option (Json num) -> Option SliceStatus
  | some (.string text) =>
      if text = stringUnits "in_progress" then some .inProgress
      else if text = stringUnits "completed" then some .completed
      else none
  | _ => none

def parseReport : Option (Json num) -> Option (Option (Option (List Nat)))
  | none => some none
  | some .null => some (some none)
  | some (.string report) => some (some (some report))
  | _ => none

def parsePrReviewSliceReview : Json num -> Option PrReviewSliceReview
  | .object fields => do
      let label <- parseLabel (fields.lookup (stringUnits "label"))
      let status <- parseStatus (fields.lookup (stringUnits "status"))
      let report <- parseReport (fields.lookup (stringUnits "report"))
      return { label, status, report }
  | _ => none

def coerceSliceReview (raw : Json num) : Option PrReviewSliceReview :=
  (parsePrReviewSliceReview raw).filter fun review => review.key ≠ []

/-- Of two reviews with one label the completed one is kept, else the earlier one. -/
def keepReview (review : PrReviewSliceReview) : List PrReviewSliceReview ->
    List PrReviewSliceReview
  | [] => [review]
  | existing :: reviews =>
      if existing.key = review.key then
        if existing.status ≠ .completed ∧ review.status = .completed then review :: reviews
        else existing :: reviews
      else existing :: keepReview review reviews

/-- The entries of a payload that can be used; a payload may be absent. -/
def wellFormed : Option (Json num) -> List PrReviewSliceReview
  | some (.array entries) => entries.filterMap coerceSliceReview
  | _ => []

def coerceSliceReviews (raw : Option (Json num)) : List PrReviewSliceReview :=
  (wellFormed raw).foldl (fun reviews review => keepReview review reviews) []

/-!
## Folding a payload onto the step
-/

def sameSliceReviews (a b : List PrReviewSliceReview) : Bool :=
  a.length = b.length &&
    (a.zip b).all fun pair =>
      pair.1.label = pair.2.label && pair.1.status = pair.2.status && pair.1.text = pair.2.text

/-- A completed review is only replaced by a completed one. -/
def mergeReview (byLabel : List (List Nat × PrReviewSliceReview)) (review : PrReviewSliceReview) :
    List (List Nat × PrReviewSliceReview) :=
  if (byLabel.lookup review.key).any (fun prior => prior.status = .completed) ∧
      review.status ≠ .completed then byLabel
  else upsert review.key (fun _ => review) byLabel

def mergeSliceReviews (existing incoming : List PrReviewSliceReview) : List PrReviewSliceReview :=
  let byLabel := existing.foldl (fun byLabel review =>
    upsert review.key (fun _ => review) byLabel) []
  (incoming.foldl mergeReview byLabel).map Prod.snd

/-- The step after a payload, and whether it changed. -/
def applySliceReviews (step : ReviewerStep) (raw : Option (Json num)) : ReviewerStep × Bool :=
  match step.prReview with
  | none => (step, false)
  | some prReview =>
      let existing := prReview.sliceReviews.getD []
      let incoming := coerceSliceReviews raw
      let merged := mergeSliceReviews existing incoming
      if incoming = [] then (step, false)
      else if sameSliceReviews existing merged then (step, false)
      else ({ prReview := some { sliceReviews := some merged } }, true)

/-!
## Planning a resume

The lower case of a string is a parameter; nothing depends on which it is.
-/

section Resume

variable (toLowerCase : List Nat -> List Nat)

def sliceKey (label : List Nat) : List Nat :=
  toLowerCase (trim label)

def isAggregationEntry (key : List Nat) : Bool :=
  (stringUnits "aggregate").isPrefixOf key

structure ResumePlan where
  pending : List (List Nat) := []
  seen : List (List Nat) := []

def pushLabel (completed : List (List Nat)) (plan : ResumePlan) (label : List Nat) : ResumePlan :=
  let key := sliceKey toLowerCase label
  if key = [] ∨ isAggregationEntry key ∨ key ∈ completed ∨ key ∈ plan.seen then plan
  else { pending := plan.pending ++ [trim label], seen := plan.seen ++ [key] }

/-- The slices that are still to be reviewed; of the planned entries only the labels are read. -/
def planResumeSlices (reviews : List PrReviewSliceReview) (planned : List (List Nat)) :
    List (List Nat) :=
  let completed := (reviews.filter fun r => r.status = .completed).map fun r =>
    sliceKey toLowerCase r.label
  let afterPlan := planned.foldl (pushLabel toLowerCase completed) {}
  let dispatched := (reviews.filter fun r => r.status ≠ .completed).map PrReviewSliceReview.label
  (dispatched.foldl (pushLabel toLowerCase completed) afterPlan).pending

end Resume

end Reviews
end CatFactory
