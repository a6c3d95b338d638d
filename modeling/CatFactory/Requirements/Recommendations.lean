import CatFactory.Replies.LlmOutput

/-!
# The Writer's recommendations

One call of the Writer answers a chunk of findings.  Its reply is a list of
entries; each is routed to the finding whose id it repeats, and those that are
left over go to the findings without an answer, in the order of the prompt.
-/

namespace CatFactory
namespace Requirements

open Foundation Replies

attribute [local instance] lawfulBEq_units

variable {num : Type}

structure RequirementReviewItem where
  id : List Nat
deriving DecidableEq

inductive RecommendationSource where
  | standard
  | projectSpec
  | web
  | generalPractice
deriving DecidableEq

def RecommendationSource.text : RecommendationSource -> List Nat
  | standard => stringUnits "standard"
  | projectSpec => stringUnits "project-spec"
  | web => stringUnits "web"
  | generalPractice => stringUnits "general-practice"

def RECOMMENDATION_SOURCES : List RecommendationSource :=
  [.standard, .projectSpec, .web, .generalPractice]

structure WriterSuggestion (num : Type) where
  recommendation : List Nat
  fromStandard : Option (List Nat)
  groundedIn : Option RecommendationSource
  confidence : Option num
deriving DecidableEq

/-!
## One entry
-/

/-- `value.name` -/
def field (name : String) : Json num -> Option (Json num)
  | .object fields => fields.lookup (stringUnits name)
  | _ => none

def asString : Option (Json num) -> List Nat
  | some (.string text) => trim text
  | _ => []

def coerceSource : Option (Json num) -> Option RecommendationSource
  | some (.string text) => RECOMMENDATION_SOURCES.find? fun source => source.text = text
  | _ => none

/-- `isFraction` says that a number is finite and from 0 to 1. -/
def coerceConfidence (isFraction : num -> Bool) : Option (Json num) -> Option num
  | some (.number n) => if isFraction n then some n else none
  | _ => none

structure ReplyEntry (num : Type) where
  itemId : List Nat
  suggestion : WriterSuggestion num
deriving DecidableEq

/-- An entry of the list, none where it is no object. -/
def replyEntry (isFraction : num -> Bool) (entry : Json num) : Option (ReplyEntry num) :=
  let read : ReplyEntry num :=
    { itemId := asString (field "itemId" entry)
      suggestion :=
        { recommendation := asString (field "recommendation" entry)
          fromStandard := (some (asString (field "fromStandard" entry))).filter fun s => s ≠ []
          groundedIn := coerceSource (field "groundedIn" entry)
          confidence := coerceConfidence isFraction (field "confidence" entry) } }
  match entry with
  | .object _ => some read
  | .array _ => some read
  | _ => none

/-- A bare array, or the array of a `recommendations` wrapper. -/
def replyList (raw : Json num) : List (Json num) :=
  match field "recommendations" raw with
  | some (.array list) => list
  | _ =>
      match raw with
      | .array list => list
      | _ => []

/-- The entries that recommend something. -/
def replyEntries (isFraction : num -> Bool) (raw : Json num) : List (ReplyEntry num) :=
  ((replyList raw).filterMap (replyEntry isFraction)).filter fun entry =>
    entry.suggestion.recommendation ≠ []

/-!
## A chunk
-/

/-- The suggestions by finding, and the entries that were consumed. -/
structure Routed (num : Type) where
  out : List (List Nat × WriterSuggestion num) := []
  consumed : List Nat := []

/-- Route an entry to the finding that it names. -/
def routeNamed (findingIds : List (List Nat)) (routed : Routed num) (entry : ReplyEntry num × Nat) :
    Routed num :=
  if entry.1.itemId ≠ [] ∧ entry.1.itemId ∈ findingIds ∧
      (routed.out.lookup entry.1.itemId).isNone then
    { out := routed.out ++ [(entry.1.itemId, entry.1.suggestion)]
      consumed := routed.consumed ++ [entry.2] }
  else routed

/-- Hand the leftover entries to the findings without a suggestion. -/
def fillLeftover : List RequirementReviewItem -> List (ReplyEntry num) ->
    List (List Nat × WriterSuggestion num) -> List (List Nat × WriterSuggestion num)
  | [], _, out => out
  | finding :: findings, leftover, out =>
      match leftover with
      | [] => out
      | entry :: rest =>
          if (out.lookup finding.id).isSome then fillLeftover findings leftover out
          else fillLeftover findings rest (out ++ [(finding.id, entry.suggestion)])

def coerceChunkRecommendations (isFraction : num -> Bool) (raw : Json num)
    (findings : List RequirementReviewItem) : List (List Nat × WriterSuggestion num) :=
  let entries := (replyEntries isFraction raw).zipIdx
  let findingIds := findings.map RequirementReviewItem.id
  let routed := entries.foldl (routeNamed findingIds) {}
  let leftover := (entries.filter fun entry => entry.2 ∉ routed.consumed).map Prod.fst
  fillLeftover findings leftover routed.out

def coerceSingleRecommendation (isFraction : num -> Bool) (raw : Json num) (itemId : List Nat) :
    Option (WriterSuggestion num) :=
  let entries := replyEntries isFraction raw
  let lone := if entries.length = 1 then entries.head? else none
  ((entries.find? fun entry => entry.itemId = itemId).or lone).map ReplyEntry.suggestion

end Requirements
end CatFactory
