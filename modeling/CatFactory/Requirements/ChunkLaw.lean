import CatFactory.Requirements.RecommendationLaw

/-!
# A recommendation reaches its finding

A reply without ids is dealt to the findings in its own order, less the blank
entries.  A chunk of one finding is given what the call for that finding alone
would give it.
-/

namespace CatFactory
namespace Requirements

open Foundation Replies

variable {num : Type}

/-!
## Replies that name no finding
-/

section Unnamed

variable {ids : List (List Nat)} {entries : List (ReplyEntry num)}

theorem routes_of_unnamed (hnone : forall entry, entry ∈ entries -> ¬ Names ids entry) :
    routes ids entries = ids.zip entries.zipIdx := by
  have hfirst : forall entry, entry ∈ entries.zipIdx -> ¬ IsFirst ids entries entry := by
    intro entry hentry h
    exact hnone entry.1 (List.mem_of_getElem? (List.mem_zipIdx_iff_getElem?.mp hentry)) h.left
  have hchosen : chosen ids entries = [] := by
    apply List.filter_eq_nil_iff.mpr
    intro entry hentry h
    exact hfirst entry hentry (of_decide_eq_true h)
  have hspare : spare ids entries = entries.zipIdx := by
    apply List.filter_eq_self.mpr
    intro entry hentry
    exact decide_eq_true (hfirst entry hentry)
  have hopen : unanswered ids entries = ids := by
    apply List.filter_eq_self.mpr
    intro id hid
    apply decide_eq_true
    intro h
    rcases List.mem_map.mp h.right with ⟨entry, hentry, heq⟩
    apply hnone entry hentry
    rw [Names, heq]
    exact ⟨h.left, hid⟩
  rw [routes, hchosen, hspare, hopen]
  rfl

variable {isFraction : num -> Bool} {raw : Json num} {findings : List RequirementReviewItem}

/-- Where no entry names a finding, the finding at a place is given the entry at that place. -/
theorem lookup_of_unnamed (hnodup : (findings.map RequirementReviewItem.id).Nodup)
    (hnone : forall entry, entry ∈ replyEntries isFraction raw ->
      ¬ Names (findings.map RequirementReviewItem.id) entry)
    {place : Nat} {finding : RequirementReviewItem} (hget : findings[place]? = some finding) :
    (coerceChunkRecommendations isFraction raw findings).lookup finding.id =
      ((replyEntries isFraction raw).map ReplyEntry.suggestion)[place]? := by
  have hid : (findings.map RequirementReviewItem.id)[place]? = some finding.id := by
    rw [List.getElem?_map, hget]
    rfl
  apply Option.ext
  intro suggestion
  rw [lookup_coerceChunk hnodup, routes_of_unnamed hnone, List.getElem?_map]
  constructor
  · intro h
    rcases h with ⟨route, hroute, hroutes, hsuggestion⟩
    rcases List.mem_iff_getElem?.mp hroute with ⟨other, hother⟩
    rcases List.getElem?_zip_eq_some.mp hother with ⟨hother, hentry⟩
    have hplace : other = place := by
      have hlt := (List.getElem?_eq_some_iff.mp hother).1
      apply (List.getElem?_inj hlt hnodup).mp
      rw [hother, hid, hroutes]
    rw [hplace, List.getElem?_zipIdx] at hentry
    rcases Option.map_eq_some_iff.mp hentry with ⟨entry, hentry, hpair⟩
    rw [hentry, ← hsuggestion, ← hpair]
    rfl
  · intro h
    rcases Option.map_eq_some_iff.mp h with ⟨entry, hentry, hsuggestion⟩
    refine ⟨(finding.id, (entry, place)), ?_, rfl, hsuggestion⟩
    apply List.mem_iff_getElem?.mpr
    refine ⟨place, List.getElem?_zip_eq_some.mpr ⟨hid, ?_⟩⟩
    rw [List.getElem?_zipIdx, hentry]
    simp

end Unnamed

/-!
## Replies in the order of the prompt
-/

/-- What one element of the list recommends, nothing where it is blank. -/
def suggestionOf (isFraction : num -> Bool) (entry : Json num) : Option (WriterSuggestion num) :=
  ((replyEntry isFraction entry).filter fun entry =>
    entry.suggestion.recommendation ≠ []).map ReplyEntry.suggestion

theorem suggestions_replyEntries (isFraction : num -> Bool) (raw : Json num) :
    (replyEntries isFraction raw).map ReplyEntry.suggestion =
      (replyList raw).filterMap (suggestionOf isFraction) := by
  rw [replyEntries]
  induction replyList raw with
  | nil => rfl
  | cons entry list ih =>
      rw [List.filterMap_cons, List.filterMap_cons, suggestionOf]
      cases replyEntry isFraction entry with
      | none => exact ih
      | some read =>
          by_cases hblank : read.suggestion.recommendation = []
          · simpa [List.filter_cons, Option.filter, hblank] using ih
          · simpa [List.filter_cons, Option.filter, hblank] using ih

/-- A list keeps its places under `filterMap` exactly when what is dropped stands at its end. -/
theorem getElem?_filterMap_iff {element value : Type} (f : element -> Option value)
    (list : List element) :
    (forall place : Nat, (list.filterMap f)[place]? = list[place]?.bind f) <->
      list.Pairwise fun earlier later => f earlier = none -> f later = none := by
  induction list with
  | nil => simp
  | cons first rest ih =>
      rw [List.pairwise_cons, ← ih]
      cases hfirst : f first with
      | some v =>
          rw [List.filterMap_cons_some hfirst]
          constructor
          · intro h
            refine ⟨?_, ?_⟩
            · intro later hlater hnone
              cases hnone
            · intro place
              exact h (place + 1)
          · intro h place
            cases place with
            | zero => exact hfirst.symm
            | succ place => exact h.right place
      | none =>
          rw [List.filterMap_cons_none hfirst]
          constructor
          · intro h
            have hempty : rest.filterMap f = [] := by
              apply List.head?_eq_none_iff.mp
              rw [List.head?_eq_getElem?, h 0]
              exact hfirst
            have hall : forall later, later ∈ rest -> f later = none :=
              List.filterMap_eq_nil_iff.mp hempty
            refine ⟨fun later hlater _ => hall later hlater, ?_⟩
            intro place
            rw [hempty, List.getElem?_nil]
            cases hget : rest[place]? with
            | none => rfl
            | some later => exact (hall later (List.mem_of_getElem? hget)).symm
          · intro h place
            have hempty : rest.filterMap f = [] :=
              List.filterMap_eq_nil_iff.mpr fun later hlater => h.left later hlater rfl
            rw [hempty, List.getElem?_nil]
            cases hget : (first :: rest)[place]? with
            | none => rfl
            | some later =>
                rcases List.mem_cons.mp (List.mem_of_getElem? hget) with heq | hlater
                · rw [heq]
                  exact hfirst.symm
                · exact (h.left later hlater rfl).symm

/-- A list with one element for each finding, none of which has an id. -/
structure Plain (raw : Json num) (findings : List RequirementReviewItem) : Prop where
  size : (replyList raw).length = findings.length
  unnamed : forall entry, entry ∈ replyList raw -> asString (field "itemId" entry) = []

/-- Each finding is given its own entry, or nothing where that entry is blank. -/
def Positional (isFraction : num -> Bool) (raw : Json num)
    (findings : List RequirementReviewItem) : Prop :=
  forall (place : Nat) (finding : RequirementReviewItem), findings[place]? = some finding ->
    (coerceChunkRecommendations isFraction raw findings).lookup finding.id =
      (replyList raw)[place]?.bind (suggestionOf isFraction)

/-- No blank element stands before one that recommends something. -/
def BlanksTrail (isFraction : num -> Bool) (raw : Json num) : Prop :=
  (replyList raw).Pairwise fun earlier later =>
    suggestionOf isFraction earlier = none -> suggestionOf isFraction later = none

theorem itemId_of_replyEntry {isFraction : num -> Bool} {entry : Json num} {read : ReplyEntry num}
    (h : replyEntry isFraction entry = some read) :
    read.itemId = asString (field "itemId" entry) := by
  cases entry with
  | object fields =>
      cases h
      rfl
  | array list =>
      cases h
      rfl
  | _ => cases h

theorem positional_iff {isFraction : num -> Bool} {raw : Json num}
    {findings : List RequirementReviewItem}
    (hnodup : (findings.map RequirementReviewItem.id).Nodup) (hplain : Plain raw findings) :
    Positional isFraction raw findings <-> BlanksTrail isFraction raw := by
  have hnone : forall entry, entry ∈ replyEntries isFraction raw ->
      ¬ Names (findings.map RequirementReviewItem.id) entry := by
    intro entry hentry hnames
    rcases List.mem_filterMap.mp (List.mem_filter.mp hentry).left with ⟨element, helement, hread⟩
    apply hnames.left
    rw [itemId_of_replyEntry hread]
    exact hplain.unnamed element helement
  rw [BlanksTrail, ← getElem?_filterMap_iff, ← suggestions_replyEntries]
  constructor
  · intro h place
    by_cases hlt : place < findings.length
    · have hget := List.getElem?_eq_getElem hlt
      rw [← lookup_of_unnamed hnodup hnone hget]
      exact h place _ hget
    · have hlist : (replyList raw)[place]? = none := by
        rw [List.getElem?_eq_none_iff, hplain.size]
        exact Nat.le_of_not_lt hlt
      have hshort : ((replyEntries isFraction raw).map ReplyEntry.suggestion).length <=
          (replyList raw).length := by
        rw [suggestions_replyEntries]
        exact List.length_filterMap_le _ _
      rw [hlist]
      apply List.getElem?_eq_none_iff.mpr
      exact Nat.le_trans hshort (List.getElem?_eq_none_iff.mp hlist)
  · intro h place finding hget
    rw [lookup_of_unnamed hnodup hnone hget]
    exact h place

/-!
## A chunk of one finding
-/

section Lone

variable {isFraction : num -> Bool} {raw : Json num} {finding : RequirementReviewItem}

/-- What the call for the finding alone gives, the chunk of that finding gives. -/
def Agrees (isFraction : num -> Bool) (raw : Json num) (finding : RequirementReviewItem) : Prop :=
  forall suggestion, coerceSingleRecommendation isFraction raw finding.id = some suggestion ->
    (coerceChunkRecommendations isFraction raw [finding]).lookup finding.id = some suggestion

/-- Where the finding has an empty id, the first entry without an id recommends what the first
entry does. -/
def LoneNamed (isFraction : num -> Bool) (raw : Json num) (finding : RequirementReviewItem) :
    Prop :=
  finding.id = [] -> forall entry,
    ((replyEntries isFraction raw).find? fun entry => entry.itemId = []) = some entry ->
    (replyEntries isFraction raw).head?.map ReplyEntry.suggestion = some entry.suggestion

theorem coerceSingleRecommendation_eq (isFraction : num -> Bool) (raw : Json num) (id : List Nat) :
    coerceSingleRecommendation isFraction raw id =
      (((replyEntries isFraction raw).find? fun entry => entry.itemId = id).or
        (if (replyEntries isFraction raw).length = 1 then (replyEntries isFraction raw).head?
          else none)).map ReplyEntry.suggestion :=
  rfl

theorem lookup_lone (hnone : forall entry, entry ∈ replyEntries isFraction raw ->
      ¬ Names [finding.id] entry) :
    (coerceChunkRecommendations isFraction raw [finding]).lookup finding.id =
      (replyEntries isFraction raw).head?.map ReplyEntry.suggestion := by
  have h := @lookup_of_unnamed _ isFraction raw [finding] (List.nodup_singleton _) hnone 0 finding
    rfl
  rw [h, List.getElem?_map, List.head?_eq_getElem?]

theorem agrees_of_named (hne : finding.id ≠ []) : Agrees isFraction raw finding := by
  intro suggestion hsingle
  have hnodup : ([finding].map RequirementReviewItem.id).Nodup := List.nodup_singleton _
  have hids : finding.id ∈ [finding].map RequirementReviewItem.id := List.mem_singleton.mpr rfl
  rw [coerceSingleRecommendation_eq] at hsingle
  cases hfind : (replyEntries isFraction raw).find? fun entry => entry.itemId = finding.id with
  | some entry =>
      rw [hfind, Option.some_or, Option.map_some] at hsingle
      rcases routes_named hids hne hfind with ⟨place, hroute⟩
      exact (lookup_coerceChunk hnodup).mpr ⟨_, hroute, rfl, Option.some.inj hsingle⟩
  | none =>
      have hnone : forall entry, entry ∈ replyEntries isFraction raw ->
          ¬ Names [finding.id] entry := by
        intro entry hentry hnames
        have hne' := List.find?_eq_none.mp hfind entry hentry
        exact hne' (decide_eq_true (List.mem_singleton.mp hnames.right))
      rw [hfind, Option.none_or] at hsingle
      rw [lookup_lone hnone, ← hsingle]
      by_cases hone : (replyEntries isFraction raw).length = 1
      · rw [if_pos hone]
      · rw [if_neg hone] at hsingle
        cases hsingle

theorem agrees_iff : Agrees isFraction raw finding <-> LoneNamed isFraction raw finding := by
  by_cases hne : finding.id = []
  · have hnone : forall entry, entry ∈ replyEntries isFraction raw ->
        ¬ Names [finding.id] entry := by
      intro entry hentry hnames
      apply hnames.left
      rw [← hne]
      exact List.mem_singleton.mp hnames.right
    rw [Agrees, LoneNamed, lookup_lone hnone, coerceSingleRecommendation_eq, hne]
    constructor
    · intro h _ entry hfind
      apply h
      rw [hfind]
      rfl
    · intro h suggestion hsingle
      cases hfind : (replyEntries isFraction raw).find? fun entry => entry.itemId = [] with
      | some entry =>
          rw [hfind, Option.some_or, Option.map_some] at hsingle
          rw [h rfl entry hfind, hsingle]
      | none =>
          rw [hfind, Option.none_or] at hsingle
          by_cases hone : (replyEntries isFraction raw).length = 1
          · rw [if_pos hone] at hsingle
            exact hsingle
          · rw [if_neg hone] at hsingle
            cases hsingle
  · constructor
    · intro _ hempty
      exact absurd hempty hne
    · intro _
      exact agrees_of_named hne

end Lone

/-!
## The law
-/

/-- What routing a batched reply must keep to. -/
structure RoutingLaw (isFraction : num -> Bool) (raw : Json num)
    (findings : List RequirementReviewItem) : Prop where
  /-- The routes are what the chunk is given; each joins a finding with an entry of the reply,
  and neither occurs in two. -/
  once : coerceChunkRecommendations isFraction raw findings =
      (routes (findings.map RequirementReviewItem.id) (replyEntries isFraction raw)).map
        (fun route => (route.1, route.2.1.suggestion)) ∧
    ((routes (findings.map RequirementReviewItem.id)
      (replyEntries isFraction raw)).map Prod.fst).Nodup ∧
    ((routes (findings.map RequirementReviewItem.id)
      (replyEntries isFraction raw)).map Prod.snd).Nodup ∧
    forall route, route ∈ routes (findings.map RequirementReviewItem.id)
        (replyEntries isFraction raw) ->
      route.1 ∈ findings.map RequirementReviewItem.id ∧
        (replyEntries isFraction raw)[route.2.2]? = some route.2.1
  /-- A finding that some entry names is given the first that does. -/
  named : forall finding, finding ∈ findings -> finding.id ≠ [] -> forall entry,
    ((replyEntries isFraction raw).find? fun entry => entry.itemId = finding.id) = some entry ->
    (coerceChunkRecommendations isFraction raw findings).lookup finding.id = some entry.suggestion
  /-- An entry that names a finding goes to no other. -/
  own : forall route, route ∈ routes (findings.map RequirementReviewItem.id)
      (replyEntries isFraction raw) ->
    Names (findings.map RequirementReviewItem.id) route.2.1 -> route.2.1.itemId = route.1
  /-- Entries that name findings of their own may come in any order. -/
  order : (forall entry, entry ∈ replyEntries isFraction raw ->
      Names (findings.map RequirementReviewItem.id) entry) ->
    ((replyEntries isFraction raw).map ReplyEntry.itemId).Nodup ->
    forall raw', (replyList raw).Perm (replyList raw') -> forall id,
      (coerceChunkRecommendations isFraction raw findings).lookup id =
        (coerceChunkRecommendations isFraction raw' findings).lookup id
  positional : Plain raw findings -> Positional isFraction raw findings
  single : forall finding, findings = [finding] -> Agrees isFraction raw finding

/-- The replies that are routed so. -/
structure Routable (isFraction : num -> Bool) (raw : Json num)
    (findings : List RequirementReviewItem) : Prop where
  /-- No spare entry that is dealt out names a finding. -/
  spare : forall entry, entry ∈ dealt (findings.map RequirementReviewItem.id)
      (replyEntries isFraction raw) ->
    ¬ Names (findings.map RequirementReviewItem.id) entry.1
  trailing : Plain raw findings -> BlanksTrail isFraction raw
  lone : forall finding, findings = [finding] -> LoneNamed isFraction raw finding

/-- A batched reply reaches the findings it was written for exactly when it is routable. -/
theorem coerceChunkRecommendations_law (isFraction : num -> Bool) (raw : Json num)
    (findings : List RequirementReviewItem)
    (hnodup : (findings.map RequirementReviewItem.id).Nodup) :
    RoutingLaw isFraction raw findings <-> Routable isFraction raw findings := by
  constructor
  · intro h
    constructor
    · exact routes_own_iff.mp h.own
    · intro hplain
      exact (positional_iff hnodup hplain).mp (h.positional hplain)
    · intro finding hone
      exact agrees_iff.mp (h.single finding hone)
  · intro h
    constructor
    · refine ⟨coerceChunkRecommendations_eq hnodup, nodup_routes_ids hnodup,
        nodup_routes_entries, ?_⟩
      intro route hroute
      exact mem_routes hroute
    · intro finding hfinding hne entry hfind
      have hids : finding.id ∈ findings.map RequirementReviewItem.id :=
        List.mem_map.mpr ⟨finding, hfinding, rfl⟩
      rcases routes_named hids hne hfind with ⟨place, hroute⟩
      exact (lookup_coerceChunk hnodup).mpr ⟨_, hroute, rfl, rfl⟩
    · exact routes_own_iff.mpr h.spare
    · intro hall hdistinct raw' hperm id
      exact lookup_perm hnodup hperm hall hdistinct id
    · intro hplain
      exact (positional_iff hnodup hplain).mpr (h.trailing hplain)
    · intro finding hone
      exact agrees_iff.mpr (h.lone finding hone)

def entryOf (itemId recommendation : String) : Json Nat :=
  .object [(stringUnits "itemId", .string (stringUnits itemId)),
    (stringUnits "recommendation", .string (stringUnits recommendation))]

def twoFindings : List RequirementReviewItem :=
  [{ id := stringUnits "rev_a" }, { id := stringUnits "rev_b" }]

/-- Out of order, the second without its id. -/
def routableReply : Json Nat :=
  .object [(stringUnits "recommendations", .array [entryOf "rev_b" "two", entryOf "" "one"])]

theorem coerceChunkRecommendations_law_swapped :
    RoutingLaw (fun n => n <= 1) routableReply twoFindings ∧
      (coerceChunkRecommendations (fun n => n <= 1) routableReply twoFindings).map
        (fun given => (given.1, given.2.recommendation)) =
          [(stringUnits "rev_b", stringUnits "two"), (stringUnits "rev_a", stringUnits "one")] := by
  constructor
  · apply (coerceChunkRecommendations_law _ routableReply twoFindings (by decide +kernel)).mpr
    constructor
    · decide +kernel
    · intro hplain
      exact absurd (hplain.unnamed (entryOf "rev_b" "two") List.mem_cons_self) (by decide +kernel)
    · intro finding hone
      cases hone
  · decide +kernel

/-- The first of two findings is left blank, in the order of the prompt. -/
def blankReply : Json Nat :=
  .array [entryOf "" " ", entryOf "" "two"]

/-- The first of two findings is answered twice. -/
def repeatedReply : Json Nat :=
  .array [entryOf "rev_a" "one", entryOf "rev_a" "again"]

theorem not_coerceChunkRecommendations_law :
    ¬ RoutingLaw (fun n => n <= 1) blankReply twoFindings ∧
      ¬ RoutingLaw (fun n => n <= 1) repeatedReply twoFindings := by
  constructor
  · intro h
    have hplain : Plain blankReply twoFindings :=
      { size := rfl
        unnamed := by decide +kernel }
    have hown := h.positional hplain 0 { id := stringUnits "rev_a" } rfl
    exact absurd hown (by decide +kernel)
  · intro h
    have hown := h.own (stringUnits "rev_b",
      ({ itemId := stringUnits "rev_a"
         suggestion :=
           { recommendation := stringUnits "again"
             fromStandard := none
             groundedIn := none
             confidence := none } }, 1)) (by decide +kernel) (by decide +kernel)
    exact absurd hown (by decide +kernel)

end Requirements
end CatFactory
