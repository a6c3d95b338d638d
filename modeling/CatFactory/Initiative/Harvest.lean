import CatFactory.Initiative.Facts

/-!
# Harvesting the follow-ups of settled runs

A settled run hands its follow-ups to the tracker, each under an identifier
slugged from the task's and its own.  Harvesting again changes nothing, and what
the tracker holds already stays; but a slug forgets punctuation, case and
everything past its length, so two follow-ups may fall under one identifier.
-/

namespace CatFactory
namespace Initiatives

open Foundation

/-!
## The words of a slug
-/

/-- The word a text begins with, and the words after it. -/
def leadingWord : List Char -> List Char × List (List Char)
  | [] => ([], [])
  | c :: rest =>
      let (word, words) := leadingWord rest
      if isSlugChar c then (c :: word, words)
      else ([], if word = [] then words else word :: words)

/-- The maximal runs of letters and digits. -/
def wordsOf (cs : List Char) : List (List Char) :=
  let (word, words) := leadingWord cs
  if word = [] then words else word :: words

def joinWords : List (List Char) -> List Char
  | [] => []
  | [word] => word
  | word :: next :: rest => word ++ '-' :: joinWords (next :: rest)

/-- A text as a slug reads it: its words in lower case, joined by dashes and cut; a
text without words has a reading of its own. -/
def slugReading (text : String) : List Char :=
  let reading := (joinWords (wordsOf (toLowerCase text).toList)).take 60
  if reading = [] then "initiative".toList else reading

theorem leadingWord_words (cs : List Char) :
    (forall c, c ∈ (leadingWord cs).1 -> isSlugChar c = true) ∧
      forall word, word ∈ (leadingWord cs).2 ->
        word ≠ [] ∧ forall c, c ∈ word -> isSlugChar c = true := by
  induction cs with
  | nil => simp [leadingWord]
  | cons c rest ih =>
      rcases ih with ⟨hword, hwords⟩
      simp only [leadingWord]
      split
      · rename_i hc
        refine ⟨?_, hwords⟩
        intro d hd
        rcases List.mem_cons.mp hd with rfl | hd
        · exact hc
        · exact hword d hd
      · refine ⟨by simp, ?_⟩
        intro word hmem
        split at hmem
        · exact hwords word hmem
        · rename_i hne
          rcases List.mem_cons.mp hmem with rfl | hmem
          · exact ⟨hne, hword⟩
          · exact hwords word hmem

theorem wordsOf_words {cs word : List Char} (h : word ∈ wordsOf cs) :
    word ≠ [] ∧ forall c, c ∈ word -> isSlugChar c = true := by
  rcases leadingWord_words cs with ⟨hword, hwords⟩
  unfold wordsOf at h
  simp only at h
  split at h
  · exact hwords word h
  · rename_i hne
    rcases List.mem_cons.mp h with rfl | h
    · exact ⟨hne, hword⟩
    · exact hwords word h

/-- After its leading word a dashed text is empty, or a dash and the joined words,
with a dash behind them where the text ends in none. -/
theorem dashRuns_eq (cs : List Char) :
    exists tail, dashRuns cs = (leadingWord cs).1 ++ tail ∧
      (tail = [] ∧ (leadingWord cs).2 = [] ∨
        exists back, (forall c, c ∈ back -> c = '-') ∧
          tail = '-' :: (joinWords (leadingWord cs).2 ++ back)) := by
  induction cs with
  | nil => exact ⟨[], rfl, Or.inl ⟨rfl, rfl⟩⟩
  | cons c rest ih =>
      rcases ih with ⟨tail, hrest, htail⟩
      by_cases hc : isSlugChar c = true
      · refine ⟨tail, ?_, ?_⟩
        · simp only [dashRuns, leadingWord, hc, if_true, hrest, List.cons_append]
        · simpa only [leadingWord, hc, if_true] using htail
      · have hlead : (leadingWord (c :: rest)).1 = [] := by
          simp only [leadingWord, hc, if_false, Bool.false_eq_true]
        have hwords : (leadingWord (c :: rest)).2 = wordsOf rest := by
          simp only [leadingWord, hc, if_false, Bool.false_eq_true, wordsOf]
        rw [hlead, hwords]
        cases hword : (leadingWord rest).1 with
        | nil =>
            have hafter : wordsOf rest = (leadingWord rest).2 := by simp [wordsOf, hword]
            rw [hword, List.nil_append] at hrest
            rcases htail with ⟨rfl, hnone⟩ | ⟨back, hback, rfl⟩
            · refine ⟨['-'], ?_, Or.inr ⟨[], by simp, ?_⟩⟩
              · simp [dashRuns, hc, hrest]
              · rw [hafter, hnone]
                rfl
            · refine ⟨_, ?_, Or.inr ⟨back, hback, rfl⟩⟩
              simp [dashRuns, hc, hrest, hafter]
        | cons d word =>
            have hd : isSlugChar d = true :=
              (leadingWord_words rest).1 d (by rw [hword]; exact List.mem_cons_self)
            have hne : d ≠ '-' := by
              rintro rfl
              exact absurd hd (by decide)
            have hafter : wordsOf rest = (d :: word) :: (leadingWord rest).2 := by
              simp [wordsOf, hword]
            have hdashed : dashRuns (c :: rest) = '-' :: dashRuns rest := by
              rw [hrest, hword]
              simp only [dashRuns, hc, if_false, Bool.false_eq_true]
              rw [hrest, hword, List.cons_append]
              split
              · rename_i heq
                injection heq with heq
                exact absurd heq hne
              · rfl
            rw [hdashed, hrest, hword, hafter]
            rcases htail with ⟨rfl, hnone⟩ | ⟨back, hback, rfl⟩
            · refine ⟨_, rfl, Or.inr ⟨[], by simp, ?_⟩⟩
              rw [hnone]
              rfl
            · cases hmore : (leadingWord rest).2 with
              | nil =>
                  refine ⟨_, rfl, Or.inr ⟨'-' :: back, ?_, rfl⟩⟩
                  intro e he
                  rcases List.mem_cons.mp he with rfl | he
                  · rfl
                  · exact hback e he
              | cons next more =>
                  refine ⟨_, rfl, Or.inr ⟨back, hback, ?_⟩⟩
                  simp [joinWords]

/-- Joined words begin and end with a character of a word. -/
theorem joinWords_ends {words : List (List Char)}
    (h : forall word, word ∈ words ->
      word ≠ [] ∧ forall c, c ∈ word -> isSlugChar c = true) :
    (forall c, (joinWords words).head? = some c -> isSlugChar c = true) ∧
      forall c, (joinWords words).getLast? = some c -> isSlugChar c = true := by
  induction words with
  | nil => simp [joinWords]
  | cons word rest ih =>
      rcases h word List.mem_cons_self with ⟨hne, hword⟩
      have hrest := ih fun other hother => h other (List.mem_cons_of_mem _ hother)
      cases rest with
      | nil =>
          constructor
          · intro c hc
            exact hword c (List.mem_of_head? hc)
          · intro c hc
            exact hword c (List.mem_of_getLast? hc)
      | cons next more =>
          constructor
          · intro c hc
            have hfront : (joinWords (word :: next :: more)).head? = word.head? := by
              cases word with
              | nil => exact absurd rfl hne
              | cons d word => rfl
            rw [hfront] at hc
            exact hword c (List.mem_of_head? hc)
          · intro c hc
            have hnext : joinWords (next :: more) ≠ [] := by
              have hfull := (h next (by simp)).1
              cases more with
              | nil => exact hfull
              | cons other more =>
                  unfold joinWords
                  simp
            have hback : (joinWords (word :: next :: more)).getLast? =
                (joinWords (next :: more)).getLast? := by
              show (word ++ '-' :: joinWords (next :: more)).getLast? = _
              rw [List.getLast?_append, List.getLast?_cons]
              cases hlast : (joinWords (next :: more)).getLast? with
              | none => exact absurd (List.getLast?_eq_none_iff.mp hlast) hnext
              | some e => simp
            rw [hback] at hc
            exact hrest.2 c hc

/-- The dashes at the ends go, the words stay. -/
theorem trim_dashRuns (cs : List Char) :
    trimChars (fun c => c = '-') (dashRuns cs) = joinWords (wordsOf cs) := by
  have hends := joinWords_ends fun _ h => @wordsOf_words cs _ h
  have hclean : trimChars (fun c => decide (c = '-')) (joinWords (wordsOf cs)) =
      joinWords (wordsOf cs) := by
    apply trimChars_of_ends
    · intro c hc
      exact decide_eq_false fun h => absurd (h ▸ hends.1 c hc) (by decide)
    · intro c hc
      exact decide_eq_false fun h => absurd (h ▸ hends.2 c hc) (by decide)
  have hsurround {front back : List Char} (hfront : forall c, c ∈ front -> c = '-')
      (hback : forall c, c ∈ back -> c = '-')
      (h : dashRuns cs = front ++ joinWords (wordsOf cs) ++ back) :
      trimChars (fun c => decide (c = '-')) (dashRuns cs) = joinWords (wordsOf cs) := by
    rw [h]
    refine (trimChars_surround ?_ ?_ _).trans hclean
    · intro c hc
      exact decide_eq_true (hfront c hc)
    · intro c hc
      exact decide_eq_true (hback c hc)
  rcases dashRuns_eq cs with ⟨tail, hdashed, htail⟩
  cases hword : (leadingWord cs).1 with
  | nil =>
      have hwords : wordsOf cs = (leadingWord cs).2 := by simp [wordsOf, hword]
      rw [hword, List.nil_append] at hdashed
      rcases htail with ⟨rfl, hnone⟩ | ⟨back, hback, rfl⟩
      · apply @hsurround [] []
        · simp
        · simp
        · rw [hdashed, hwords, hnone]
          rfl
      · apply @hsurround ['-'] back
        · simp
        · exact hback
        · rw [hdashed, hwords]
          rfl
  | cons d word =>
      have hwords : wordsOf cs = (d :: word) :: (leadingWord cs).2 := by
        simp [wordsOf, hword]
      rcases htail with ⟨rfl, hnone⟩ | ⟨back, hback, rfl⟩
      · apply @hsurround [] []
        · simp
        · simp
        · rw [hdashed, hwords, hnone, hword]
          simp [joinWords]
      · cases hmore : (leadingWord cs).2 with
        | nil =>
            apply @hsurround [] ('-' :: back)
            · simp
            · simpa using hback
            · rw [hdashed, hwords, hmore, hword]
              simp [joinWords]
        | cons next more =>
            apply @hsurround [] back
            · simp
            · exact hback
            · rw [hdashed, hwords, hmore, hword]
              simp [joinWords]

theorem initiativeSlug_eq (title : String) :
    initiativeSlug title = String.ofList (slugReading title) := by
  unfold initiativeSlug slugReading
  simp only [decodeUnits_stringUnits, trim_dashRuns]
  split
  · rw [String.ofList_toList]
  · rfl

/-- Two follow-ups fall under one identifier when their texts read alike. -/
theorem harvestFollowUpId_eq_iff {childBlockId sourceId childBlockId' sourceId' : String} :
    harvestFollowUpId childBlockId sourceId = harvestFollowUpId childBlockId' sourceId' <->
      slugReading (childBlockId ++ "-" ++ sourceId) =
        slugReading (childBlockId' ++ "-" ++ sourceId') := by
  unfold harvestFollowUpId
  rw [initiativeSlug_eq, initiativeSlug_eq]
  constructor
  · intro h
    have hlists := congrArg String.toList h
    rw [String.toList_append, String.toList_append, List.append_cancel_left_eq] at hlists
    simpa using hlists
  · intro h
    rw [h]

/-!
## One harvest
-/

/-- The identifiers that a harvest adds are those it carries and has not seen. -/
theorem mem_ids_harvestAdditions {childBlockId : String} {sourceItemId : Option String}
    {now : Nat} {followUps : List HarvestedFollowUp} {seen : List String} {id : String} :
    id ∈ (harvestAdditions childBlockId sourceItemId now followUps seen).map
        InitiativeFollowUp.id <->
      id ∉ seen ∧ exists fu, fu ∈ followUps ∧ harvestFollowUpId childBlockId fu.sourceId = id := by
  induction followUps generalizing seen with
  | nil => simp [harvestAdditions]
  | cons fu rest ih =>
      unfold harvestAdditions
      simp only
      split
      · rename_i hseen
        rw [ih]
        constructor
        · rintro ⟨hnew, other, hother, hid⟩
          exact ⟨hnew, other, List.mem_cons_of_mem _ hother, hid⟩
        · rintro ⟨hnew, other, hother, hid⟩
          rcases List.mem_cons.mp hother with rfl | hother
          · rw [hid] at hseen
            exact absurd hseen hnew
          · exact ⟨hnew, other, hother, hid⟩
      · rename_i hfresh
        rw [List.map_cons, List.mem_cons, ih]
        constructor
        · rintro (rfl | ⟨hnew, other, hother, hid⟩)
          · exact ⟨hfresh, fu, List.mem_cons_self, rfl⟩
          · exact ⟨fun h => hnew (List.mem_cons_of_mem _ h), other,
              List.mem_cons_of_mem _ hother, hid⟩
        · rintro ⟨hnew, other, hother, hid⟩
          by_cases hsame : id = harvestFollowUpId childBlockId fu.sourceId
          · exact Or.inl hsame
          · right
            refine ⟨?_, other, ?_, hid⟩
            · intro h
              rcases List.mem_cons.mp h with h | h
              · exact hsame h
              · exact hnew h
            · rcases List.mem_cons.mp hother with rfl | hother
              · exact absurd hid.symm hsame
              · exact hother

/-- A harvest whose follow-ups were all seen adds none. -/
theorem harvestAdditions_eq_nil {childBlockId : String} {sourceItemId : Option String}
    {now : Nat} {followUps : List HarvestedFollowUp} {seen : List String}
    (h : forall fu, fu ∈ followUps -> harvestFollowUpId childBlockId fu.sourceId ∈ seen) :
    harvestAdditions childBlockId sourceItemId now followUps seen = [] := by
  have hnone : (harvestAdditions childBlockId sourceItemId now followUps seen).map
      InitiativeFollowUp.id = [] := by
    apply List.eq_nil_iff_forall_not_mem.mpr
    intro id hid
    rcases mem_ids_harvestAdditions.mp hid with ⟨hnew, fu, hfu, rfl⟩
    exact hnew (h fu hfu)
  exact List.map_eq_nil_iff.mp hnone

/-- Every follow-up of a harvest is in the tracker after it. -/
theorem harvested_mem {initiative : Initiative} {harvest : InitiativeRunHarvest} {now : Nat}
    {fu : HarvestedFollowUp} (h : fu ∈ harvest.followUps) :
    harvestFollowUpId harvest.childBlockId fu.sourceId ∈
      (applyRunHarvest initiative harvest now).followUps.map InitiativeFollowUp.id := by
  show _ ∈ (initiative.followUps ++ harvestAdditions _ _ _ _ _).map InitiativeFollowUp.id
  rw [List.map_append, List.mem_append, mem_ids_harvestAdditions]
  by_cases hseen : harvestFollowUpId harvest.childBlockId fu.sourceId ∈
      initiative.followUps.map InitiativeFollowUp.id
  · exact Or.inl hseen
  · exact Or.inr ⟨hseen, fu, h, rfl⟩

theorem notedItem_blockId (owner : Option InitiativeItem) (failure : Option RunFailureCause)
    (item : InitiativeItem) : (notedItem owner failure item).blockId = item.blockId := by
  rw [notedItem_eq]

/-- A note changes on the owner of a failed run alone. -/
theorem notedItem_note {owner : Option InitiativeItem} {failure : Option RunFailureCause}
    {item : InitiativeItem} (h : (notedItem owner failure item).note ≠ item.note) :
    failure.isSome = true ∧ owner.map InitiativeItem.id = some item.id := by
  cases owner with
  | none => exact absurd rfl h
  | some owner =>
      cases failure with
      | none => exact absurd rfl h
      | some failure =>
          by_cases hnoted : owner.note ≠ some (failureNote failure) ∧ item.id = owner.id
          · rw [hnoted.2]
            exact ⟨rfl, rfl⟩
          · simp only [notedItem, if_neg hnoted] at h
            exact absurd rfl h

/-- What an owner has noted is not noted again. -/
theorem notedItem_again (owner : Option InitiativeItem) (failure : Option RunFailureCause)
    (item : InitiativeItem) :
    notedItem (owner.map (notedItem owner failure)) failure item = item := by
  cases owner with
  | none => rfl
  | some owner =>
      cases failure with
      | none => rfl
      | some failure =>
          have hnote : (notedItem (some owner) (some failure) owner).note =
              some (failureNote failure) := by
            unfold notedItem
            simp only [and_true]
            split
            · rfl
            · exact not_not.mp ‹_›
          rw [Option.map_some]
          generalize notedItem (some owner) (some failure) owner = owner' at hnote
          simp only [notedItem, hnote, ne_eq, not_true_eq_false, false_and, if_false]

/-- A harvest leaves the owner where it was. -/
theorem harvestOwner_again (initiative : Initiative) (harvest : InitiativeRunHarvest)
    (now : Nat) :
    harvestOwner (applyRunHarvest initiative harvest now) harvest =
      (harvestOwner initiative harvest).map
        (notedItem (harvestOwner initiative harvest) harvest.failure) := by
  have hblock : ((fun i : InitiativeItem => decide (i.blockId = some harvest.childBlockId)) ∘
      notedItem (harvestOwner initiative harvest) harvest.failure) =
        fun i => decide (i.blockId = some harvest.childBlockId) := by
    funext item
    rw [Function.comp_apply, notedItem_blockId]
  rw [harvestOwner, applyRunHarvest_items, List.find?_map, hblock]
  rfl

/-- What harvesting a run promises. -/
structure HarvestLaw (initiative : Initiative) (harvest : InitiativeRunHarvest) (now : Nat) :
    Prop where
  replay : forall later,
    applyRunHarvest (applyRunHarvest initiative harvest now) harvest later =
      applyRunHarvest initiative harvest now
  /-- The tracker's follow-ups stay as they are, before the new ones. -/
  followUps : initiative.followUps <+: (applyRunHarvest initiative harvest now).followUps
  /-- Every item stays as it is, but for a note on the owner of a failed run. -/
  items : exists note : InitiativeItem -> Option Utf16,
    (applyRunHarvest initiative harvest now).items =
        initiative.items.map (fun item => { item with note := note item }) ∧
      forall item, note item ≠ item.note ->
        harvest.failure.isSome = true ∧
          (harvestOwner initiative harvest).map InitiativeItem.id = some item.id

theorem applyRunHarvest_law (initiative : Initiative) (harvest : InitiativeRunHarvest)
    (now : Nat) : HarvestLaw initiative harvest now where
  replay := by
    intro later
    have hitems : (applyRunHarvest (applyRunHarvest initiative harvest now) harvest later).items =
        (applyRunHarvest initiative harvest now).items := by
      rw [applyRunHarvest_items, harvestOwner_again]
      conv_rhs => rw [<- List.map_id (applyRunHarvest initiative harvest now).items]
      apply List.map_congr_left
      intro item _
      exact notedItem_again _ _ item
    have hfollowUps :
        (applyRunHarvest (applyRunHarvest initiative harvest now) harvest later).followUps =
          (applyRunHarvest initiative harvest now).followUps := by
      show (applyRunHarvest initiative harvest now).followUps ++ harvestAdditions _ _ _ _ _ = _
      rw [harvestAdditions_eq_nil fun fu hfu => harvested_mem hfu, List.append_nil]
    generalize hfirst : applyRunHarvest initiative harvest now = first at *
    show { first with items := _, followUps := _ } = first
    have hkept : { first with
        items := (applyRunHarvest first harvest later).items
        followUps := (applyRunHarvest first harvest later).followUps } = first := by
      rw [hitems, hfollowUps]
    exact hkept
  followUps := List.prefix_append _ _
  items := by
    refine ⟨fun item => (notedItem (harvestOwner initiative harvest) harvest.failure item).note,
      ?_, ?_⟩
    · rw [applyRunHarvest_items]
      apply List.map_congr_left
      intro item _
      exact notedItem_eq _ _ item
    · intro item hnote
      exact notedItem_note hnote

/-!
## Any number of harvests
-/

def harvestAll (initiative : Initiative) (harvests : List (InitiativeRunHarvest × Nat)) :
    Initiative :=
  harvests.foldl (fun current entry => applyRunHarvest current entry.1 entry.2) initiative

/-- The task and the follow-up of everything harvested. -/
def harvestedPairs (harvests : List (InitiativeRunHarvest × Nat)) : List (String × String) :=
  harvests.flatMap fun entry =>
    entry.1.followUps.map fun fu => (entry.1.childBlockId, fu.sourceId)

theorem harvestAll_followUps (initiative : Initiative)
    (harvests : List (InitiativeRunHarvest × Nat)) :
    initiative.followUps <+: (harvestAll initiative harvests).followUps := by
  induction harvests generalizing initiative with
  | nil => exact List.prefix_rfl
  | cons entry rest ih =>
      exact (applyRunHarvest_law initiative entry.1 entry.2).followUps.trans (ih _)

/-- Everything harvested is in the tracker, under its identifier. -/
theorem harvestedPairs_mem {initiative : Initiative}
    {harvests : List (InitiativeRunHarvest × Nat)} {pair : String × String}
    (h : pair ∈ harvestedPairs harvests) :
    harvestFollowUpId pair.1 pair.2 ∈
      (harvestAll initiative harvests).followUps.map InitiativeFollowUp.id := by
  induction harvests generalizing initiative with
  | nil => cases h
  | cons entry rest ih =>
      have hall : harvestAll initiative (entry :: rest) =
          harvestAll (applyRunHarvest initiative entry.1 entry.2) rest := rfl
      rw [hall]
      rcases List.mem_append.mp h with hnow | hlater
      · rcases List.mem_map.mp hnow with ⟨fu, hfu, rfl⟩
        have hkept := harvestAll_followUps (applyRunHarvest initiative entry.1 entry.2) rest
        exact (hkept.map _).subset (harvested_mem hfu)
      · exact ih hlater

/-- Each harvest keeps its law, and each pair has a follow-up of its own. -/
structure HarvestsKept (initiative : Initiative)
    (harvests : List (InitiativeRunHarvest × Nat)) : Prop where
  laws : forall before harvest now after, harvests = before ++ (harvest, now) :: after ->
    HarvestLaw (harvestAll initiative before) harvest now
  own : exists followUpOf : String × String -> InitiativeFollowUp,
    (forall pair, pair ∈ harvestedPairs harvests ->
      followUpOf pair ∈ (harvestAll initiative harvests).followUps ∧
        (followUpOf pair).id = harvestFollowUpId pair.1 pair.2) ∧
    forall pair other, pair ∈ harvestedPairs harvests -> other ∈ harvestedPairs harvests ->
      (followUpOf pair).id = (followUpOf other).id -> pair = other

/-- No two harvested pairs read alike. -/
def ReadApart (harvests : List (InitiativeRunHarvest × Nat)) : Prop :=
  forall pair other, pair ∈ harvestedPairs harvests -> other ∈ harvestedPairs harvests ->
    slugReading (pair.1 ++ "-" ++ pair.2) = slugReading (other.1 ++ "-" ++ other.2) ->
      pair = other

/-!
## Identifiers as they are minted
-/

def isHexDigit (c : Char) : Bool :=
  ('a' ≤ c && c ≤ 'f') || ('0' ≤ c && c ≤ '9')

/-- `next(kind)`: the kind and up to 24 hexadecimal digits. -/
structure Minted (kind id : String) (digits : List Char) : Prop where
  spelled : id = kind ++ "_" ++ String.ofList digits
  some : digits ≠ []
  few : digits.length ≤ 24
  hex : forall c, c ∈ digits -> isHexDigit c = true

theorem isSlugChar_of_hex {c : Char} (h : isHexDigit c = true) : isSlugChar c = true := by
  unfold isHexDigit at h
  unfold isSlugChar
  rw [Bool.or_eq_true, Bool.and_eq_true, Bool.and_eq_true] at h ⊢
  rcases h with ⟨hlow, hhigh⟩ | hdigit
  · have hz : ('f' : Char) ≤ 'z' := by decide
    exact Or.inl ⟨hlow, decide_eq_true (Char.le_trans (of_decide_eq_true hhigh) hz)⟩
  · exact Or.inr hdigit

theorem leadingWord_append {word : List Char} (h : forall c, c ∈ word -> isSlugChar c = true)
    (rest : List Char) :
    leadingWord (word ++ rest) = (word ++ (leadingWord rest).1, (leadingWord rest).2) := by
  induction word with
  | nil => rfl
  | cons c word ih =>
      have hrest := ih fun d hd => h d (List.mem_cons_of_mem _ hd)
      rw [List.cons_append]
      simp only [leadingWord, hrest, h c List.mem_cons_self, if_true, List.cons_append]

/-- A word is cut off at the character after it. -/
theorem wordsOf_word {word : List Char} {c : Char} (hne : word ≠ [])
    (h : forall c, c ∈ word -> isSlugChar c = true) (hc : isSlugChar c = false)
    (rest : List Char) : wordsOf (word ++ c :: rest) = word :: wordsOf rest := by
  unfold wordsOf
  simp only [leadingWord_append h, leadingWord, hc, Bool.false_eq_true, if_false,
    List.append_nil, hne]

theorem wordsOf_last {word : List Char} (hne : word ≠ [])
    (h : forall c, c ∈ word -> isSlugChar c = true) : wordsOf word = [word] := by
  unfold wordsOf
  have hword := leadingWord_append h []
  rw [List.append_nil] at hword
  simp only [hword, leadingWord, List.append_nil, hne, if_false]

/-- The codes of the characters a slug keeps. -/
theorem slugChar_code {c : Char} (h : isSlugChar c = true) :
    97 ≤ c.toNat ∧ c.toNat ≤ 122 ∨ 48 ≤ c.toNat ∧ c.toNat ≤ 57 := by
  unfold isSlugChar at h
  rw [Bool.or_eq_true, Bool.and_eq_true, Bool.and_eq_true] at h
  have hcode {low high : Char} (hlow : decide (low ≤ c) = true)
      (hhigh : decide (c ≤ high) = true) : low.toNat ≤ c.toNat ∧ c.toNat ≤ high.toNat :=
    ⟨UInt32.le_iff_toNat_le.mp (of_decide_eq_true hlow),
      UInt32.le_iff_toNat_le.mp (of_decide_eq_true hhigh)⟩
  rcases h with ⟨hlow, hhigh⟩ | ⟨hlow, hhigh⟩
  · exact Or.inl (hcode hlow hhigh)
  · exact Or.inr (hcode hlow hhigh)

theorem lowerChar_of_slug {c : Char} (h : isSlugChar c = true) : lowerChar c = [c] := by
  have hcode := slugChar_code h
  have hkelvin : c ≠ Char.ofNat 0x212A := by
    rintro rfl
    revert hcode
    decide
  have hdotted : c ≠ Char.ofNat 0x0130 := by
    rintro rfl
    revert hcode
    decide
  have hlower : c.toLower = c := by
    unfold Char.toLower
    rw [dif_neg]
    rintro ⟨hlow, hhigh⟩
    have hlow' : 65 ≤ c.toNat := UInt32.le_iff_toNat_le.mp hlow
    have hhigh' : c.toNat ≤ 90 := UInt32.le_iff_toNat_le.mp hhigh
    omega
  unfold lowerChar
  rw [if_neg hkelvin, if_neg hdotted, hlower]

/-- Lower case leaves words and the separators of an identifier alone. -/
theorem toLowerCase_of_plain {text : String}
    (h : forall c, c ∈ text.toList -> isSlugChar c = true ∨ c = '_' ∨ c = '-') :
    toLowerCase text = text := by
  unfold toLowerCase
  have hsame : text.toList.flatMap lowerChar = text.toList := by
    have hsingle : text.toList.flatMap lowerChar = text.toList.flatMap fun c => [c] := by
      apply List.flatMap_congr
      intro c hc
      rcases h c hc with hslug | rfl | rfl
      · exact lowerChar_of_slug hslug
      · rfl
      · rfl
    rw [hsingle]
    exact List.flatMap_singleton' _
  rw [hsame, String.ofList_toList]

/-- A task's and a follow-up's minted identifiers are read in full. -/
theorem slugReading_minted {blockId sourceId : String} {block source : List Char}
    (hblock : Minted "blk" blockId block) (hsource : Minted "fu" sourceId source) :
    slugReading (blockId ++ "-" ++ sourceId) =
      "blk".toList ++ '-' :: (block ++ '-' :: ("fu".toList ++ '-' :: source)) := by
  have hslugBlock : forall c, c ∈ block -> isSlugChar c = true :=
    fun c hc => isSlugChar_of_hex (hblock.hex c hc)
  have hslugSource : forall c, c ∈ source -> isSlugChar c = true :=
    fun c hc => isSlugChar_of_hex (hsource.hex c hc)
  have hslugTask : forall c, c ∈ "blk".toList -> isSlugChar c = true :=
    List.all_eq_true.mp (by decide)
  have hslugFollowUp : forall c, c ∈ "fu".toList -> isSlugChar c = true :=
    List.all_eq_true.mp (by decide)
  have hlist : (blockId ++ "-" ++ sourceId).toList =
      "blk".toList ++ '_' :: (block ++ '-' :: ("fu".toList ++ '_' :: source)) := by
    rw [hblock.spelled, hsource.spelled]
    simp
  have hlower : toLowerCase (blockId ++ "-" ++ sourceId) = blockId ++ "-" ++ sourceId := by
    apply toLowerCase_of_plain
    rw [hlist]
    intro c hc
    simp only [List.mem_append, List.mem_cons] at hc
    rcases hc with hc | rfl | hc | rfl | hc | rfl | hc
    · exact Or.inl (hslugTask c hc)
    · exact Or.inr (Or.inl rfl)
    · exact Or.inl (hslugBlock c hc)
    · exact Or.inr (Or.inr rfl)
    · exact Or.inl (hslugFollowUp c hc)
    · exact Or.inr (Or.inl rfl)
    · exact Or.inl (hslugSource c hc)
  have hwords : wordsOf (blockId ++ "-" ++ sourceId).toList =
      ["blk".toList, block, "fu".toList, source] := by
    rw [hlist, wordsOf_word (by decide) hslugTask (by decide),
      wordsOf_word hblock.some hslugBlock (by decide),
      wordsOf_word (by decide) hslugFollowUp (by decide), wordsOf_last hsource.some hslugSource]
  have hfew := hblock.few
  have hfew' := hsource.few
  unfold slugReading
  simp only [hlower, hwords, joinWords]
  rw [List.take_of_length_le, if_neg]
  · simp
  · simp
    omega

/-- No two minted pairs read alike. -/
theorem minted_pair_eq {pair other : String × String}
    (hpair : exists block source, Minted "blk" pair.1 block ∧ Minted "fu" pair.2 source)
    (hother : exists block source, Minted "blk" other.1 block ∧ Minted "fu" other.2 source)
    (h : slugReading (pair.1 ++ "-" ++ pair.2) = slugReading (other.1 ++ "-" ++ other.2)) :
    pair = other := by
  rcases hpair with ⟨block, source, hblock, hsource⟩
  rcases hother with ⟨block', source', hblock', hsource'⟩
  rw [slugReading_minted hblock hsource, slugReading_minted hblock' hsource',
    List.append_cancel_left_eq, List.cons.injEq] at h
  have hdash {digits : List Char} (hhex : forall c, c ∈ digits -> isHexDigit c = true) :
      '-' ∉ digits := fun hmem => absurd (hhex _ hmem) (by decide)
  have hcut {front rest : List Char} (hfront : '-' ∉ front) :
      (front ++ '-' :: rest).takeWhile (fun c => c ≠ '-') = front := by
    rw [List.takeWhile_append_of_pos]
    · simp
    · intro c hc
      exact decide_eq_true fun hsame => hfront (hsame ▸ hc)
  have hblocks : block = block' := by
    have hfirst := congrArg (List.takeWhile fun c => decide (c ≠ '-')) h.2
    rwa [hcut (hdash hblock.hex), hcut (hdash hblock'.hex)] at hfirst
  subst hblocks
  have hsources : source = source' := by
    simpa using h.2
  subst hsources
  apply Prod.ext
  · rw [hblock.spelled, hblock'.spelled]
  · rw [hsource.spelled, hsource'.spelled]

/-!
## Follow-ups of their own
-/

theorem harvestsKept_iff (initiative : Initiative)
    (harvests : List (InitiativeRunHarvest × Nat)) :
    HarvestsKept initiative harvests <-> ReadApart harvests := by
  constructor
  · intro h pair other hpair hother hread
    rcases h.own with ⟨followUpOf, hin, hown⟩
    apply hown pair other hpair hother
    rw [(hin pair hpair).2, (hin other hother).2]
    exact harvestFollowUpId_eq_iff.mpr hread
  · intro hapart
    constructor
    · intro before harvest now _ _
      exact applyRunHarvest_law _ harvest now
    · have hchoice : forall pair : String × String, exists f : InitiativeFollowUp,
          pair ∈ harvestedPairs harvests ->
            f ∈ (harvestAll initiative harvests).followUps ∧
              f.id = harvestFollowUpId pair.1 pair.2 := by
        intro pair
        by_cases hpair : pair ∈ harvestedPairs harvests
        · rcases List.mem_map.mp (@harvestedPairs_mem initiative _ _ hpair) with ⟨f, hf, hid⟩
          exact ⟨f, fun _ => ⟨hf, hid⟩⟩
        · refine ⟨?_, fun h => absurd h hpair⟩
          exact
            { id := ""
              createdAt := 0
              sourceItemId := none
              title := ""
              detail := ""
              status := .open
              promotedItemId := none }
      rcases Classical.axiomOfChoice hchoice with ⟨followUpOf, hin⟩
      refine ⟨followUpOf, hin, ?_⟩
      intro pair other hpair hother hid
      rw [(hin pair hpair).2, (hin other hother).2] at hid
      exact hapart pair other hpair hother (harvestFollowUpId_eq_iff.mp hid)

/-- Every harvest keeps its law, and all that was harvested is in the tracker.  The
pairs that harvesting keeps apart are those that read apart, and identifiers as they
are minted do. -/
theorem harvestAll_law (initiative : Initiative)
    (harvests : List (InitiativeRunHarvest × Nat)) :
    (forall before harvest now after, harvests = before ++ (harvest, now) :: after ->
        HarvestLaw (harvestAll initiative before) harvest now) ∧
      (forall pair, pair ∈ harvestedPairs harvests ->
        harvestFollowUpId pair.1 pair.2 ∈
          (harvestAll initiative harvests).followUps.map InitiativeFollowUp.id) ∧
      (HarvestsKept initiative harvests <-> ReadApart harvests) ∧
      ((forall pair, pair ∈ harvestedPairs harvests ->
          exists block source, Minted "blk" pair.1 block ∧ Minted "fu" pair.2 source) ->
        HarvestsKept initiative harvests) := by
  refine ⟨fun before harvest now _ _ => applyRunHarvest_law _ harvest now,
    fun pair hpair => harvestedPairs_mem hpair, ?_, ?_⟩
  · exact harvestsKept_iff initiative harvests
  · intro hminted
    apply (harvestsKept_iff initiative harvests).mpr
    intro pair other hpair hother
    exact minted_pair_eq (hminted pair hpair) (hminted other hother)

/-- Two follow-ups of one run whose identifiers differ in punctuation. -/
def alikeHarvest : InitiativeRunHarvest where
  childBlockId := "blk-child-a"
  followUps :=
    [{ sourceId := "fu-1", title := "Extract the helper", detail := "", suggestedAction := none },
      { sourceId := "fu_1", title := "Drop the flag", detail := "", suggestedAction := none }]
  failure := none

/-- An initiative that executes and tracks nothing yet. -/
def untrackedInitiative : Initiative where
  goal := ""
  constraints := []
  nonGoals := []
  analysisSummary := ""
  phases := []
  items := []
  policy := none
  decisions := []
  deviations := []
  followUps := []
  caveats := []
  status := .executing
  doc := none
  rev := 0
  updatedAt := 0

theorem not_harvestsKept_alike :
    Not (HarvestsKept untrackedInitiative [(alikeHarvest, 1)]) := by
  rw [harvestsKept_iff]
  intro hapart
  have hsame := hapart ("blk-child-a", "fu-1") ("blk-child-a", "fu_1") (by decide) (by decide)
    (by decide +kernel)
  exact absurd hsame (by decide)

end Initiatives
end CatFactory
