import CatFactory.Forms.SectionRuns

/-!
# Which captions are refused

The check looks for three fields of which the middle one parts the section of the
others, and tells by pairs whether they are visible together.  A condition with
both predicates misleads it about a pair, and the caption is spelled as the first
field that opens such three has it.
-/

namespace CatFactory
namespace Forms

open Foundation

section Sections

variable {num : Type} [DecidableEq num] {lower : String -> String}

/-- Every two of three fields pass the check. -/
def CoexistThree (opener splitter candidate : SectionedField num) : Prop :=
  canCoexist opener splitter = true ∧ canCoexist opener candidate = true ∧
    canCoexist splitter candidate = true

/-- Two later fields part the section of the first, as far as the check tells. -/
def Opens (lower : String -> String) (key : String) (opener : SectionedField num)
    (rest : List (SectionedField num)) : Prop :=
  exists splitter candidate, [splitter, candidate].Sublist rest ∧
    Parts lower key opener splitter candidate ∧ CoexistThree opener splitter candidate

/-- How the first field that opens such three spells the caption. -/
inductive FirstOpener (lower : String -> String) (key : String) :
    List (SectionedField num) -> String -> Prop where
  | here {opener : SectionedField num} {rest : List (SectionedField num)} {caption : String}
      (declared : sectionOf lower opener = some { key := key, caption := caption })
      (opens : Opens lower key opener rest) : FirstOpener lower key (opener :: rest) caption
  | later {opener : SectionedField num} {rest : List (SectionedField num)} {caption : String}
      (closed : ¬ Opens lower key opener rest) (next : FirstOpener lower key rest caption) :
      FirstOpener lower key (opener :: rest) caption

/-- How the first field of a section spells its caption. -/
def firstSpelling (lower : String -> String) (fields : List (SectionedField num))
    (key : String) : Option String :=
  ((fields.filterMap (sectionOf lower)).find? fun declared => declared.key = key).map
    SectionKey.caption

/-!
## The loops
-/

theorem reopens_iff (opener splitter : SectionedField num) (key : String)
    (rest : List (SectionedField num)) :
    reopens lower opener splitter key rest = true <->
      exists candidate, candidate ∈ rest ∧ keyOf lower candidate = some key ∧
        canCoexist opener candidate = true ∧ canCoexist splitter candidate = true := by
  rw [reopens, List.any_eq_true]
  simp only [Bool.and_eq_true, decide_eq_true_eq, and_assoc]

theorem splits_iff {opener : SectionedField num} {key : String}
    (hkey : keyOf lower opener = some key) (rest : List (SectionedField num)) :
    splits lower opener key rest = true <-> Opens lower key opener rest := by
  induction rest with
  | nil =>
      constructor
      · intro h
        cases h
      · intro h
        rcases h with ⟨splitter, candidate, hsub, _⟩
        cases hsub
  | cons splitter rest ih =>
      -- the three that have another splitter are found further on
      have hlater : Opens lower key opener (splitter :: rest) <->
          (keyOf lower splitter ≠ some key ∧ canCoexist opener splitter = true ∧
            reopens lower opener splitter key rest = true) ∨ Opens lower key opener rest := by
        rw [reopens_iff]
        constructor
        · intro h
          rcases h with ⟨splitter', candidate, hsub, hparts, hfirst, hsecond, hthird⟩
          cases hsub with
          | cons _ hrest =>
              exact Or.inr ⟨splitter', candidate, hrest, hparts, hfirst, hsecond, hthird⟩
          | cons_cons _ hrest =>
              left
              exact ⟨hparts.right.left, hfirst, candidate, List.singleton_sublist.mp hrest,
                hparts.right.right, hsecond, hthird⟩
        · intro h
          rcases h with ⟨hother, hfirst, candidate, hmem, hcandidate, hsecond, hthird⟩ | h
          · exact ⟨splitter, candidate, (List.singleton_sublist.mpr hmem).cons_cons splitter,
              ⟨hkey, hother, hcandidate⟩, hfirst, hsecond, hthird⟩
          · rcases h with ⟨splitter', candidate, hsub, h⟩
            exact ⟨splitter', candidate, hsub.cons splitter, h⟩
      rw [hlater, ← ih, splits]
      by_cases hother : keyOf lower splitter = some key
      · simp [hother]
      · cases hcoexist : canCoexist opener splitter with
        | false => simp [hother]
        | true =>
            cases hreopens : reopens lower opener splitter key rest with
            | false => simp [hother]
            | true => simp [hother]

omit [DecidableEq num] in
theorem keyOf_eq_some {field : SectionedField num} {declared : SectionKey}
    (h : sectionOf lower field = some declared) : keyOf lower field = some declared.key := by
  rw [keyOf, h]
  rfl

theorem FirstOpener.unique {key : String} {fields : List (SectionedField num)}
    {caption caption' : String} (h : FirstOpener lower key fields caption)
    (h' : FirstOpener lower key fields caption') : caption = caption' := by
  induction h with
  | here declared opens =>
      cases h' with
      | here declared' _ =>
          rw [declared] at declared'
          cases declared'
          rfl
      | later closed _ => exact absurd opens closed
  | later closed next ih =>
      cases h' with
      | here _ opens => exact absurd opens closed
      | later _ next' => exact ih next'

/-- Three fields that part a section have a first opener. -/
theorem exists_firstOpener_iff (key : String) (fields : List (SectionedField num)) :
    (exists caption, FirstOpener lower key fields caption) <->
      exists opener splitter candidate, [opener, splitter, candidate].Sublist fields ∧
        Parts lower key opener splitter candidate ∧
        CoexistThree opener splitter candidate := by
  constructor
  · intro h
    rcases h with ⟨caption, h⟩
    induction h with
    | @here opener rest caption declared opens =>
        rcases opens with ⟨splitter, candidate, hsub, h⟩
        exact ⟨opener, splitter, candidate, hsub.cons_cons opener, h⟩
    | @later field rest caption _ _ ih =>
        rcases ih with ⟨opener, splitter, candidate, hsub, h⟩
        exact ⟨opener, splitter, candidate, hsub.cons field, h⟩
  · intro h
    rcases h with ⟨opener, splitter, candidate, hsub, h⟩
    induction fields with
    | nil => cases hsub
    | cons field rest ih =>
        by_cases hopens : Opens lower key field rest
        · rcases hopens with ⟨splitter', candidate', hsub', hparts, hcoexist⟩
          cases hsection : sectionOf lower field with
          | none =>
              have hkey := hparts.left
              rw [keyOf, hsection] at hkey
              cases hkey
          | some declared =>
              rcases declared with ⟨key', caption⟩
              have hkey := hparts.left
              rw [keyOf_eq_some hsection] at hkey
              cases hkey
              exact ⟨caption, .here hsection ⟨splitter', candidate', hsub', hparts, hcoexist⟩⟩
        · cases hsub with
          | cons _ hrest =>
              rcases ih hrest with ⟨caption, hnext⟩
              exact ⟨caption, .later hopens hnext⟩
          | cons_cons _ hrest => exact absurd ⟨splitter, candidate, hrest, h⟩ hopens

/-!
## What is reported
-/

/-- What a stretch of the outer loop adds to the sections reported so far. -/
structure Reported (lower : String -> String) (before : List SectionKey)
    (fields : List (SectionedField num)) (new : List SectionKey) : Prop where
  result : reportFrom lower before fields = before ++ new
  fresh : forall declared, declared ∈ new -> declared.key ∉ before.map SectionKey.key
  once : (new.map SectionKey.key).Nodup
  opened : forall declared, declared ∈ new ->
    FirstOpener lower declared.key fields declared.caption
  complete : forall key caption, FirstOpener lower key fields caption ->
    key ∈ (before ++ new).map SectionKey.key

theorem reported_skip {before new : List SectionKey} {opener : SectionedField num}
    {rest : List (SectionedField num)} (h : Reported lower before rest new)
    (hresult : reportFrom lower before (opener :: rest) = reportFrom lower before rest)
    (hclosed : forall key, Opens lower key opener rest -> key ∈ before.map SectionKey.key) :
    Reported lower before (opener :: rest) new := by
  constructor
  · rw [hresult, h.result]
  · exact h.fresh
  · exact h.once
  · intro declared hmem
    apply FirstOpener.later _ (h.opened declared hmem)
    intro hopens
    exact h.fresh declared hmem (hclosed declared.key hopens)
  · intro key caption hfirst
    cases hfirst with
    | here _ opens =>
        rw [List.map_append]
        exact List.mem_append_left _ (hclosed key opens)
    | later _ next => exact h.complete key caption next

theorem reported_cons {before new : List SectionKey} {opener : SectionedField num}
    {rest : List (SectionedField num)} {declared : SectionKey}
    (h : Reported lower (before ++ [declared]) rest new)
    (hresult : reportFrom lower before (opener :: rest) =
      reportFrom lower (before ++ [declared]) rest)
    (hsection : sectionOf lower opener = some declared)
    (hseen : declared.key ∉ before.map SectionKey.key)
    (hopens : Opens lower declared.key opener rest)
    (honly : forall key, Opens lower key opener rest -> declared.key = key) :
    Reported lower before (opener :: rest) (declared :: new) := by
  have hfresh : forall other, other ∈ new ->
      other.key ∉ before.map SectionKey.key ∧ other.key ≠ declared.key := by
    intro other hmem
    have hnot := h.fresh other hmem
    rw [List.map_append, List.mem_append, not_or, List.map_singleton, List.mem_singleton] at hnot
    exact hnot
  constructor
  · rw [hresult, h.result, List.append_assoc]
    rfl
  · intro other hmem
    rcases List.mem_cons.mp hmem with heq | hnew
    · rw [heq]
      exact hseen
    · exact (hfresh other hnew).left
  · rw [List.map_cons, List.nodup_cons]
    refine ⟨?_, h.once⟩
    intro hmem
    rcases List.mem_map.mp hmem with ⟨other, hother, hkey⟩
    exact (hfresh other hother).right hkey
  · intro other hmem
    rcases List.mem_cons.mp hmem with heq | hnew
    · rw [heq]
      exact .here hsection hopens
    · apply FirstOpener.later _ (h.opened other hnew)
      intro hopens'
      exact (hfresh other hnew).right (honly other.key hopens').symm
  · intro key caption hfirst
    cases hfirst with
    | here _ opens =>
        rw [← honly key opens]
        exact List.mem_map_of_mem (List.mem_append_right _ List.mem_cons_self)
    | later _ next =>
        have hmem := h.complete key caption next
        rw [List.append_assoc] at hmem
        exact hmem

theorem exists_reported (before : List SectionKey) (fields : List (SectionedField num)) :
    exists new, Reported lower before fields new := by
  induction fields generalizing before with
  | nil =>
      refine ⟨[], ?_⟩
      constructor
      · rw [List.append_nil]
        rfl
      · intro declared h
        cases h
      · exact List.nodup_nil
      · intro declared h
        cases h
      · intro key caption h
        cases h
  | cons opener rest ih =>
      cases hsection : sectionOf lower opener with
      | none =>
          rcases ih before with ⟨new, hnew⟩
          refine ⟨new, reported_skip hnew ?_ ?_⟩
          · rw [reportFrom, hsection]
          · intro key hopens
            rcases hopens with ⟨_, _, _, hparts, _⟩
            have hkey := hparts.left
            rw [keyOf, hsection] at hkey
            cases hkey
      | some declared =>
          have hkey := keyOf_eq_some hsection
          have honly : forall key, Opens lower key opener rest -> declared.key = key := by
            intro key hopens
            rcases hopens with ⟨_, _, _, hparts, _⟩
            have hkey' := hparts.left
            rw [hkey] at hkey'
            exact Option.some.inj hkey'
          by_cases hseen : declared.key ∈ before.map SectionKey.key
          · rcases ih before with ⟨new, hnew⟩
            refine ⟨new, reported_skip hnew ?_ ?_⟩
            · rw [reportFrom, hsection]
              exact if_pos hseen
            · intro key hopens
              rw [← honly key hopens]
              exact hseen
          · by_cases hopens : Opens lower declared.key opener rest
            · rcases ih (before ++ [declared]) with ⟨new, hnew⟩
              have hsplits := (splits_iff hkey rest).mpr hopens
              refine ⟨declared :: new, reported_cons hnew ?_ hsection hseen hopens honly⟩
              rw [reportFrom, hsection]
              simp only [if_neg hseen, if_pos hsplits]
            · rcases ih before with ⟨new, hnew⟩
              have hsplits : ¬ splits lower opener declared.key rest = true := fun h =>
                hopens ((splits_iff hkey rest).mp h)
              refine ⟨new, reported_skip hnew ?_ ?_⟩
              · rw [reportFrom, hsection]
                simp only [if_neg hseen, if_neg hsplits]
              · intro key hopens'
                rw [← honly key hopens'] at hopens'
                exact absurd hopens' hopens

theorem reported_duplicated (fields : List (SectionedField num)) :
    Reported lower [] fields (reportFrom lower [] fields) := by
  rcases @exists_reported num _ lower [] fields with ⟨new, hnew⟩
  have heq : reportFrom lower [] fields = new := hnew.result
  rw [heq]
  exact hnew

theorem FirstOpener.declared {key caption : String} {fields : List (SectionedField num)}
    (h : FirstOpener lower key fields caption) : foldCaption lower caption = key := by
  induction h with
  | here declared _ => exact (key_of_sectionOf declared).symm
  | later _ _ ih => exact ih

/-- The reported captions are those of the first openers. -/
theorem mem_duplicated_iff (fields : List (SectionedField num)) (caption : String) :
    caption ∈ duplicatedDescriptorSectionCaptions lower fields <->
      FirstOpener lower (foldCaption lower caption) fields caption := by
  have hreported := @reported_duplicated num _ lower fields
  rw [duplicatedDescriptorSectionCaptions, List.mem_map]
  constructor
  · intro h
    rcases h with ⟨declared, hmem, heq⟩
    have hfirst := hreported.opened declared hmem
    rw [← heq, hfirst.declared]
    exact hfirst
  · intro h
    rcases List.mem_map.mp (hreported.complete _ _ h) with ⟨declared, hmem, hkey⟩
    refine ⟨declared, hmem, ?_⟩
    have hfirst := hreported.opened declared hmem
    rw [hkey] at hfirst
    exact hfirst.unique h

/-!
## The law
-/

/-- Refused are the captions that a bag prints twice, each once, as it is first spelled. -/
structure CaptionsLaw (lower : String -> String) (fields : List (SectionedField num)) : Prop where
  reported : forall key,
    (exists caption, caption ∈ duplicatedDescriptorSectionCaptions lower fields ∧
      foldCaption lower caption = key) <-> PrintsTwice lower fields key
  once : ((duplicatedDescriptorSectionCaptions lower fields).map (foldCaption lower)).Nodup
  spelled : forall caption, caption ∈ duplicatedDescriptorSectionCaptions lower fields ->
    firstSpelling lower fields (foldCaption lower caption) = some caption

/-- No two of three fields are a mixed pair. -/
def UnmixedThree (opener splitter candidate : SectionedField num) : Prop :=
  mixedPair opener splitter = false ∧ mixedPair opener candidate = false ∧
    mixedPair splitter candidate = false

/-- The check is not misled about a caption, and the field it takes the spelling from has the
first. -/
structure Plain (lower : String -> String) (fields : List (SectionedField num)) : Prop where
  unmixed : forall key opener splitter candidate,
    [opener, splitter, candidate].Sublist fields -> Parts lower key opener splitter candidate ->
    CoexistThree opener splitter candidate ->
    exists opener splitter candidate, [opener, splitter, candidate].Sublist fields ∧
      Parts lower key opener splitter candidate ∧ CoexistThree opener splitter candidate ∧
      UnmixedThree opener splitter candidate
  first : forall key caption, FirstOpener lower key fields caption ->
    firstSpelling lower fields key = some caption

theorem agreeThree_iff (opener splitter candidate : SectionedField num) :
    AgreeThree opener splitter candidate <->
      CoexistThree opener splitter candidate ∧ UnmixedThree opener splitter candidate := by
  rw [AgreeThree, agree_iff, agree_iff, agree_iff, CoexistThree, UnmixedThree]
  constructor
  · intro h
    rcases h with ⟨⟨h₁, h₂⟩, ⟨h₃, h₄⟩, h₅, h₆⟩
    exact ⟨⟨h₁, h₃, h₅⟩, h₂, h₄, h₆⟩
  · intro h
    rcases h with ⟨⟨h₁, h₃, h₅⟩, h₂, h₄, h₆⟩
    exact ⟨⟨h₁, h₂⟩, ⟨h₃, h₄⟩, h₅, h₆⟩

/-- What is reported was opened by three fields that pass the check. -/
theorem reported_iff (fields : List (SectionedField num)) (key : String) :
    (exists caption, caption ∈ duplicatedDescriptorSectionCaptions lower fields ∧
        foldCaption lower caption = key) <->
      exists opener splitter candidate, [opener, splitter, candidate].Sublist fields ∧
        Parts lower key opener splitter candidate ∧
        CoexistThree opener splitter candidate := by
  rw [← exists_firstOpener_iff]
  constructor
  · intro h
    rcases h with ⟨caption, hmem, hkey⟩
    rw [mem_duplicated_iff, hkey] at hmem
    exact ⟨caption, hmem⟩
  · intro h
    rcases h with ⟨caption, hfirst⟩
    refine ⟨caption, ?_, hfirst.declared⟩
    rw [mem_duplicated_iff, hfirst.declared]
    exact hfirst

theorem nodup_duplicated (fields : List (SectionedField num)) :
    ((duplicatedDescriptorSectionCaptions lower fields).map (foldCaption lower)).Nodup := by
  have hreported := @reported_duplicated num _ lower fields
  have hkeys : (duplicatedDescriptorSectionCaptions lower fields).map (foldCaption lower) =
      (reportFrom lower [] fields).map SectionKey.key := by
    rw [duplicatedDescriptorSectionCaptions, List.map_map]
    apply List.map_congr_left
    intro declared hmem
    exact (hreported.opened declared hmem).declared
  rw [hkeys]
  exact hreported.once

theorem duplicatedDescriptorSectionCaptions_law (lower : String -> String)
    (fields : List (SectionedField num)) :
    CaptionsLaw lower fields <-> Plain lower fields := by
  constructor
  · intro h
    constructor
    · intro key opener splitter candidate hsub hparts hcoexist
      have hprints := (h.reported key).mp ((reported_iff fields key).mpr
        ⟨opener, splitter, candidate, hsub, hparts, hcoexist⟩)
      rcases (printsTwice_iff fields key).mp hprints with ⟨a, b, c, habc, hparts', hagree⟩
      exact ⟨a, b, c, habc, hparts', (agreeThree_iff a b c).mp hagree⟩
    · intro key caption hfirst
      have hmem : caption ∈ duplicatedDescriptorSectionCaptions lower fields := by
        rw [mem_duplicated_iff, hfirst.declared]
        exact hfirst
      have hspelled := h.spelled caption hmem
      rw [hfirst.declared] at hspelled
      exact hspelled
  · intro h
    constructor
    · intro key
      rw [reported_iff, printsTwice_iff]
      constructor
      · intro hthree
        rcases hthree with ⟨opener, splitter, candidate, hsub, hparts, hcoexist⟩
        rcases h.unmixed key opener splitter candidate hsub hparts hcoexist with
          ⟨a, b, c, habc, hparts', hplain⟩
        exact ⟨a, b, c, habc, hparts', (agreeThree_iff a b c).mpr hplain⟩
      · intro hthree
        rcases hthree with ⟨opener, splitter, candidate, hsub, hparts, hagree⟩
        exact ⟨opener, splitter, candidate, hsub, hparts,
          ((agreeThree_iff opener splitter candidate).mp hagree).left⟩
    · exact nodup_duplicated fields
    · intro caption hmem
      exact h.first _ caption ((mem_duplicated_iff fields caption).mp hmem)

end Sections

/-- A text field under a caption, visible on a condition. -/
def captioned (key caption : String) (showWhen : Option (DescriptorFieldShowWhen Nat)) :
    SectionedField Nat :=
  { key := key, label := key, type := none, required := false, options := [], default := none
    defaultValues := [], showWhen := showWhen, maxLength := none, min := none, max := none
    integer := false, sectionText := some caption }

/-- The two fields of a section ask for a text and for a list under one key. -/
def mixedForm : List (SectionedField Nat) :=
  [captioned "style" "Shape"
      (some { key := "ops", equals := some (.text "create"), includes := some "create" }),
    captioned "dir" "Placement" none,
    captioned "verbs" "Shape" (some { key := "ops", equals := none, includes := some "create" })]

/-- A form is refused although no bag shows both fields of the section. -/
theorem not_duplicatedDescriptorSectionCaptions_law :
    ¬ forall fields : List (SectionedField Nat), CaptionsLaw toLowerCase fields := by
  intro h
  have hprints := ((h mixedForm).reported "shape").mp
    ⟨"Shape", by decide +kernel, by decide +kernel⟩
  rcases (printsTwice_iff mixedForm "shape").mp hprints with
    ⟨opener, splitter, candidate, hsub, _, _, hagree, _⟩
  have hthree := hsub.eq_of_length rfl
  simp only [mixedForm, List.cons.injEq] at hthree
  rw [hthree.left, hthree.right.right.left, agree_iff] at hagree
  exact absurd hagree.right (by decide)

end Forms
end CatFactory
