import CatFactory.Forms.Coexisting
import CatFactory.Foundation.Destuttering

/-!
# Runs of a caption

The runs of a form are the runs of its visible fields' keys.  A caption is above
two of them where a field of another section stands between two of its fields and
one bag shows the three, which it does where every two of them agree.
-/

namespace CatFactory
namespace Forms

open Foundation

section Sections

variable {num : Type} [DecidableEq num] {lower : String -> String}

/-!
## The runs
-/

/-- What the caption of a run is folded to. -/
def captionKey (lower : String -> String) (run : DescriptorFieldSection num) : Option String :=
  run.caption.map (foldCaption lower)

omit [DecidableEq num] in
theorem key_of_sectionOf {field : SectionedField num} {declared : SectionKey}
    (h : sectionOf lower field = some declared) :
    declared.key = foldCaption lower declared.caption := by
  rw [sectionOf] at h
  split at h
  · cases h
  · split at h
    · cases h
    · cases h
      rfl

omit [DecidableEq num] in
theorem map_foldCaption_sectionOf (field : SectionedField num) :
    ((sectionOf lower field).map SectionKey.caption).map (foldCaption lower) =
      keyOf lower field := by
  rw [keyOf]
  cases h : sectionOf lower field with
  | none => rfl
  | some declared => exact congrArg some (key_of_sectionOf h).symm

omit [DecidableEq num] in
theorem foldl_placeField (visible : List (SectionedField num)) (cutting : Cutting num)
    (front : List (Option String))
    (hkeys : cutting.sections.map (captionKey lower) = front ++ [cutting.openKey]) :
    (visible.foldl (placeField lower) cutting).sections.map (captionKey lower) =
      front ++ (visible.map (keyOf lower)).destutter' (· ≠ ·) cutting.openKey := by
  induction visible generalizing cutting front with
  | nil => exact hkeys
  | cons field visible ih =>
      rw [List.foldl_cons, List.map_cons]
      cases hlast : cutting.sections.getLast? with
      | none =>
          rw [List.getLast?_eq_none_iff.mp hlast] at hkeys
          exact absurd hkeys.symm (List.append_ne_nil_of_right_ne_nil front (by simp))
      | some last =>
          by_cases hopen : keyOf lower field = cutting.openKey
          · have hne : ¬ cutting.openKey ≠ keyOf lower field := fun h => h hopen.symm
            rw [List.destutter'_cons_neg _ hne, placeField, hlast]
            simp only [if_pos hopen]
            refine ih { cutting with sections := _ } front ?_
            rw [← hkeys, List.map_append]
            conv_rhs => rw [← List.dropLast_append_getLast? _ hlast, List.map_append]
            rfl
          · have hne : cutting.openKey ≠ keyOf lower field := fun h => hopen h.symm
            rw [List.destutter'_cons_pos _ hne, placeField, hlast]
            simp only [if_neg hopen]
            have hnext : (openSection lower cutting field).sections.map (captionKey lower) =
                front ++ [cutting.openKey] ++ [keyOf lower field] := by
              rw [openSection, List.map_append, hkeys, ← map_foldCaption_sectionOf]
              rfl
            rw [ih _ _ hnext, List.append_assoc]
            rfl

/-- The fields that a bag shows. -/
def visibleFields (fields : List (SectionedField num)) (values : DescriptorFieldValues num) :
    List (SectionedField num) :=
  fields.filter fun field => isDescriptorFieldVisible field.toDescriptorField values

/-- The runs are those of the visible fields' keys. -/
theorem captionKeys_descriptorFieldSections (fields : List (SectionedField num))
    (values : DescriptorFieldValues num) :
    (descriptorFieldSections lower fields values).map (captionKey lower) =
      ((visibleFields fields values).map (keyOf lower)).destutter (· ≠ ·) := by
  rw [descriptorFieldSections, ← List.foldl_filter]
  change ((visibleFields fields values).foldl (placeField lower) _).sections.map _ = _
  cases visibleFields fields values with
  | nil => rfl
  | cons field visible =>
      rw [List.foldl_cons, List.map_cons, List.destutter_cons']
      apply foldl_placeField visible (openSection lower _ field) []
      show [((sectionOf lower field).map SectionKey.caption).map (foldCaption lower)] = _
      rw [map_foldCaption_sectionOf]
      rfl

/-- Some bag makes the form print the caption above two runs. -/
def PrintsTwice (lower : String -> String) (fields : List (SectionedField num)) (key : String) :
    Prop :=
  exists values, 2 ≤
    ((descriptorFieldSections lower fields values).map (captionKey lower)).count (some key)

/-- Three fields of which the middle one parts the section of the others. -/
def Parts (lower : String -> String) (key : String) (opener splitter candidate :
    SectionedField num) : Prop :=
  keyOf lower opener = some key ∧ keyOf lower splitter ≠ some key ∧
    keyOf lower candidate = some key

/-- Every two of three fields agree. -/
def AgreeThree (opener splitter candidate : SectionedField num) : Prop :=
  Agree opener splitter ∧ Agree opener candidate ∧ Agree splitter candidate

omit [DecidableEq num] in
theorem Agree.refl (a : SectionedField num) : Agree a a := by
  rw [agree_iff_forall]
  intro key first second hfirst hsecond
  rw [hfirst] at hsecond
  cases hsecond
  cases first with
  | scalar s => rfl
  | entry _ => trivial

omit [DecidableEq num] in
theorem Agree.symm {a b : SectionedField num} (h : Agree a b) : Agree b a := by
  rw [agree_iff_forall] at h ⊢
  intro key first second hfirst hsecond
  have hagrees := h key second first hsecond hfirst
  cases first with
  | scalar s =>
      cases second with
      | scalar t => exact Eq.symm hagrees
      | entry _ => exact hagrees
  | entry _ =>
      cases second with
      | scalar t => exact hagrees
      | entry _ => exact hagrees

theorem three_visible_iff (opener splitter candidate : SectionedField num) :
    (exists values : DescriptorFieldValues num,
      forall field, field ∈ [opener, splitter, candidate] ->
        isDescriptorFieldVisible field.toDescriptorField values = true) <->
      AgreeThree opener splitter candidate := by
  rw [visible_together_iff]
  constructor
  · intro h
    exact ⟨h opener (by simp) splitter (by simp), h opener (by simp) candidate (by simp),
      h splitter (by simp) candidate (by simp)⟩
  · intro h a ha b hb
    rcases h with ⟨hfirst, hsecond, hthird⟩
    simp only [List.mem_cons, List.not_mem_nil, or_false] at ha hb
    rcases ha with ha | ha | ha
    · rcases hb with hb | hb | hb
      · rw [ha, hb]
        exact Agree.refl opener
      · rw [ha, hb]
        exact hfirst
      · rw [ha, hb]
        exact hsecond
    · rcases hb with hb | hb | hb
      · rw [ha, hb]
        exact hfirst.symm
      · rw [ha, hb]
        exact Agree.refl splitter
      · rw [ha, hb]
        exact hthird
    · rcases hb with hb | hb | hb
      · rw [ha, hb]
        exact hsecond.symm
      · rw [ha, hb]
        exact hthird.symm
      · rw [ha, hb]
        exact Agree.refl candidate

/-- A caption prints twice where three fields that agree part its section. -/
theorem printsTwice_iff (fields : List (SectionedField num)) (key : String) :
    PrintsTwice lower fields key <->
      exists opener splitter candidate, [opener, splitter, candidate].Sublist fields ∧
        Parts lower key opener splitter candidate ∧ AgreeThree opener splitter candidate := by
  rw [PrintsTwice]
  constructor
  · intro h
    rcases h with ⟨values, hcount⟩
    rw [captionKeys_descriptorFieldSections, two_le_count_destutter] at hcount
    rcases hcount with ⟨other, hother, hsub⟩
    rcases List.sublist_map_iff.mp hsub with ⟨group, hgroup, hkeys⟩
    rcases List.map_eq_cons_iff.mp hkeys.symm with ⟨opener, _, heq, hfirst, hrest⟩
    rcases List.map_eq_cons_iff.mp hrest with ⟨splitter, _, heq', hsecond, hrest'⟩
    rcases List.map_eq_cons_iff.mp hrest' with ⟨candidate, _, heq'', hthird, hnil⟩
    rw [List.map_eq_nil_iff.mp hnil] at heq''
    rw [heq''] at heq'
    rw [heq'] at heq
    rw [heq] at hgroup
    refine ⟨opener, splitter, candidate, hgroup.trans List.filter_sublist,
      ⟨hfirst, ?_, hthird⟩, ?_⟩
    · rw [hsecond]
      exact hother
    · rw [← three_visible_iff]
      exact ⟨values, fun field hfield => (List.mem_filter.mp (hgroup.subset hfield)).right⟩
  · intro h
    rcases h with ⟨opener, splitter, candidate, hsub, ⟨hfirst, hsecond, hthird⟩, hagree⟩
    rcases (three_visible_iff opener splitter candidate).mpr hagree with ⟨values, hvisible⟩
    refine ⟨values, ?_⟩
    rw [captionKeys_descriptorFieldSections, two_le_count_destutter]
    refine ⟨keyOf lower splitter, hsecond, ?_⟩
    have hshown : [opener, splitter, candidate].Sublist (visibleFields fields values) := by
      have hfilter := hsub.filter fun field =>
        isDescriptorFieldVisible field.toDescriptorField values
      rw [List.filter_eq_self.mpr hvisible] at hfilter
      exact hfilter
    have hmap := hshown.map (keyOf lower)
    rw [List.map_cons, List.map_cons, List.map_cons, List.map_nil, hfirst, hthird] at hmap
    exact hmap

end Sections

end Forms
end CatFactory
