import CatFactory.Foundation.RegexSearch

/-!
# Scrubbing

A text is scrubbed: some stretches of it are cut out, a stamp is put in the place of
each, and the rest is kept.  A part of the result that overlaps no stamp was a part of
the text before.
-/

namespace CatFactory
namespace Foundation

variable {unit : Type}

/-- `xs` becomes `ys`, after what was read and before what is left.  `kept` is asked of
every position that is kept; `cut` relates what was read, the stretch, its stamp and
what is left. -/
inductive Scrubs (kept : List unit -> List unit -> Prop)
    (cut : List unit -> List unit -> List unit -> List unit -> Prop) :
    List unit -> List unit -> List unit -> List unit -> Prop where
  | nil {read after : List unit} : Scrubs kept cut read [] [] after
  | keep {read xs ys after : List unit} {c : unit} : kept read (c :: (xs ++ after)) ->
      Scrubs kept cut (c :: read) xs ys after -> Scrubs kept cut read (c :: xs) (c :: ys) after
  | swap {read a b xs ys after : List unit} : cut read a b (xs ++ after) ->
      Scrubs kept cut (a.reverse ++ read) xs ys after ->
      Scrubs kept cut read (a ++ xs) (b ++ ys) after

namespace Scrubs

variable {kept : List unit -> List unit -> Prop}
variable {cut : List unit -> List unit -> List unit -> List unit -> Prop}
variable {read xs ys xs' ys' after : List unit}

/-- A stretch that is kept as a whole. -/
theorem same (hkept : forall front back, xs = front ++ back -> back ≠ [] ->
    kept (front.reverse ++ read) (back ++ after)) : Scrubs kept cut read xs xs after := by
  induction xs generalizing read with
  | nil => exact nil
  | cons c xs ih =>
      apply keep
      · exact hkept [] (c :: xs) rfl (List.cons_ne_nil c xs)
      · apply ih
        intro front back hsplit hback
        have hlater := hkept (c :: front) back (by rw [hsplit, List.cons_append]) hback
        rwa [List.reverse_cons, List.append_assoc] at hlater

theorem append (h : Scrubs kept cut read xs ys (xs' ++ after))
    (h' : Scrubs kept cut (xs.reverse ++ read) xs' ys' after) :
    Scrubs kept cut read (xs ++ xs') (ys ++ ys') after := by
  generalize hrest : xs' ++ after = rest at h
  induction h with
  | nil => exact h'
  | keep hkept _ ih =>
      rw [List.reverse_cons, List.append_assoc] at h'
      subst hrest
      apply keep
      · show kept _ (_ :: (_ ++ xs' ++ after))
        rw [List.append_assoc]
        exact hkept
      · exact ih h' rfl
  | swap hcut _ ih =>
      rw [List.reverse_append, List.append_assoc] at h'
      subst hrest
      rw [List.append_assoc, List.append_assoc]
      apply swap
      · rw [List.append_assoc]
        exact hcut
      · exact ih h' rfl

/-- One cut within a stretch that is kept otherwise. -/
theorem once {before a b behind : List unit} (hkept : forall read rest, kept read rest)
    (hcut : cut (before.reverse ++ read) a b (behind ++ after)) :
    Scrubs kept cut read (before ++ (a ++ behind)) (before ++ (b ++ behind)) after := by
  apply append
  · exact same fun _ _ _ _ => hkept _ _
  · apply Scrubs.swap hcut
    exact same fun _ _ _ _ => hkept _ _

theorem mono {kept' : List unit -> List unit -> Prop}
    {cut' : List unit -> List unit -> List unit -> List unit -> Prop}
    (hkept : forall {read rest}, kept read rest -> kept' read rest)
    (hcut : forall {read a b rest}, cut read a b rest -> cut' read a b rest)
    (h : Scrubs kept cut read xs ys after) : Scrubs kept' cut' read xs ys after := by
  induction h with
  | nil => exact nil
  | keep hhere _ ih => exact keep (hkept hhere) ih
  | swap hhere _ ih => exact swap (hcut hhere) ih

end Scrubs

namespace Scrubs

variable {kept : List unit -> List unit -> Prop}
variable {cut : List unit -> List unit -> List unit -> List unit -> Prop}
variable {read xs ys after : List unit}

/-- The two texts end alike, or with a cut. -/
theorem ends (h : Scrubs kept cut read xs ys after) :
    (xs = [] ∧ ys = []) ∨ (exists c, xs.getLast? = some c ∧ ys.getLast? = some c) ∨
      exists read' a b, cut read' a b after := by
  induction h with
  | nil => exact Or.inl ⟨rfl, rfl⟩
  | @keep read xs ys after c hkept _ ih =>
      rcases ih with ⟨rfl, rfl⟩ | ⟨d, hxs, hys⟩ | hcut
      · exact Or.inr (Or.inl ⟨c, rfl, rfl⟩)
      · refine Or.inr (Or.inl ⟨d, ?_, ?_⟩)
        · rw [List.getLast?_cons, hxs, Option.getD_some]
        · rw [List.getLast?_cons, hys, Option.getD_some]
      · exact Or.inr (Or.inr hcut)
  | @swap read a b xs ys after hcut _ ih =>
      rcases ih with ⟨rfl, rfl⟩ | ⟨d, hxs, hys⟩ | hcut
      · exact Or.inr (Or.inr ⟨_, _, _, hcut⟩)
      · refine Or.inr (Or.inl ⟨d, ?_, ?_⟩)
        · rw [List.getLast?_append, hxs, Option.some_or]
        · rw [List.getLast?_append, hys, Option.some_or]
      · exact Or.inr (Or.inr hcut)

/-- The two texts begin alike, or with a cut. -/
theorem begins (h : Scrubs kept cut read xs ys after) :
    (xs = [] ∧ ys = []) ∨ (exists c, xs.head? = some c ∧ ys.head? = some c) ∨
      exists a b xs' ys', cut read a b (xs' ++ after) ∧ xs = a ++ xs' ∧ ys = b ++ ys' := by
  cases h with
  | nil => exact Or.inl ⟨rfl, rfl⟩
  | keep hkept hrest => exact Or.inr (Or.inl ⟨_, rfl, rfl⟩)
  | swap hcut hrest => exact Or.inr (Or.inr ⟨_, _, _, _, hcut, rfl, rfl⟩)

end Scrubs

/-!
## Parts that overlap no stamp
-/

/-- No way to lay the text and the stamp over each other, from a unit of one of them
on, makes them agree. -/
structure OffStamp (stamp text : List unit) : Prop where
  within : forall tail, tail ≠ [] -> tail <:+ stamp -> ¬ tail <+: text ∧ ¬ text <+: tail
  around : forall tail, tail ≠ [] -> tail <:+ text -> ¬ tail <+: stamp ∧ ¬ stamp <+: tail

/-- The text overlaps none of the stamps that are put in. -/
def Clear (cut : List unit -> List unit -> List unit -> List unit -> Prop) (text : List unit) :
    Prop :=
  forall read a b rest, cut read a b rest -> OffStamp b text

namespace Scrubs

variable {kept : List unit -> List unit -> Prop}
variable {cut : List unit -> List unit -> List unit -> List unit -> Prop}
variable {read xs after text front back : List unit}

/-- A text clear of the stamps begins between two pieces. -/
theorem boundary (hclear : Clear cut text)
    (h : Scrubs kept cut read xs (front ++ (text ++ back)) after) :
    exists front' xs', xs = front' ++ xs' ∧ Scrubs kept cut read front' front (xs' ++ after) ∧
      Scrubs kept cut (front'.reverse ++ read) xs' (text ++ back) after := by
  generalize hall : front ++ (text ++ back) = ys at h
  induction h generalizing front with
  | nil =>
      rcases List.append_eq_nil_iff.mp hall with ⟨rfl, htext⟩
      refine ⟨[], [], rfl, nil, ?_⟩
      rw [htext]
      exact nil
  | @keep read xs ys after c hkept hrest ih =>
      cases front with
      | nil =>
          rw [List.nil_append] at hall
          refine ⟨[], c :: xs, rfl, nil, ?_⟩
          rw [hall]
          exact keep hkept hrest
      | cons d front =>
          rw [List.cons_append, List.cons.injEq] at hall
          rcases hall with ⟨rfl, hall⟩
          rcases ih hall with ⟨front', xs', rfl, hfront, htext⟩
          refine ⟨d :: front', xs', rfl, ?_, ?_⟩
          · apply keep
            · rwa [List.append_assoc] at hkept
            · exact hfront
          · rwa [List.reverse_cons, List.append_assoc]
  | @swap read a b xs ys after hcut hrest ih =>
      cases List.append_eq_append_iff.mp hall with
      | inl hwithin =>
          rcases hwithin with ⟨tail, htail, hover⟩
          cases tail with
          | nil =>
              rw [List.append_nil] at htail
              rw [List.nil_append] at hover
              subst htail
              rcases @ih [] hover with ⟨front', xs', rfl, hfront, htext⟩
              refine ⟨a ++ front', xs', (List.append_assoc _ _ _).symm, ?_, ?_⟩
              · have happended : Scrubs kept cut read (a ++ front') (b ++ []) (xs' ++ after) := by
                  apply Scrubs.swap
                  · rwa [List.append_assoc] at hcut
                  · exact hfront
                rwa [List.append_nil] at happended
              · rwa [List.reverse_append, List.append_assoc]
          | cons u tail =>
              have hwithin := (hclear _ _ _ _ hcut).within (u :: tail) (List.cons_ne_nil u tail)
                ⟨front, htail.symm⟩
              rcases List.prefix_or_prefix_of_prefix ⟨back, hover⟩ ⟨ys, rfl⟩ with h | h
              · exact absurd h hwithin.2
              · exact absurd h hwithin.1
      | inr hafter =>
          rcases hafter with ⟨gap, rfl, hgap⟩
          rcases ih hgap.symm with ⟨front', xs', rfl, hfront, htext⟩
          refine ⟨a ++ front', xs', (List.append_assoc _ _ _).symm, ?_, ?_⟩
          · apply Scrubs.swap
            · rwa [List.append_assoc] at hcut
            · exact hfront
          · rwa [List.reverse_append, List.append_assoc]

/-- What begins with a text clear of the stamps began with it before. -/
theorem prefixed (hclear : forall read a b rest, cut read a b rest -> forall tail, tail ≠ [] ->
      tail <:+ text -> ¬ tail <+: b ∧ ¬ b <+: tail)
    (h : Scrubs kept cut read xs (text ++ back) after) :
    exists back', xs = text ++ back' ∧
      Scrubs kept cut (text.reverse ++ read) back' back after := by
  induction text generalizing read xs with
  | nil => exact ⟨xs, rfl, h⟩
  | cons c text ih =>
      generalize hall : c :: text ++ back = ys at h
      cases h with
      | nil => cases hall
      | keep hkept hrest =>
          rw [List.cons_append, List.cons.injEq] at hall
          rcases hall with ⟨rfl, rfl⟩
          have hlater : forall read a b rest, cut read a b rest -> forall tail, tail ≠ [] ->
              tail <:+ text -> ¬ tail <+: b ∧ ¬ b <+: tail := by
            intro read a b rest hcut tail htail hsuffix
            exact hclear read a b rest hcut tail htail
              (hsuffix.trans (List.suffix_cons c text))
          rcases ih hlater hrest with ⟨back', rfl, hback⟩
          refine ⟨back', rfl, ?_⟩
          rwa [List.reverse_cons, List.append_assoc]
      | swap hcut hrest =>
          have haround := hclear _ _ _ _ hcut (c :: text) (List.cons_ne_nil c text)
            (List.suffix_refl _)
          rcases List.prefix_or_prefix_of_prefix ⟨back, hall⟩ ⟨_, rfl⟩ with h | h
          · exact absurd h haround.1
          · exact absurd h haround.2

/-- The position before a kept text is kept. -/
theorem kept_here (hclear : Clear cut text) (htext : text ≠ [])
    (h : Scrubs kept cut read xs (text ++ back) after) : kept read (xs ++ after) := by
  generalize hall : text ++ back = ys at h
  cases h with
  | nil => exact absurd (List.append_eq_nil_iff.mp hall).1 htext
  | keep hkept hrest => exact hkept
  | swap hcut hrest =>
      have haround := (hclear _ _ _ _ hcut).around text htext (List.suffix_refl _)
      rcases List.prefix_or_prefix_of_prefix ⟨back, hall⟩ ⟨_, rfl⟩ with h | h
      · exact absurd h haround.1
      · exact absurd h haround.2

/-- A text clear of the stamps was there before, between what became of its sides. -/
theorem lift (hclear : Clear cut text) (htext : text ≠ [])
    (h : Scrubs kept cut read xs (front ++ (text ++ back)) after) :
    exists front' back', xs = front' ++ (text ++ back') ∧
      Scrubs kept cut read front' front (text ++ back' ++ after) ∧
      kept (front'.reverse ++ read) (text ++ back' ++ after) ∧
      Scrubs kept cut (text.reverse ++ (front'.reverse ++ read)) back' back after := by
  rcases boundary hclear h with ⟨front', xs', rfl, hfront, hrest⟩
  have hkept := kept_here hclear htext hrest
  rcases prefixed (fun _ _ _ _ hcut => (hclear _ _ _ _ hcut).around) hrest with
    ⟨back', rfl, hback⟩
  exact ⟨front', back', rfl, hfront, hkept, hback⟩

end Scrubs

/-!
## Replacing every match
-/

/-- Where each replacement is a scrub of its match, replacing every match is a scrub of
the text. -/
theorem scrubs_replaceFrom {kept : List unit -> List unit -> Prop}
    {cut : List unit -> List unit -> List unit -> List unit -> Prop} {r : Regex unit}
    {f : Match unit -> List unit} (h : Consumes r)
    (hskip : forall read rest, r.matchHere read rest = none -> kept read rest)
    (hf : forall read rest m, r.matchHere read rest = some m ->
      Scrubs kept cut read m.text (f m) m.rest) (read rest : List unit) :
    Scrubs kept cut read rest (r.replaceFrom f 0 read rest) [] := by
  induction hlength : rest.length using Nat.strongRecOn generalizing read rest with
  | ind n ih =>
      cases hfound : r.find read rest with
      | none =>
          rw [replaceFrom_none h hfound]
          apply Scrubs.same
          intro front back hsplit _
          rw [List.append_nil]
          exact hskip _ _ (find_eq_none_iff.mp hfound front back hsplit)
      | some found =>
          rcases found with ⟨skipped, m⟩
          have hleft := leftmost_of_find hfound
          have hshorter : m.rest.length < n := hlength ▸ rest_lt_of_find h hfound
          rw [replaceFrom_some h hfound]
          rw [hleft.text]
          apply Scrubs.append
          · apply Scrubs.same
            intro front back hsplit hback
            apply hskip
            apply hleft.first front
            · rw [hleft.text, hsplit, List.append_nil, List.append_assoc]
            · rw [hsplit, List.length_append]
              exact Nat.lt_add_of_pos_right (List.length_pos_iff.mpr hback)
          · apply Scrubs.append
            · rw [List.append_nil]
              exact hf _ _ m hleft.here
            · exact ih _ hshorter _ _ rfl

end Foundation
end CatFactory
