import CatFactory.Foundation.RegexSearch

/-!
# Rewriting that keeps some units

A text is rewritten around the units of `kept`: stretches free of them are
exchanged for others that are free of them too, and none is emptied or made up.
What only looks at the kept units then reads both texts alike.
-/

namespace CatFactory
namespace Foundation

variable {unit : Type} {kept : List unit}

/-- A non-empty stretch without the kept units. -/
structure Plain (kept stretch : List unit) : Prop where
  ne_nil : stretch ≠ []
  free : forall u, u ∈ stretch -> u ∉ kept

inductive Rewrites (kept : List unit) : List unit -> List unit -> Prop where
  | nil : Rewrites kept [] []
  | same (c : unit) {xs ys : List unit} :
      Rewrites kept xs ys -> Rewrites kept (c :: xs) (c :: ys)
  | swap {a b xs ys : List unit} : Plain kept a -> Plain kept b ->
      Rewrites kept xs ys -> Rewrites kept (a ++ xs) (b ++ ys)

namespace Rewrites

variable {xs ys xs' ys' : List unit}

theorem refl (xs : List unit) : Rewrites kept xs xs := by
  induction xs with
  | nil => exact nil
  | cons c xs ih => exact same c ih

theorem symm (h : Rewrites kept xs ys) : Rewrites kept ys xs := by
  induction h with
  | nil => exact nil
  | same c _ ih => exact same c ih
  | swap ha hb _ ih => exact swap hb ha ih

theorem append (h : Rewrites kept xs ys) (h' : Rewrites kept xs' ys') :
    Rewrites kept (xs ++ xs') (ys ++ ys') := by
  induction h with
  | nil => exact h'
  | same c _ ih => exact same c ih
  | swap ha hb _ ih =>
      rw [List.append_assoc, List.append_assoc]
      exact swap ha hb ih

theorem mono {kept' : List unit} (hkept : forall u, u ∈ kept' -> u ∈ kept)
    (h : Rewrites kept xs ys) : Rewrites kept' xs ys := by
  have hplain : forall {a : List unit}, Plain kept a -> Plain kept' a :=
    fun ha => ⟨ha.ne_nil, fun u hu hmem => ha.free u hu (hkept u hmem)⟩
  induction h with
  | nil => exact nil
  | same c _ ih => exact same c ih
  | swap ha hb _ ih => exact swap (hplain ha) (hplain hb) ih

/-- A kept unit splits both texts at the same place. -/
theorem split {c : unit} (hc : c ∈ kept) {front back : List unit}
    (h : Rewrites kept xs (front ++ c :: back)) :
    exists front' back', xs = front' ++ c :: back' ∧
      Rewrites kept front' front ∧ Rewrites kept back' back := by
  generalize htext : front ++ c :: back = text at h
  induction h generalizing front with
  | nil => exact absurd htext (by simp)
  | same d hrest ih =>
      cases front with
      | nil =>
          rw [List.nil_append, List.cons.injEq] at htext
          rcases htext with ⟨rfl, rfl⟩
          exact ⟨[], _, rfl, nil, hrest⟩
      | cons e front =>
          rw [List.cons_append, List.cons.injEq] at htext
          rcases htext with ⟨rfl, htext⟩
          rcases ih htext with ⟨front', back', rfl, hfront, hback⟩
          exact ⟨e :: front', back', rfl, same e hfront, hback⟩
  | swap ha hb hrest ih =>
      cases List.append_eq_append_iff.mp htext with
      | inl hshort =>
          rcases hshort with ⟨tail, rfl, htail⟩
          cases tail with
          | nil =>
              rw [List.nil_append] at htail
              rcases @ih [] htail with ⟨front', back', rfl, hfront, hback⟩
              rw [List.append_nil] at hb
              refine ⟨_ ++ front', back', (List.append_assoc _ _ _).symm, ?_, hback⟩
              have hall := swap ha hb hfront
              rwa [List.append_nil] at hall
          | cons d tail =>
              rw [List.cons_append, List.cons.injEq] at htail
              exact absurd hc (htail.1 ▸ hb.free d (List.mem_append_right _ List.mem_cons_self))
      | inr hlong =>
          rcases hlong with ⟨tail, rfl, htail⟩
          rcases ih htail.symm with ⟨front', back', rfl, hfront, hback⟩
          exact ⟨_ ++ front', back', (List.append_assoc _ _ _).symm, swap ha hb hfront, hback⟩

theorem eq_nil (h : Rewrites kept xs []) : xs = [] := by
  generalize htext : ([] : List unit) = text at h
  cases h with
  | nil => rfl
  | same c hrest => cases htext
  | swap ha hb hrest => exact absurd (List.append_eq_nil_iff.mp htext.symm).1 hb.ne_nil

theorem mem_iff {c : unit} (hc : c ∈ kept) (h : Rewrites kept xs ys) : c ∈ xs <-> c ∈ ys := by
  have hdir : forall {as bs : List unit}, Rewrites kept as bs -> c ∈ bs -> c ∈ as := by
    intro as bs hrewrites hmem
    rcases List.append_of_mem hmem with ⟨front, back, rfl⟩
    rcases split hc hrewrites with ⟨front', back', rfl, _⟩
    exact List.mem_append_right _ List.mem_cons_self
  exact ⟨hdir h.symm, hdir h⟩

/-- A text that begins with a kept unit came from one that does. -/
theorem cons {c : unit} (hc : c ∈ kept) (h : Rewrites kept xs (c :: ys)) :
    exists xs', xs = c :: xs' ∧ Rewrites kept xs' ys := by
  rcases @split _ _ _ c hc [] ys h with ⟨front', back', rfl, hfront, hback⟩
  rw [eq_nil hfront]
  exact ⟨back', rfl, hback⟩

theorem replicate {c : unit} (hc : c ∈ kept) (n : Nat)
    (h : Rewrites kept xs (List.replicate n c ++ ys)) :
    exists xs', xs = List.replicate n c ++ xs' ∧ Rewrites kept xs' ys := by
  induction n generalizing xs with
  | zero => exact ⟨xs, rfl, h⟩
  | succ n ih =>
      rw [List.replicate_succ, List.cons_append] at h
      rcases cons hc h with ⟨xs', rfl, htail⟩
      rcases ih htail with ⟨xs'', rfl, hrest⟩
      exact ⟨xs'', rfl, hrest⟩

/-- Runs of a kept unit are runs of the text before. -/
theorem replicate_within {c : unit} (hc : c ∈ kept) (n : Nat)
    (h : Rewrites kept xs ys) (hrun : List.replicate n c <:+: ys) :
    List.replicate n c <:+: xs := by
  cases n with
  | zero => exact List.nil_infix
  | succ n =>
      rcases hrun with ⟨front, back, rfl⟩
      rw [List.append_assoc, List.replicate_succ, List.cons_append] at h
      rcases split hc h with ⟨front', back', rfl, _, hback⟩
      rcases replicate hc n hback with ⟨xs', rfl, _⟩
      refine ⟨front', xs', ?_⟩
      rw [List.append_assoc]
      rfl

end Rewrites

/-!
## Units a pattern reads
-/

/-- Every unit of a match is one of `ok`. -/
def Regex.Reads (ok : unit -> Prop) : Regex unit -> Prop
  | .empty => True
  | .one accepts => forall u, accepts u = true -> ok u
  | .many accepts _ _ => forall u, accepts u = true -> ok u
  | .few accepts => forall u, accepts u = true -> ok u
  | .seq first second => first.Reads ok ∧ second.Reads ok
  | .after first second => first.Reads ok ∧ forall text, (second text).Reads ok
  | .alt first second => first.Reads ok ∧ second.Reads ok
  | .group _ inner => inner.Reads ok
  | .edge _ => True
  | .behind _ => True
  | .ahead _ => True

theorem taking_reads {ok : unit -> Prop} {accepts : unit -> Bool} {most : Option Nat}
    {rest : List unit} {k : Nat} (hok : forall u, accepts u = true -> ok u)
    (hk : k ≤ runLength accepts most rest) : forall u, u ∈ (Match.taking rest k).text -> ok u := by
  intro u hu
  have hlength : k ≤ (rest.takeWhile accepts).length := by
    cases most with
    | none => exact hk
    | some most => exact Nat.le_trans hk (Nat.min_le_right _ _)
  have htake : rest.take k <+: rest.takeWhile accepts :=
    List.prefix_of_prefix_length_le (List.take_prefix k rest) (List.takeWhile_prefix accepts)
      (Nat.le_trans (List.length_take_le k rest) hlength)
  exact hok u (List.mem_takeWhile_imp (htake.subset hu))

theorem run_reads {ok : unit -> Prop} {r : Regex unit} {read rest : List unit} {m : Match unit}
    (hreads : r.Reads ok) (h : m ∈ r.run read rest) : forall u, u ∈ m.text -> ok u := by
  have hempty : forall {rest : List unit} {m : Match unit},
      m ∈ [(⟨[], rest, []⟩ : Match unit)] -> forall u, u ∈ m.text -> ok u := by
    intro rest m hm u hu
    rw [List.mem_singleton.mp hm] at hu
    cases hu
  have hbefore : forall {x y : Match unit}, (forall u, u ∈ x.text -> ok u) ->
      (forall u, u ∈ y.text -> ok u) -> forall u, u ∈ (x.before y).text -> ok u := by
    intro x y hx hy u hu
    cases List.mem_append.mp hu with
    | inl hu => exact hx u hu
    | inr hu => exact hy u hu
  induction r generalizing read rest m with
  | empty => exact hempty h
  | one accepts =>
      intro u hu
      cases rest with
      | nil => cases h
      | cons c rest =>
          simp only [Regex.run] at h
          split at h
          · next hc =>
              rw [List.mem_singleton.mp h, List.mem_singleton] at hu
              rw [hu]
              exact hreads c hc
          · cases h
  | many accepts least most =>
      rw [Regex.run, List.mem_map] at h
      rcases h with ⟨k, hk, rfl⟩
      rw [List.mem_filter, List.mem_reverse, List.mem_range] at hk
      exact taking_reads hreads (Nat.le_of_lt_succ hk.1)
  | few accepts =>
      rw [Regex.run, List.mem_map] at h
      rcases h with ⟨k, hk, rfl⟩
      rw [List.mem_range] at hk
      exact taking_reads hreads (Nat.le_of_lt_succ hk)
  | seq first second ihFirst ihSecond =>
      rcases mem_run_seq.mp h with ⟨x, hx, y, hy, rfl⟩
      exact hbefore (ihFirst hreads.1 hx)
        (ihSecond hreads.2 hy)
  | after first second ihFirst ihSecond =>
      rcases mem_run_after.mp h with ⟨x, hx, y, hy, rfl⟩
      exact hbefore (ihFirst hreads.1 hx) (ihSecond x.text (hreads.2 x.text) hy)
  | alt first second ihFirst ihSecond =>
      cases mem_run_alt.mp h with
      | inl h => exact ihFirst hreads.1 h
      | inr h => exact ihSecond hreads.2 h
  | group index inner ih =>
      rw [Regex.run, List.mem_map] at h
      rcases h with ⟨x, hx, rfl⟩
      have hinner : forall u, u ∈ x.text -> ok u := ih hreads hx
      exact hinner
  | edge holds =>
      simp only [Regex.run] at h
      split at h
      · exact hempty h
      · cases h
  | behind inner ih =>
      simp only [Regex.run] at h
      split at h
      · exact hempty h
      · cases h
  | ahead inner ih =>
      simp only [Regex.run] at h
      split at h
      · cases h
      · exact hempty h

/-!
## Replacement as rewriting
-/

/-- Where every match and what replaces it are plain, the replacement rewrites. -/
theorem replaceFrom_rewrites {r : Regex unit} {f : Match unit -> List unit}
    (hmatch : forall read rest m, m ∈ r.run read rest -> Plain kept m.text ∧ Plain kept (f m))
    (read rest : List unit) : Rewrites kept rest (r.replaceFrom f 0 read rest) := by
  have hconsumes : Consumes r := fun read rest m hm => (hmatch read rest m hm).1.ne_nil
  induction hlength : rest.length using Nat.strongRecOn generalizing read rest with
  | ind n ih =>
      cases hfound : r.find read rest with
      | none =>
          rw [replaceFrom_none hconsumes hfound]
          exact Rewrites.refl rest
      | some found =>
          rcases found with ⟨skipped, m⟩
          have hleft := leftmost_of_find hfound
          have hplain := hmatch _ _ m (matchHere_mem hleft.here)
          have hpos := List.length_pos_iff.mpr hplain.1.ne_nil
          rw [replaceFrom_some hconsumes hfound]
          have hrest := ih m.rest.length (by
            rw [← hlength, hleft.text, List.length_append, List.length_append]
            omega) (m.text.reverse ++ (skipped.reverse ++ read)) m.rest rfl
          have hall := (Rewrites.refl skipped).append (Rewrites.swap hplain.1 hplain.2 hrest)
          rwa [← hleft.text] at hall

end Foundation
end CatFactory
