import Mathlib.Data.List.Perm.Basic
import Mathlib.Data.List.Pairwise

/-!
# Greedy orders with a fallback

Items are placed one after another.  An item is free when it uses nothing that
is still to be placed.  Each turn places the least free item, or the least item
of all when nothing is free.  Such an order is unique, and the pairs it places
against the relation are those of the blocked sets that start on the wrong item.
-/

namespace CatFactory
namespace Foundation

section GreedyOrder

variable {item : Type} {uses le : item -> item -> Prop}

def Free (uses : item -> item -> Prop) (rest : List item) (x : item) : Prop :=
  forall y, y ∈ rest -> ¬ uses x y

def Candidate (uses : item -> item -> Prop) (rest : List item) (x : item) : Prop :=
  x ∈ rest ∧ (Free uses rest x ∨ forall y, y ∈ rest -> ¬ Free uses rest y)

structure Picked (uses le : item -> item -> Prop) (rest : List item) (x : item) : Prop where
  candidate : Candidate uses rest x
  least : forall y, Candidate uses rest y -> le x y

/-- Every item is the one picked from those that are not placed before it. -/
inductive GreedyOrder (uses le : item -> item -> Prop) : List item -> Prop where
  | nil : GreedyOrder uses le []
  | cons {x : item} {rest : List item} (picked : Picked uses le (x :: rest) x)
      (tail : GreedyOrder uses le rest) : GreedyOrder uses le (x :: rest)

/-- Every one of these items uses one of them. -/
def Blocked (uses : item -> item -> Prop) (xs : List item) : Prop :=
  forall x, x ∈ xs -> exists y, y ∈ xs ∧ uses x y

/-!
## One turn
-/

theorem candidate_of_perm {xs ys : List item} (h : xs.Perm ys) {x : item}
    (hx : Candidate uses xs x) : Candidate uses ys x := by
  constructor
  · exact h.mem_iff.mp hx.1
  · cases hx.2 with
    | inl hfree => exact Or.inl fun y hy => hfree y (h.mem_iff.mpr hy)
    | inr hstuck =>
        apply Or.inr
        intro y hy hfree
        exact hstuck y (h.mem_iff.mpr hy) fun z hz => hfree z (h.mem_iff.mp hz)

theorem Picked.of_perm {xs ys : List item} (h : xs.Perm ys) {x : item}
    (hx : Picked uses le xs x) : Picked uses le ys x where
  candidate := candidate_of_perm h hx.candidate
  least := fun y hy => hx.least y (candidate_of_perm h.symm hy)

theorem Picked.unique (hanti : forall x y, le x y -> le y x -> x = y) {xs : List item}
    {x y : item} (hx : Picked uses le xs x) (hy : Picked uses le xs y) : x = y :=
  hanti x y (hx.least y hy.candidate) (hy.least x hx.candidate)

/-- An item picked against the relation is the least of all that are left. -/
theorem Picked.least_of_uses {xs : List item} {x y : item} (hx : Picked uses le xs x)
    (hy : y ∈ xs) (huses : uses x y) : forall z, z ∈ xs -> le x z := by
  cases hx.candidate.2 with
  | inl hfree => exact absurd huses (hfree y hy)
  | inr hstuck => exact fun z hz => hx.least z ⟨hz, Or.inr hstuck⟩

theorem Picked.blocked_of_uses {xs : List item} {x y : item} (hx : Picked uses le xs x)
    (hy : y ∈ xs) (huses : uses x y) : Blocked uses xs := by
  cases hx.candidate.2 with
  | inl hfree => exact absurd huses (hfree y hy)
  | inr hstuck =>
      intro z hz
      have hz' := hstuck z hz
      simp only [Free, not_forall, not_not] at hz'
      rcases hz' with ⟨w, hw, hzw⟩
      exact ⟨w, hw, hzw⟩

/-!
## Whole orders
-/

/-- There is one greedy order of a set of items. -/
theorem GreedyOrder.unique (hanti : forall x y, le x y -> le y x -> x = y)
    {xs ys : List item} (hxs : GreedyOrder uses le xs) (hys : GreedyOrder uses le ys)
    (hperm : xs.Perm ys) : xs = ys := by
  induction hxs generalizing ys with
  | nil => exact hperm.nil_eq
  | cons hpicked _ ih =>
      cases hys with
      | nil => exact absurd hperm.symm (List.not_perm_nil_cons _ _)
      | cons hpicked' htail' =>
          have heq := hpicked.unique hanti (hpicked'.of_perm hperm.symm)
          subst heq
          rw [ih htail' hperm.cons_inv]

theorem GreedyOrder.picked {pre post : List item} {x : item}
    (h : GreedyOrder uses le (pre ++ x :: post)) : Picked uses le (x :: post) x := by
  induction pre with
  | nil =>
      cases h with
      | cons hpicked _ => exact hpicked
  | cons p pre ih =>
      cases h with
      | cons _ htail => exact ih htail

/-- Split a list at the first member of a set. -/
theorem exists_first {xs : List item} {P : item -> Prop} (h : exists x, x ∈ xs ∧ P x) :
    exists pre x post, xs = pre ++ x :: post ∧ P x ∧ forall y, y ∈ pre -> ¬ P y := by
  induction xs with
  | nil =>
      rcases h with ⟨x, hx, _⟩
      cases hx
  | cons a rest ih =>
      by_cases ha : P a
      · exact ⟨[], a, rest, rfl, ha, by simp⟩
      · have hrest : exists x, x ∈ rest ∧ P x := by
          rcases h with ⟨x, hx, hPx⟩
          cases hx with
          | head => exact absurd hPx ha
          | tail _ hx => exact ⟨x, hx, hPx⟩
        rcases ih hrest with ⟨pre, x, post, rfl, hPx, hpre⟩
        exact ⟨a :: pre, x, post, rfl, hPx, by simpa using ⟨ha, hpre⟩⟩

/-- The first of a blocked set to be placed is the least of the set. -/
theorem GreedyOrder.first_of_blocked {order xs : List item} (h : GreedyOrder uses le order)
    (hsub : xs ⊆ order) (hblocked : Blocked uses xs) (hne : exists x, x ∈ xs) :
    exists pre x post, order = pre ++ x :: post ∧ x ∈ xs ∧ (forall y, y ∈ xs -> le x y) ∧
      forall y, y ∈ xs -> y ≠ x -> y ∈ post := by
  rcases hne with ⟨a, ha⟩
  rcases exists_first ⟨a, hsub ha, ha⟩ with ⟨pre, x, post, rfl, hx, hpre⟩
  have hleft : forall y, y ∈ xs -> y ∈ x :: post := by
    intro y hy
    cases List.mem_append.mp (hsub hy) with
    | inl hbefore => exact absurd hy (hpre y hbefore)
    | inr hafter => exact hafter
  rcases hblocked x hx with ⟨b, hb, hxb⟩
  refine ⟨pre, x, post, rfl, hx, ?_, ?_⟩
  · intro y hy
    exact h.picked.least_of_uses (hleft b hb) hxb y (hleft y hy)
  · intro y hy hne
    cases hleft y hy with
    | head => exact absurd rfl hne
    | tail _ hpost => exact hpost

/-- A greedy order goes against the relation in excused pairs only, precisely
when every blocked set starts on an item all of whose uses within the set are
excused. -/
theorem GreedyOrder.inversions_iff (hanti : forall x y, le x y -> le y x -> x = y)
    {order : List item} (h : GreedyOrder uses le order) (hnodup : order.Nodup)
    {excused : item -> item -> Prop} :
    order.Pairwise (fun x y => uses x y -> excused x y) <->
      forall xs, xs ⊆ order -> Blocked uses xs -> forall x, x ∈ xs ->
        (forall y, y ∈ xs -> le x y) -> forall y, y ∈ xs -> y ≠ x -> uses x y -> excused x y := by
  constructor
  · intro hpairs xs hsub hblocked x hx hleast y hy hne huses
    rcases h.first_of_blocked hsub hblocked ⟨x, hx⟩ with ⟨pre, first, post, rfl, hfirst, hle, hlater⟩
    have heq : first = x := hanti first x (hle x hx) (hleast first hfirst)
    subst heq
    have hpairs' := (List.pairwise_append.mp hpairs).2.1
    exact List.rel_of_pairwise_cons hpairs' (hlater y hy hne) huses
  · intro hsets
    rw [List.pairwise_iff_forall_sublist]
    intro x y hsub huses
    rcases List.cons_sublist_iff.mp hsub with ⟨before, post, rfl, hx, hy⟩
    rcases List.append_of_mem hx with ⟨pre, mid, rfl⟩
    have hy : y ∈ mid ++ post := List.mem_append_right mid (List.singleton_sublist.mp hy)
    have hnodup' : (x :: (mid ++ post)).Nodup := by
      have := hnodup
      simp only [List.append_assoc, List.cons_append] at this
      exact (List.nodup_append.mp this).2.1
    have hgreedy : GreedyOrder uses le (pre ++ x :: (mid ++ post)) := by
      simpa only [List.append_assoc, List.cons_append] using h
    have hmem : y ∈ x :: (mid ++ post) := List.mem_cons_of_mem x hy
    apply hsets (x :: (mid ++ post)) _ (hgreedy.picked.blocked_of_uses hmem huses) x
      List.mem_cons_self (hgreedy.picked.least_of_uses hmem huses) y hmem _ huses
    · intro z hz
      simp only [List.append_assoc, List.cons_append]
      exact List.mem_append_right pre hz
    · intro heq
      subst heq
      exact (List.nodup_cons.mp hnodup').1 hy

end GreedyOrder

end Foundation
end CatFactory
