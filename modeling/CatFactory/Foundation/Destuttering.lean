import Mathlib.Data.List.Destutter

/-!
# Runs of equal items

Destuttering a list leaves one item for each run of equal ones.  An item has two
runs where something else stands between two of its occurrences.
-/

namespace CatFactory
namespace Foundation

section Destuttering

variable {item : Type} [BEq item] [LawfulBEq item] [DecidableEq item]

omit [BEq item] [LawfulBEq item] in
theorem mem_destutter'_ne {x start : item} {xs : List item} :
    x ∈ xs.destutter' (· ≠ ·) start <-> x = start ∨ x ∈ xs := by
  induction xs generalizing start with
  | nil =>
      rw [List.destutter'_nil, List.mem_singleton]
      simp
  | cons next xs ih =>
      by_cases hne : start ≠ next
      · rw [List.destutter'_cons_pos _ hne, List.mem_cons, ih, List.mem_cons]
      · have heq : start = next := not_not.mp hne
        rw [List.destutter'_cons_neg _ hne, ih, List.mem_cons, heq]
        simp

/-- The item that is open has a second run where it comes again after something else. -/
theorem two_le_count_destutter'_self {x : item} {xs : List item} :
    2 ≤ (xs.destutter' (· ≠ ·) x).count x <->
      exists y, y ≠ x ∧ [y, x].Sublist xs := by
  induction xs with
  | nil =>
      rw [List.destutter'_nil]
      simp
  | cons next xs ih =>
      by_cases hne : x ≠ next
      · rw [List.destutter'_cons_pos _ hne, List.count_cons_self, Nat.succ_le_succ_iff,
          List.one_le_count_iff, mem_destutter'_ne]
        constructor
        · intro h
          rcases h with heq | hmem
          · exact absurd heq hne
          · exact ⟨next, fun h => hne h.symm, (List.singleton_sublist.mpr hmem).cons_cons next⟩
        · intro h
          rcases h with ⟨y, _, hsub⟩
          right
          cases hsub with
          | cons _ hrest => exact hrest.subset (by simp)
          | cons_cons _ hrest => exact List.singleton_sublist.mp hrest
      · have heq : x = next := not_not.mp hne
        rw [List.destutter'_cons_neg _ hne, ih, ← heq]
        constructor
        · intro h
          rcases h with ⟨y, hy, hsub⟩
          exact ⟨y, hy, hsub.cons x⟩
        · intro h
          rcases h with ⟨y, hy, hsub⟩
          cases hsub with
          | cons _ hrest => exact ⟨y, hy, hrest⟩
          | cons_cons _ hrest => exact absurd rfl hy

omit [BEq item] [LawfulBEq item] [DecidableEq item] in
theorem exists_reopened_cons_self {x : item} {xs : List item} :
    (exists y, y ≠ x ∧ [x, y, x].Sublist (x :: xs)) <->
      exists y, y ≠ x ∧ [y, x].Sublist xs := by
  constructor
  · intro h
    rcases h with ⟨y, hy, hsub⟩
    cases hsub with
    | cons _ hrest => exact ⟨y, hy, (List.sublist_cons_self x [y, x]).trans hrest⟩
    | cons_cons _ hrest => exact ⟨y, hy, hrest⟩
  · intro h
    rcases h with ⟨y, hy, hsub⟩
    exact ⟨y, hy, hsub.cons_cons x⟩

omit [BEq item] [LawfulBEq item] [DecidableEq item] in
theorem exists_reopened_cons_of_ne {x next : item} {xs : List item} (hnext : next ≠ x) :
    (exists y, y ≠ x ∧ [x, y, x].Sublist (next :: xs)) <->
      exists y, y ≠ x ∧ [x, y, x].Sublist xs := by
  constructor
  · intro h
    rcases h with ⟨y, hy, hsub⟩
    cases hsub with
    | cons _ hrest => exact ⟨y, hy, hrest⟩
    | cons_cons _ hrest => exact absurd rfl hnext
  · intro h
    rcases h with ⟨y, hy, hsub⟩
    exact ⟨y, hy, hsub.cons next⟩

/-- Another item has two runs where something else stands between two of its occurrences. -/
theorem two_le_count_destutter'_of_ne {x start : item} {xs : List item} (hstart : start ≠ x) :
    2 ≤ (xs.destutter' (· ≠ ·) start).count x <->
      exists y, y ≠ x ∧ [x, y, x].Sublist xs := by
  induction xs generalizing start with
  | nil =>
      rw [List.destutter'_nil, List.count_cons_of_ne hstart]
      simp
  | cons next xs ih =>
      by_cases hnext : next = x
      · have hne : start ≠ next := by
          rw [hnext]
          exact hstart
        rw [List.destutter'_cons_pos _ hne, List.count_cons_of_ne hstart, hnext,
          two_le_count_destutter'_self, exists_reopened_cons_self]
      · rw [exists_reopened_cons_of_ne hnext]
        by_cases hne : start ≠ next
        · rw [List.destutter'_cons_pos _ hne, List.count_cons_of_ne hstart]
          exact ih hnext
        · rw [List.destutter'_cons_neg _ hne]
          exact ih hstart

theorem two_le_count_destutter {x : item} {xs : List item} :
    2 ≤ (xs.destutter (· ≠ ·)).count x <->
      exists y, y ≠ x ∧ [x, y, x].Sublist xs := by
  cases xs with
  | nil =>
      rw [List.destutter_nil]
      simp
  | cons next xs =>
      rw [List.destutter_cons']
      by_cases hnext : next = x
      · rw [hnext, two_le_count_destutter'_self, exists_reopened_cons_self]
      · rw [two_le_count_destutter'_of_ne hnext, exists_reopened_cons_of_ne hnext]

end Destuttering

end Foundation
end CatFactory
