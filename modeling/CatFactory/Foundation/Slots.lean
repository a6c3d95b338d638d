import Mathlib.Data.List.Basic

/-!
# Tables whose rows keep their places

A row of a table is replaced where it stands, and new rows come in at the end;
so whatever is known of a row by its place stays known of that place.
-/

namespace CatFactory
namespace Foundation

variable {row : Type} {rows more : List row} {i k : Nat} {x y z : row}

/-! ## Rows that are appended -/

theorem slot_append (h : rows[k]? = some x) : (rows ++ more)[k]? = some x :=
  (List.getElem?_append_left (List.getElem?_eq_some_iff.mp h).1).trans h

theorem slot_of_append (h : (rows ++ [y])[k]? = some x) :
    rows[k]? = some x ∨ k = rows.length ∧ x = y := by
  by_cases hk : k < rows.length
  · rw [List.getElem?_append_left hk] at h
    exact Or.inl h
  · have hbound := (List.getElem?_eq_some_iff.mp h).1
    rw [List.length_append, List.length_singleton] at hbound
    have hlast : k = rows.length := Nat.le_antisymm (Nat.le_of_lt_succ hbound) (Nat.le_of_not_lt hk)
    rw [hlast, List.getElem?_concat_length] at h
    exact Or.inr ⟨hlast, (Option.some.inj h).symm⟩

/-! ## A row that is replaced -/

theorem slot_set_self (h : rows[i]? = some x) : (rows.set i y)[i]? = some y :=
  List.getElem?_set_self (List.getElem?_eq_some_iff.mp h).1

/-- What stands at a place after the replacement. -/
theorem slot_set (hi : rows[i]? = some x) (y : row) (hk : rows[k]? = some z) :
    exists z', (rows.set i y)[k]? = some z' ∧ (z' = z ∨ z = x ∧ z' = y) := by
  by_cases hik : i = k
  · rw [← hik, hi] at hk
    rw [← hik]
    exact ⟨y, slot_set_self hi, Or.inr ⟨(Option.some.inj hk).symm, rfl⟩⟩
  · rw [List.getElem?_set_ne hik]
    exact ⟨z, hk, Or.inl rfl⟩

theorem slot_of_set (hi : rows[i]? = some x) (hk : (rows.set i y)[k]? = some z) :
    i = k ∧ z = y ∨ i ≠ k ∧ rows[k]? = some z := by
  by_cases hik : i = k
  · rw [← hik, slot_set_self hi] at hk
    exact Or.inl ⟨hik, (Option.some.inj hk).symm⟩
  · rw [List.getElem?_set_ne hik] at hk
    exact Or.inr ⟨hik, hk⟩

end Foundation
end CatFactory
