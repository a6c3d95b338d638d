import Mathlib.Data.List.Nodup

/-!
# Lists with unique keys

A list whose items carry pairwise different keys is a finite map.  An item is
looked up by its key, taken out, or replaced by another with the same key, and
the lookups of every other key stay as they were.
-/

namespace CatFactory
namespace Foundation

section Keyed

variable {item key : Type} {keyOf : item -> key}

theorem eq_of_key {xs : List item} (hnodup : (xs.map keyOf).Nodup) {x y : item}
    (hx : x ∈ xs) (hy : y ∈ xs) (h : keyOf x = keyOf y) : x = y :=
  List.inj_on_of_nodup_map hnodup hx hy h

section Lookup

variable [DecidableEq key]

def lookup (keyOf : item -> key) (xs : List item) (k : key) : Option item :=
  xs.find? fun x => keyOf x = k

theorem lookup_eq_some_iff {xs : List item} (hnodup : (xs.map keyOf).Nodup) {k : key}
    {x : item} : lookup keyOf xs k = some x <-> x ∈ xs ∧ keyOf x = k := by
  constructor
  · intro h
    exact ⟨List.mem_of_find?_eq_some h, by simpa using List.find?_some h⟩
  · rintro ⟨hx, rfl⟩
    cases hfound : lookup keyOf xs (keyOf x) with
    | none =>
        have hnone := List.find?_eq_none.mp hfound x hx
        simp at hnone
    | some y =>
        have hy := List.mem_of_find?_eq_some hfound
        have hkey : keyOf y = keyOf x := by simpa using List.find?_some hfound
        rw [eq_of_key hnodup hy hx hkey]

theorem lookup_eq_none_iff {xs : List item} {k : key} :
    lookup keyOf xs k = none <-> forall x, x ∈ xs -> keyOf x ≠ k := by
  simp [lookup, List.find?_eq_none]

theorem lookup_append (xs ys : List item) (k : key) :
    lookup keyOf (xs ++ ys) k = (lookup keyOf xs k).or (lookup keyOf ys k) :=
  List.find?_append

/-- A map that keeps the keys is looked up item by item. -/
theorem lookup_map {other : Type} {keyOf' : other -> key} {f : item -> other}
    (hkey : forall x, keyOf' (f x) = keyOf x) (xs : List item) (k : key) :
    lookup keyOf' (xs.map f) k = (lookup keyOf xs k).map f := by
  unfold lookup
  rw [List.find?_map]
  congr 2
  funext x
  simp [hkey x]

/-- A choice by key keeps a lookup whole or empties it. -/
theorem lookup_filter (keep : key -> Bool) (xs : List item) (k : key) :
    lookup keyOf (xs.filter fun x => keep (keyOf x)) k =
      if keep k then lookup keyOf xs k else none := by
  unfold lookup
  rw [List.find?_filter]
  cases hkeep : keep k with
  | true =>
      congr 1
      funext x
      by_cases hk : keyOf x = k
      · simp [hk, hkeep]
      · simp [hk]
  | false =>
      simp only [Bool.false_eq_true, if_false, List.find?_eq_none]
      intro x _ h
      simp only [decide_eq_true_eq] at h
      rw [h.right, hkeep] at h
      cases h.left

/-- Lists with the same items of a key look it up alike. -/
theorem lookup_congr {xs ys : List item} (hxs : (xs.map keyOf).Nodup)
    (hys : (ys.map keyOf).Nodup) {k : key}
    (h : forall x, keyOf x = k -> (x ∈ xs <-> x ∈ ys)) :
    lookup keyOf xs k = lookup keyOf ys k := by
  apply Option.ext
  intro x
  rw [lookup_eq_some_iff hxs, lookup_eq_some_iff hys]
  constructor
  · rintro ⟨hx, hk⟩
    exact ⟨(h x hk).mp hx, hk⟩
  · rintro ⟨hx, hk⟩
    exact ⟨(h x hk).mpr hx, hk⟩

end Lookup

section Change

variable [DecidableEq item]

/-- Put `y` where `x` is. -/
def replaceItem (x y : item) (xs : List item) : List item :=
  xs.map fun z => if z = x then y else z

def removeItem (x : item) (xs : List item) : List item :=
  xs.filter fun z => z ≠ x

theorem mem_removeItem {x z : item} {xs : List item} :
    z ∈ removeItem x xs <-> z ∈ xs ∧ z ≠ x := by
  simp [removeItem]

theorem mem_replaceItem {x y z : item} {xs : List item} (hx : x ∈ xs) :
    z ∈ replaceItem x y xs <-> z = y ∨ z ∈ xs ∧ z ≠ x := by
  constructor
  · intro h
    rcases List.mem_map.mp h with ⟨w, hw, hwz⟩
    split at hwz
    · exact Or.inl hwz.symm
    · rename_i hne
      subst hwz
      exact Or.inr ⟨hw, hne⟩
  · rintro (rfl | ⟨hz, hne⟩)
    · exact List.mem_map.mpr ⟨x, hx, if_pos rfl⟩
    · exact List.mem_map.mpr ⟨z, hz, if_neg hne⟩

theorem keys_replaceItem {x y : item} (h : keyOf y = keyOf x) (xs : List item) :
    (replaceItem x y xs).map keyOf = xs.map keyOf := by
  induction xs with
  | nil => rfl
  | cons z rest ih =>
      unfold replaceItem at ih ⊢
      simp only [List.map_cons, ih]
      split
      · rename_i hz
        rw [hz, h]
      · rfl

theorem nodup_replaceItem {x y : item} {xs : List item} (hnodup : (xs.map keyOf).Nodup)
    (h : keyOf y = keyOf x) : ((replaceItem x y xs).map keyOf).Nodup := by
  rw [keys_replaceItem h]
  exact hnodup

theorem nodup_removeItem {x : item} {xs : List item} (hnodup : (xs.map keyOf).Nodup) :
    ((removeItem x xs).map keyOf).Nodup :=
  hnodup.sublist (List.filter_sublist.map keyOf)

/-- A replacement moves a count by what the two items count for. -/
theorem countP_replaceItem {p : item -> Bool} {x y : item} {xs : List item}
    (hnodup : xs.Nodup) (hx : x ∈ xs) :
    (replaceItem x y xs).countP p + (if p x then 1 else 0) =
      xs.countP p + (if p y then 1 else 0) := by
  induction xs with
  | nil => cases hx
  | cons z rest ih =>
      rw [List.nodup_cons] at hnodup
      have hcons : replaceItem x y (z :: rest) =
          (if z = x then y else z) :: replaceItem x y rest := rfl
      rw [hcons, List.countP_cons, List.countP_cons]
      by_cases hz : z = x
      · subst hz
        have hrest : replaceItem z y rest = rest := by
          refine (List.map_congr_left ?_).trans (List.map_id rest)
          intro w hw
          have hne : w ≠ z := fun h => hnodup.1 (h ▸ hw)
          simp [hne]
        rw [hrest, if_pos rfl]
        omega
      · have hrest := ih hnodup.2 ((List.mem_cons.mp hx).resolve_left fun h => hz h.symm)
        rw [if_neg hz]
        omega

theorem countP_removeItem_le {p : item -> Bool} (x : item) (xs : List item) :
    (removeItem x xs).countP p ≤ xs.countP p :=
  List.Sublist.countP_le List.filter_sublist

end Change

end Keyed

end Foundation
end CatFactory
