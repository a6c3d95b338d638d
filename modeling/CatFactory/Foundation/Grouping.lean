import Mathlib.Data.List.Basic
import Mathlib.Data.List.Count
import Mathlib.Data.List.Induction
import Mathlib.Data.List.Nodup
import Mathlib.Data.List.Perm.Basic

/-!
# Grouping

The items of a list are grouped in one of two ways: each under the key it
carries, keys in the order they are met, or under every member of a family of
groups it fits.  The first loses and repeats nothing; the second lists an item
once for each group it fits.
-/

namespace CatFactory
namespace Foundation

/-!
## By key
-/

section ByKey

variable {item key : Type} [DecidableEq key]

/-- Put an item into the bucket of its key, a new last one when there is none. -/
def addToBucket (k : key) (x : item) : List (key × List item) -> List (key × List item)
  | [] => [(k, [x])]
  | (k', xs) :: rest =>
      if k' = k then (k', xs ++ [x]) :: rest else (k', xs) :: addToBucket k x rest

/-- The buckets of the items that carry a key. -/
def buckets (keyOf : item -> Option key) (xs : List item) : List (key × List item) :=
  xs.foldl
    (fun found x =>
      match keyOf x with
      | none => found
      | some k => addToBucket k x found)
    []

/-- The bucket a key has, none when nothing was put under it. -/
def bucketOf (k : key) : List (key × List item) -> List item
  | [] => []
  | (k', xs) :: rest => if k' = k then xs else bucketOf k rest

theorem keys_addToBucket (k : key) (x : item) (bs : List (key × List item)) :
    (addToBucket k x bs).map Prod.fst =
      if k ∈ bs.map Prod.fst then bs.map Prod.fst else bs.map Prod.fst ++ [k] := by
  induction bs with
  | nil => rfl
  | cons b rest ih =>
      rcases b with ⟨k', xs⟩
      unfold addToBucket
      by_cases hk : k' = k
      · simp [hk]
      · have hk' : k ≠ k' := fun h => hk h.symm
        simp only [hk, if_false, List.map_cons, ih, List.mem_cons, hk', false_or]
        split
        · rfl
        · rfl

theorem addToBucket_new {k : key} (x : item) {bs : List (key × List item)}
    (h : k ∉ bs.map Prod.fst) : addToBucket k x bs = bs ++ [(k, [x])] := by
  induction bs with
  | nil => rfl
  | cons b rest ih =>
      rcases b with ⟨k', xs⟩
      rw [List.map_cons, List.mem_cons, not_or] at h
      rw [addToBucket, if_neg (Ne.symm h.left), ih h.right, List.cons_append]

theorem addToBucket_last {k : key} (x : item) (xs : List item) {bs : List (key × List item)}
    (h : k ∉ bs.map Prod.fst) : addToBucket k x (bs ++ [(k, xs)]) = bs ++ [(k, xs ++ [x])] := by
  induction bs with
  | nil => simp [addToBucket]
  | cons b rest ih =>
      rcases b with ⟨k', ys⟩
      rw [List.map_cons, List.mem_cons, not_or] at h
      rw [List.cons_append, addToBucket, if_neg (Ne.symm h.left), ih h.right, List.cons_append]

theorem buckets_snoc_none {keyOf : item -> Option key} (xs : List item) {x : item}
    (h : keyOf x = none) : buckets keyOf (xs ++ [x]) = buckets keyOf xs := by
  rw [buckets, List.foldl_append, List.foldl_cons, h]
  rfl

/-- One more item goes into the bucket of its key. -/
theorem buckets_snoc_some {keyOf : item -> Option key} (xs : List item) {x : item} {k : key}
    (h : keyOf x = some k) :
    buckets keyOf (xs ++ [x]) = addToBucket k x (buckets keyOf xs) := by
  rw [buckets, List.foldl_append, List.foldl_cons, h]
  rfl

theorem bucketOf_addToBucket (k k' : key) (x : item) (bs : List (key × List item)) :
    bucketOf k' (addToBucket k x bs) =
      if k = k' then bucketOf k' bs ++ [x] else bucketOf k' bs := by
  induction bs with
  | nil =>
      unfold addToBucket
      split
      · rename_i h
        simp [bucketOf, h]
      · rename_i h
        simp [bucketOf, h]
  | cons b rest ih =>
      rcases b with ⟨k₀, xs⟩
      unfold addToBucket
      by_cases h₀ : k₀ = k
      · subst h₀
        by_cases hk : k₀ = k'
        · simp [bucketOf, hk]
        · simp [bucketOf, hk]
      · simp only [h₀, if_false, bucketOf, ih]
        by_cases hk : k₀ = k'
        · have hne : k ≠ k' := fun h => h₀ (hk.trans h.symm)
          simp [hk, hne]
        · simp [hk]

theorem bucketOf_of_mem {bs : List (key × List item)} (hnodup : (bs.map Prod.fst).Nodup)
    {b : key × List item} (hb : b ∈ bs) : bucketOf b.1 bs = b.2 := by
  induction bs with
  | nil => cases hb
  | cons b' rest ih =>
      rcases b' with ⟨k', xs⟩
      rw [List.map_cons, List.nodup_cons] at hnodup
      unfold bucketOf
      cases hb with
      | head => simp
      | tail _ hmem =>
          have hne : k' ≠ b.1 := by
            intro h
            apply hnodup.1
            exact List.mem_map.mpr ⟨b, hmem, h.symm⟩
          simp only [hne, if_false]
          exact ih hnodup.2 hmem

/-- What a pass over the items leaves, from the buckets it began with. -/
private theorem foldl_addToBucket (keyOf : item -> Option key) (xs : List item)
    (bs : List (key × List item)) (hnodup : (bs.map Prod.fst).Nodup) :
    let found := xs.foldl
      (fun found x =>
        match keyOf x with
        | none => found
        | some k => addToBucket k x found)
      bs
    (found.map Prod.fst).Nodup ∧
      (forall k, k ∈ found.map Prod.fst <->
        k ∈ bs.map Prod.fst ∨ exists x, x ∈ xs ∧ keyOf x = some k) ∧
      forall k, bucketOf k found =
        bucketOf k bs ++ xs.filter (fun x => keyOf x = some k) := by
  induction xs generalizing bs with
  | nil => simp [hnodup]
  | cons x rest ih =>
      simp only [List.foldl_cons]
      cases hx : keyOf x with
      | none =>
          rcases ih bs hnodup with ⟨hkeys, hmem, hbucket⟩
          refine ⟨hkeys, ?_, ?_⟩
          · intro k
            rw [hmem k]
            simp [hx]
          · intro k
            rw [hbucket k]
            simp [hx]
      | some k₀ =>
          have hadded : ((addToBucket k₀ x bs).map Prod.fst).Nodup := by
            rw [keys_addToBucket]
            split
            · exact hnodup
            · rename_i hnew
              rw [List.nodup_append]
              refine ⟨hnodup, by simp, ?_⟩
              intro a ha b hb hab
              rw [List.mem_singleton] at hb
              exact hnew (hb ▸ hab ▸ ha)
          rcases ih (addToBucket k₀ x bs) hadded with ⟨hkeys, hmem, hbucket⟩
          refine ⟨hkeys, ?_, ?_⟩
          · intro k
            have hold : k ∈ (addToBucket k₀ x bs).map Prod.fst <->
                k ∈ bs.map Prod.fst ∨ k₀ = k := by
              rw [keys_addToBucket]
              split
              · rename_i hin
                constructor
                · exact Or.inl
                · rintro (h | rfl)
                  · exact h
                  · exact hin
              · rw [List.mem_append, List.mem_singleton, @eq_comm _ k]
            rw [hmem k, hold, or_assoc]
            apply or_congr Iff.rfl
            simp [hx]
          · intro k
            rw [hbucket k, bucketOf_addToBucket]
            by_cases hk : k₀ = k
            · simp [hk, hx]
            · simp [hk, hx]

variable {keyOf : item -> Option key} {xs : List item}

theorem eraseDups_snoc (keys : List key) (k : key) :
    (keys ++ [k]).eraseDups = if k ∈ keys then keys.eraseDups else keys.eraseDups ++ [k] := by
  rw [List.eraseDups_append, List.removeAll, List.filter_cons, List.filter_nil]
  by_cases hmem : k ∈ keys
  · simp [hmem]
  · simp [hmem, List.eraseDups_cons]

/-- The keys stand in the order in which they are met. -/
theorem keys_buckets (keyOf : item -> Option key) (xs : List item) :
    (buckets keyOf xs).map Prod.fst = (xs.filterMap keyOf).eraseDups := by
  induction xs using List.reverseRecOn with
  | nil => rfl
  | append_singleton xs x ih =>
      rw [List.filterMap_append]
      cases hkey : keyOf x with
      | none => simp [buckets_snoc_none xs hkey, ih, hkey]
      | some k =>
          rw [buckets_snoc_some xs hkey, keys_addToBucket, ih, List.filterMap_cons_some hkey,
            List.filterMap_nil, eraseDups_snoc]
          simp only [List.mem_eraseDups]

theorem nodup_keys_buckets : ((buckets keyOf xs).map Prod.fst).Nodup :=
  (foldl_addToBucket keyOf xs [] List.nodup_nil).1

/-- A bucket holds the items of its key, and there is one. -/
theorem mem_buckets_iff {b : key × List item} :
    b ∈ buckets keyOf xs <->
      b.2 = xs.filter (fun x => keyOf x = some b.1) ∧ b.2 ≠ [] := by
  rcases foldl_addToBucket keyOf xs [] List.nodup_nil with ⟨hkeys, hmem, hbucket⟩
  have hfound : forall k, bucketOf k (buckets keyOf xs) =
      xs.filter (fun x => keyOf x = some k) := by
    intro k
    exact (hbucket k).trans (List.nil_append _)
  constructor
  · intro hb
    have heq : b.2 = xs.filter (fun x => keyOf x = some b.1) := by
      rw [← hfound b.1]
      exact (bucketOf_of_mem hkeys hb).symm
    constructor
    · exact heq
    · have hin := (hmem b.1).mp (List.mem_map_of_mem hb)
      rcases hin with hnil | ⟨x, hx, hxk⟩
      · simp at hnil
      · rw [heq]
        exact List.ne_nil_of_mem (List.mem_filter.mpr ⟨hx, by simpa using hxk⟩)
  · rintro ⟨heq, hne⟩
    rcases List.exists_mem_of_ne_nil b.2 hne with ⟨x, hx⟩
    rw [heq, List.mem_filter] at hx
    have hin : b.1 ∈ (buckets keyOf xs).map Prod.fst :=
      (hmem b.1).mpr (Or.inr ⟨x, hx.1, by simpa using hx.2⟩)
    rcases List.mem_map.mp hin with ⟨b', hb', hkey⟩
    have hval : b'.2 = b.2 := by
      rw [← bucketOf_of_mem hkeys hb', heq, ← hfound b.1, hkey]
      rfl
    have hbb : b' = b := Prod.ext hkey hval
    exact hbb ▸ hb'

end ByKey

/-!
## By membership
-/

section ByMembership

variable {item group : Type} [DecidableEq item] {fits : group -> item -> Bool}

/-- An item is listed once for each group it fits. -/
theorem count_flatMap_filter (x : item) (gs : List group) (xs : List item) :
    (gs.flatMap fun g => xs.filter (fits g)).count x =
      gs.countP (fun g => fits g x) * xs.count x := by
  induction gs with
  | nil => simp
  | cons g rest ih =>
      rw [List.flatMap_cons, List.count_append, ih, List.countP_cons]
      by_cases hfit : fits g x = true
      · rw [List.count_filter hfit]
        simp [hfit, Nat.add_mul, Nat.add_comm]
      · have hnone : (xs.filter (fits g)).count x = 0 := by
          apply List.count_eq_zero.mpr
          intro hmem
          exact hfit (List.mem_filter.mp hmem).2
        simp [hfit, hnone]

theorem perm_flatMap_filter {gs : List group} {xs : List item}
    (h : forall x, x ∈ xs -> gs.countP (fun g => fits g x) = 1) :
    (gs.flatMap fun g => xs.filter (fits g)).Perm xs := by
  rw [List.perm_iff_count]
  intro x
  rw [count_flatMap_filter]
  by_cases hx : x ∈ xs
  · rw [h x hx, Nat.one_mul]
  · rw [List.count_eq_zero.mpr hx, Nat.mul_zero]

/-- The buckets and what carries no key make up the list. -/
theorem perm_buckets {key : Type} [DecidableEq key] (keyOf : item -> Option key)
    (xs : List item) :
    ((buckets keyOf xs).flatMap Prod.snd ++ xs.filter (fun x => keyOf x = none)).Perm xs := by
  have hlisted : (buckets keyOf xs).flatMap Prod.snd =
      ((buckets keyOf xs).map Prod.fst).flatMap fun k =>
        xs.filter (fun x => decide (keyOf x = some k)) := by
    rw [List.flatMap_map]
    apply List.flatMap_congr
    intro b hb
    exact (mem_buckets_iff.mp hb).1
  rw [List.perm_iff_count]
  intro x
  rw [List.count_append, hlisted, count_flatMap_filter]
  by_cases hx : x ∈ xs
  · cases hkey : keyOf x with
    | none => simp [List.count_filter, hkey]
    | some k =>
        have hne : xs.filter (fun y => keyOf y = some k) ≠ [] :=
          List.ne_nil_of_mem (List.mem_filter.mpr ⟨hx, by simpa using hkey⟩)
        have hin : k ∈ (buckets keyOf xs).map Prod.fst :=
          List.mem_map.mpr
            ⟨(k, xs.filter fun y => keyOf y = some k), mem_buckets_iff.mpr ⟨rfl, hne⟩, rfl⟩
        have hone : ((buckets keyOf xs).map Prod.fst).countP
            (fun k' => decide (some k = some k')) = 1 := by
          rw [← List.count_eq_one_of_mem nodup_keys_buckets hin, List.count]
          apply List.countP_congr
          intro k' _
          rw [decide_eq_true_iff, beq_iff_eq, Option.some_inj]
          exact eq_comm
        have hout : (xs.filter fun y => decide (keyOf y = none)).count x = 0 := by
          apply List.count_eq_zero.mpr
          intro hmem
          simp [hkey] at hmem
        rw [hone, hout, Nat.one_mul, Nat.add_zero]
  · have hout : (xs.filter fun y => decide (keyOf y = none)).count x = 0 :=
      List.count_eq_zero.mpr fun hmem => hx (List.mem_filter.mp hmem).1
    rw [List.count_eq_zero.mpr hx, hout, Nat.mul_zero]

end ByMembership

end Foundation
end CatFactory
