import CatFactory.Foundation.Grouping

/-!
# Folding by key

The items of a list are folded into one value for each key they carry, keys in
the order they are met.  Where the values merge in any order, the rows of such a
fold depend on the items alone, and folding the rows again is folding the items.
-/

namespace CatFactory
namespace Foundation

/-!
## A map that is read and set
-/

section Upsert

variable {item key value : Type} [DecidableEq key]

/-- Set a key from the value it has, a new last one when it has none. -/
def upsert (k : key) (f : Option value -> value) : List (key × value) -> List (key × value)
  | [] => [(k, f none)]
  | (k', v) :: rest =>
      if k' = k then (k', f (some v)) :: rest else (k', v) :: upsert k f rest

theorem lookup_cons_eq [BEq key] [LawfulBEq key] (k k' : key) (v : value)
    (rest : List (key × value)) :
    ((k', v) :: rest).lookup k = if k' = k then some v else rest.lookup k := by
  rw [List.lookup_cons]
  by_cases hk : k' = k
  · rw [if_pos hk, hk, beq_self_eq_true]
  · rw [if_neg hk, beq_false_of_ne (Ne.symm hk)]

theorem lookup_upsert [BEq key] [LawfulBEq key] (k k' : key) (f : Option value -> value)
    (entries : List (key × value)) :
    (upsert k f entries).lookup k' =
      if k = k' then some (f (entries.lookup k)) else entries.lookup k' := by
  induction entries with
  | nil =>
      rw [upsert, lookup_cons_eq]
      rfl
  | cons entry rest ih =>
      rcases entry with ⟨first, v⟩
      rw [upsert, lookup_cons_eq, lookup_cons_eq]
      by_cases hfirst : first = k
      · rw [if_pos hfirst, if_pos hfirst, lookup_cons_eq, hfirst]
        by_cases hk : k = k' <;> simp [hk]
      · rw [if_neg hfirst, if_neg hfirst, lookup_cons_eq, ih]
        by_cases hk : k = k'
        · rw [if_pos hk, if_pos hk, if_neg fun h => hfirst (h.trans hk.symm)]
        · rw [if_neg hk, if_neg hk]

/-- Where a key has one value only, looking it up finds that value. -/
theorem lookup_eq_some_iff_mem [BEq key] [LawfulBEq key] {k : key} {v : value}
    {entries : List (key × value)}
    (hone : forall v', (k, v') ∈ entries -> v' = v) :
    entries.lookup k = some v <-> (k, v) ∈ entries := by
  induction entries with
  | nil => simp
  | cons entry rest ih =>
      rcases entry with ⟨first, v'⟩
      have hrest := ih fun other hother => hone other (List.mem_cons_of_mem _ hother)
      rw [lookup_cons_eq]
      by_cases hfirst : first = k
      · have hv : v' = v := hone v' (by rw [hfirst]; exact List.mem_cons_self)
        simp [hfirst, hv]
      · simp [hfirst, hrest, Ne.symm hfirst]

/-- A map whose keys are apart is its pairs. -/
theorem lookup_eq_some_iff_of_nodup [BEq key] [LawfulBEq key] {k : key} {v : value}
    {entries : List (key × value)} (hnodup : (entries.map Prod.fst).Nodup) :
    entries.lookup k = some v <-> (k, v) ∈ entries := by
  constructor
  · intro h
    rcases List.lookup_eq_some_iff.mp h with ⟨before, after, hsplit, _⟩
    rw [hsplit]
    exact List.mem_append_right _ List.mem_cons_self
  · intro h
    apply (lookup_eq_some_iff_mem _).mpr h
    intro v' h'
    exact congrArg Prod.snd (List.inj_on_of_nodup_map hnodup h' h rfl)

theorem keys_upsert (k : key) (f : Option value -> value) (entries : List (key × value)) :
    (upsert k f entries).map Prod.fst =
      if k ∈ entries.map Prod.fst then entries.map Prod.fst else entries.map Prod.fst ++ [k] := by
  induction entries with
  | nil => rfl
  | cons entry rest ih =>
      rcases entry with ⟨first, v⟩
      rw [upsert]
      by_cases hfirst : first = k
      · simp [hfirst]
      · rw [if_neg hfirst]
        simp only [List.map_cons, ih, List.mem_cons, Ne.symm hfirst, false_or]
        split
        · rfl
        · rfl

theorem nodup_keys_upsert (k : key) (f : Option value -> value) {entries : List (key × value)}
    (h : (entries.map Prod.fst).Nodup) : ((upsert k f entries).map Prod.fst).Nodup := by
  rw [keys_upsert]
  by_cases hmem : k ∈ entries.map Prod.fst
  · rw [if_pos hmem]
    exact h
  · rw [if_neg hmem, ← List.concat_eq_append]
    exact h.concat hmem

/-- A new key comes last. -/
theorem upsert_fresh {k : key} (f : Option value -> value) {entries : List (key × value)}
    (h : k ∉ entries.map Prod.fst) : upsert k f entries = entries ++ [(k, f none)] := by
  induction entries with
  | nil => rfl
  | cons entry rest ih =>
      rw [List.map_cons, List.mem_cons, not_or] at h
      rw [upsert, if_neg (Ne.symm h.left), ih h.right]
      rfl

/-- Setting a key to the value it has changes nothing. -/
theorem upsert_eq_self [BEq key] [LawfulBEq key] {k : key} {f : Option value -> value} {v : value}
    (hf : f (some v) = v) {entries : List (key × value)} (h : entries.lookup k = some v) :
    upsert k f entries = entries := by
  induction entries with
  | nil => cases h
  | cons entry rest ih =>
      rcases entry with ⟨first, v'⟩
      rw [lookup_cons_eq] at h
      rw [upsert]
      by_cases hfirst : first = k
      · rw [if_pos hfirst] at h
        rw [if_pos hfirst, Option.some.inj h, hf]
      · rw [if_neg hfirst] at h
        rw [if_neg hfirst, ih h]

theorem mem_upsert {k : key} {f : Option value -> value} {entries : List (key × value)}
    {pair : key × value} (h : pair ∈ upsert k f entries) :
    pair ∈ entries ∨ exists prior, pair = (k, f prior) := by
  induction entries with
  | nil => exact Or.inr ⟨none, List.mem_singleton.mp h⟩
  | cons entry rest ih =>
      rw [upsert] at h
      by_cases hfirst : entry.1 = k
      · rw [if_pos hfirst] at h
        rcases List.mem_cons.mp h with heq | hrest
        · rw [hfirst] at heq
          exact Or.inr ⟨_, heq⟩
        · exact Or.inl (List.mem_cons_of_mem _ hrest)
      · rw [if_neg hfirst] at h
        rcases List.mem_cons.mp h with heq | hrest
        · rw [heq]
          exact Or.inl List.mem_cons_self
        · rcases ih hrest with hold | hnew
          · exact Or.inl (List.mem_cons_of_mem _ hold)
          · exact Or.inr hnew

/-- Every item sets the value of its key. -/
def foldByKey (keyOf : item -> key) (combine : item -> Option value -> value)
    (xs : List item) : List (key × value) :=
  xs.foldl (fun found x => upsert (keyOf x) (combine x) found) []

variable {keyOf : item -> key} {combine : item -> Option value -> value}
  {total : List item -> value}

/-- Adding an item to the buckets is setting the total of its bucket. -/
theorem upsert_totals (hone : forall x, total [x] = combine x none)
    (hmore : forall xs x, xs ≠ [] -> total (xs ++ [x]) = combine x (some (total xs)))
    (k : key) (x : item) {bs : List (key × List item)}
    (hfull : forall b, b ∈ bs -> b.2 ≠ []) :
    upsert k (combine x) (bs.map fun b => (b.1, total b.2)) =
      (addToBucket k x bs).map fun b => (b.1, total b.2) := by
  induction bs with
  | nil => simp [upsert, addToBucket, hone]
  | cons b rest ih =>
      rcases b with ⟨k', xs⟩
      have hxs : xs ≠ [] := hfull (k', xs) List.mem_cons_self
      have hrest := ih fun b hb => hfull b (List.mem_cons_of_mem _ hb)
      by_cases hk : k' = k
      · simp [upsert, addToBucket, hk, hmore xs x hxs]
      · simp [upsert, addToBucket, hk, hrest]

theorem addToBucket_full (k : key) (x : item) {bs : List (key × List item)}
    (hfull : forall b, b ∈ bs -> b.2 ≠ []) :
    forall b, b ∈ addToBucket k x bs -> b.2 ≠ [] := by
  induction bs with
  | nil => simp [addToBucket]
  | cons first rest ih =>
      rcases first with ⟨k', xs⟩
      have hrest := ih fun b hb => hfull b (List.mem_cons_of_mem _ hb)
      intro b hb
      unfold addToBucket at hb
      by_cases hk : k' = k
      · rw [if_pos hk] at hb
        cases hb with
        | head => simp
        | tail _ hb => exact hfull b (List.mem_cons_of_mem _ hb)
      · rw [if_neg hk] at hb
        cases hb with
        | head => exact hfull (k', xs) List.mem_cons_self
        | tail _ hb => exact hrest b hb

/-- The rows of a fold are the totals of the buckets. -/
theorem foldByKey_eq (hone : forall x, total [x] = combine x none)
    (hmore : forall xs x, xs ≠ [] -> total (xs ++ [x]) = combine x (some (total xs)))
    (xs : List item) :
    foldByKey keyOf combine xs =
      (buckets (fun x => some (keyOf x)) xs).map fun b => (b.1, total b.2) := by
  have hfrom : forall bs : List (key × List item), (forall b, b ∈ bs -> b.2 ≠ []) ->
      xs.foldl (fun found x => upsert (keyOf x) (combine x) found)
          (bs.map fun b => (b.1, total b.2)) =
        (xs.foldl (fun found x => addToBucket (keyOf x) x found) bs).map
          fun b => (b.1, total b.2) := by
    induction xs with
    | nil =>
        intro bs _
        rfl
    | cons x rest ih =>
        intro bs hfull
        rw [List.foldl_cons, List.foldl_cons, upsert_totals hone hmore _ _ hfull]
        exact ih _ (addToBucket_full _ _ hfull)
  exact hfrom [] (by simp)

theorem mem_foldByKey_iff (hone : forall x, total [x] = combine x none)
    (hmore : forall xs x, xs ≠ [] -> total (xs ++ [x]) = combine x (some (total xs)))
    {xs : List item} {row : key × value} :
    row ∈ foldByKey keyOf combine xs <->
      row.2 = total (xs.filter fun x => keyOf x = row.1) ∧ exists x, x ∈ xs ∧ keyOf x = row.1 := by
  rw [foldByKey_eq hone hmore]
  constructor
  · intro h
    rcases List.mem_map.mp h with ⟨b, hb, heq⟩
    rcases mem_buckets_iff.mp hb with ⟨hitems, hne⟩
    rw [← heq]
    constructor
    · rw [hitems]
      simp
    · rcases List.exists_mem_of_ne_nil b.2 hne with ⟨x, hx⟩
      rw [hitems, List.mem_filter] at hx
      exact ⟨x, hx.left, by simpa using hx.right⟩
  · intro h
    rcases h with ⟨htotal, x, hx, hkey⟩
    apply List.mem_map.mpr
    exists (row.1, xs.filter fun x => keyOf x = row.1)
    constructor
    · apply mem_buckets_iff.mpr
      constructor
      · simp
      · exact List.ne_nil_of_mem (List.mem_filter.mpr ⟨hx, by simpa using hkey⟩)
    · exact Prod.ext rfl htotal.symm

theorem nodup_keys_foldByKey (hone : forall x, total [x] = combine x none)
    (hmore : forall xs x, xs ≠ [] -> total (xs ++ [x]) = combine x (some (total xs)))
    (xs : List item) : ((foldByKey keyOf combine xs).map Prod.fst).Nodup := by
  rw [foldByKey_eq hone hmore, List.map_map]
  exact @nodup_keys_buckets _ _ _ (fun x => some (keyOf x)) xs

/-- Where the order of the items does not matter to a total, it moves the rows alone. -/
theorem foldByKey_perm (hone : forall x, total [x] = combine x none)
    (hmore : forall xs x, xs ≠ [] -> total (xs ++ [x]) = combine x (some (total xs)))
    {xs ys : List item} (hperm : xs.Perm ys)
    (htotal : forall k, total (xs.filter fun x => keyOf x = k) =
      total (ys.filter fun x => keyOf x = k)) :
    (foldByKey keyOf combine xs).Perm (foldByKey keyOf combine ys) := by
  apply (List.perm_ext_iff_of_nodup (nodup_keys_foldByKey hone hmore xs).of_map
    (nodup_keys_foldByKey hone hmore ys).of_map).mpr
  intro row
  rw [mem_foldByKey_iff hone hmore, mem_foldByKey_iff hone hmore, htotal]
  simp [hperm.mem_iff]

end Upsert

/-!
## Totals
-/

section Totals

variable {value : Type}

/-- Merge all values into a first one. -/
def totalOf (op : value -> value -> value) (e : value) (xs : List value) : value :=
  xs.foldl op e

variable {op : value -> value -> value} {e : value}

/-- What a merge does to one column, the total does to that column of all. -/
theorem column_totalOf {column : Type} {opc : column -> column -> column} (col : value -> column)
    (hmerge : forall a b, col (op a b) = opc (col a) (col b)) (xs : List value) :
    col (totalOf op e xs) = (xs.map col).foldl opc (col e) := by
  unfold totalOf
  rw [List.foldl_map]
  exact (List.foldl_hom col fun a b => (hmerge a b).symm).symm

variable [Std.Associative op] [Std.Commutative op]

theorem totalOf_cons (x : value) (xs : List value) :
    totalOf op e (x :: xs) = op x (totalOf op e xs) := by
  have hcomm : op e x = op x e := Std.Commutative.comm e x
  show xs.foldl op (op e x) = op x (xs.foldl op e)
  rw [hcomm]
  exact List.foldl_assoc

theorem op_totalOf (hidem : op e e = e) (xs : List value) :
    op e (totalOf op e xs) = totalOf op e xs := by
  have hcons : totalOf op e (e :: xs) = op e (totalOf op e xs) := totalOf_cons e xs
  rw [← hcons]
  show xs.foldl op (op e e) = xs.foldl op e
  rw [hidem]

theorem totalOf_append (hidem : op e e = e) (xs ys : List value) :
    totalOf op e (xs ++ ys) = op (totalOf op e xs) (totalOf op e ys) := by
  induction xs with
  | nil => exact (op_totalOf hidem ys).symm
  | cons x xs ih =>
      have hassoc : forall a b c, op (op a b) c = op a (op b c) := Std.Associative.assoc
      rw [List.cons_append, totalOf_cons, totalOf_cons, ih, hassoc]

/-- Totalling parts and then the totals is totalling everything. -/
theorem totalOf_flatten (hidem : op e e = e) (parts : List (List value)) :
    totalOf op e (parts.map (totalOf op e)) = totalOf op e parts.flatten := by
  induction parts with
  | nil => rfl
  | cons part rest ih =>
      rw [List.map_cons, totalOf_cons, ih, List.flatten_cons, totalOf_append hidem]

theorem totalOf_perm {xs ys : List value} (h : xs.Perm ys) :
    totalOf op e xs = totalOf op e ys := by
  induction h with
  | nil => rfl
  | cons x _ ih => rw [totalOf_cons, totalOf_cons, ih]
  | swap x y xs =>
      have hassoc : forall a b c, op (op a b) c = op a (op b c) := Std.Associative.assoc
      have hcomm : op y x = op x y := Std.Commutative.comm y x
      rw [totalOf_cons, totalOf_cons, totalOf_cons, totalOf_cons, ← hassoc, ← hassoc, hcomm]
  | trans _ _ ih ih' => exact ih.trans ih'

/-- Items that are left out count as the empty total. -/
theorem totalOf_filter {item : Type} (hidem : op e e = e) (keep : item -> Bool)
    (f : item -> value) (xs : List item) :
    totalOf op e (xs.map fun x => if keep x then f x else e) =
      totalOf op e ((xs.filter keep).map f) := by
  induction xs with
  | nil => rfl
  | cons x xs ih =>
      rw [List.map_cons, totalOf_cons, ih]
      cases hkeep : keep x with
      | true => rw [if_pos rfl, List.filter_cons_of_pos hkeep, List.map_cons, totalOf_cons]
      | false =>
          have hskip : ¬ keep x = true := by
            rw [hkeep]
            exact Bool.false_ne_true
          rw [if_neg Bool.false_ne_true, List.filter_cons_of_neg hskip, op_totalOf hidem]

/-- The rows of a fold by key total up to what their items do. -/
theorem totalOf_foldByKey {item key row : Type} [DecidableEq key] {keyOf : item -> key}
    {combine : item -> Option row -> row} {total : List item -> row}
    (hone : forall x, total [x] = combine x none)
    (hmore : forall xs x, xs ≠ [] -> total (xs ++ [x]) = combine x (some (total xs)))
    (hidem : op e e = e) {f : item -> value} {g : row -> value} {xs : List item}
    (hg : forall k part, part ≠ [] -> (forall x, x ∈ part -> x ∈ xs ∧ keyOf x = k) ->
      g (total part) = totalOf op e (part.map f)) :
    totalOf op e (((foldByKey keyOf combine xs).map Prod.snd).map g) = totalOf op e (xs.map f) := by
  classical
  have hbuckets : ((foldByKey keyOf combine xs).map Prod.snd).map g =
      ((buckets (fun x => some (keyOf x)) xs).map fun b => b.2.map f).map (totalOf op e) := by
    rw [foldByKey_eq hone hmore, List.map_map, List.map_map, List.map_map]
    apply List.map_congr_left
    intro b hb
    rcases mem_buckets_iff.mp hb with ⟨hitems, hne⟩
    apply hg b.1 b.2 hne
    intro x hx
    rw [hitems, List.mem_filter] at hx
    exact ⟨hx.left, by simpa using hx.right⟩
  have hperm := perm_buckets (fun x => some (keyOf x)) xs
  have hkeyed : xs.filter (fun x => decide (some (keyOf x) = none)) = [] := by
    simp
  rw [hkeyed, List.append_nil] at hperm
  rw [hbuckets, totalOf_flatten hidem]
  apply totalOf_perm
  have hflat : ((buckets (fun x => some (keyOf x)) xs).map fun b => b.2.map f).flatten =
      ((buckets (fun x => some (keyOf x)) xs).flatMap Prod.snd).map f := by
    rw [List.map_flatMap, List.flatMap_def]
  rw [hflat]
  exact hperm.map f

end Totals

end Foundation
end CatFactory
