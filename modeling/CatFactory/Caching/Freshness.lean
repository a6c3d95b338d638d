import CatFactory.Caching.Network

/-!
# What an instance may still serve

An instance can serve the rows in its memory and the rows that loads under way
will put there.  A bump is reflected by an instance when none of these is older
than what the bump's writer had committed.  Whatever an instance does, it only
narrows what it holds or reads the source anew, so a bump once reflected stays
reflected.
-/

namespace CatFactory
namespace Caching

variable {x : Instance} {n : Net} {load : Load}

/-- A row in memory, or one that a load will publish if nothing intervenes. -/
def Instance.Holds (x : Instance) (c : String) (p : Place) (row : Row) : Prop :=
  x.entries c p = some row ∨
    exists l, l ∈ x.loads ∧ l.cache = c ∧ l.place = p ∧ l.stage = .fetched row ∧
      l.fence = x.invalidations c

/-- No load has seen more invalidations than there were. -/
def Instance.Fenced (x : Instance) : Prop :=
  forall l, l ∈ x.loads -> l.fence ≤ x.invalidations l.cache

def Instance.Reflects (x : Instance) (c : String) (scope : Scope) (committed : Place -> Nat) :
    Prop :=
  forall p row, scope.covers p = true -> x.Holds c p row -> committed p ≤ row.version

/-- What `y` holds beyond `x` is what the source holds now. -/
structure Refreshed (n : Net) (x y : Instance) : Prop where
  fenced : y.Fenced
  holds : forall c p row, y.Holds c p row -> x.Holds c p row ∨ n.committed c p ≤ row.version

theorem Refreshed.trans {x y z : Instance} (h : Refreshed n x y)
    (h' : Refreshed n y z) : Refreshed n x z where
  fenced := h'.fenced
  holds := by
    intro c p row hz
    rcases h'.holds c p row hz with hy | hnew
    · exact h.holds c p row hy
    · exact Or.inr hnew

theorem Instance.Reflects.refreshed {x y : Instance} {c : String} {scope : Scope}
    {committed : Place -> Nat} (h : x.Reflects c scope committed) (hr : Refreshed n x y)
    (hle : forall p, committed p ≤ n.committed c p) : y.Reflects c scope committed := by
  intro p row hcov hy
  rcases hr.holds c p row hy with hx | hnew
  · exact h p row hcov hx
  · exact Nat.le_trans (hle p) hnew

/-- Nothing about the rows changed. -/
theorem refreshed_of_rows {x y : Instance} (hx : x.Fenced) (hentries : y.entries = x.entries)
    (hloads : y.loads = x.loads) (hinv : y.invalidations = x.invalidations) : Refreshed n x y where
  fenced := by
    intro l hl
    rw [hloads] at hl
    rw [hinv]
    exact hx l hl
  holds := by
    intro c p row h
    left
    unfold Instance.Holds at h ⊢
    rw [hentries, hloads, hinv] at h
    exact h

theorem refreshed_refl (hx : x.Fenced) : Refreshed n x x :=
  refreshed_of_rows hx rfl rfl rfl

/-! ## Invalidations -/

theorem dropWhere_invalidations (c : String) (drop : Place -> Bool) (x : Instance)
    (d : String) :
    (x.dropWhere c drop).invalidations d =
      if d = c then x.invalidations c + 1 else x.invalidations d := by
  show Function.update x.invalidations c (x.invalidations c + 1) d = _
  rw [Function.update_apply]

theorem dropWhere_entries (c : String) (drop : Place -> Bool) (x : Instance) (d : String)
    (p : Place) :
    (x.dropWhere c drop).entries d p =
      if d = c ∧ drop p = true then none else x.entries d p := by
  show Function.update x.entries c (fun q => if drop q then none else x.entries c q) d p = _
  rw [Function.update_apply]
  by_cases hd : d = c
  · rw [if_pos hd, hd]
    by_cases hp : drop p = true
    · rw [if_pos hp, if_pos ⟨rfl, hp⟩]
    · rw [if_neg hp, if_neg (fun h => hp h.right)]
  · rw [if_neg hd, if_neg (fun h => hd h.left)]

theorem fenced_dropWhere {c : String} {drop : Place -> Bool} (hx : x.Fenced) :
    (x.dropWhere c drop).Fenced := by
  intro l hl
  rw [dropWhere_invalidations]
  split
  · rename_i hc
    have h := hx l hl
    rw [hc] at h
    exact Nat.le_succ_of_le h
  · exact hx l hl

/-- After an invalidation nothing it is about is held, in memory or on its way there. -/
theorem holds_dropWhere {c d : String} {drop : Place -> Bool} {p : Place} {row : Row}
    (hx : x.Fenced) (h : (x.dropWhere c drop).Holds d p row) :
    x.Holds d p row ∧ (d = c -> drop p = false) := by
  rcases h with hentry | ⟨l, hl, hcache, hplace, hstage, hfence⟩
  · rw [dropWhere_entries] at hentry
    split at hentry
    · cases hentry
    · rename_i hno
      constructor
      · exact Or.inl hentry
      · intro hd
        cases hdrop : drop p with
        | false => rfl
        | true => exact absurd ⟨hd, hdrop⟩ hno
  · rw [dropWhere_invalidations] at hfence
    split at hfence
    · rename_i hd
      have hle := hx l hl
      rw [hcache, hd, hfence] at hle
      exact absurd hle (Nat.not_succ_le_self _)
    · rename_i hd
      constructor
      · exact Or.inr ⟨l, hl, hcache, hplace, hstage, hfence⟩
      · intro hdc
        exact absurd hdc hd

theorem refreshed_dropWhere (c : String) (drop : Place -> Bool)
    (hx : x.Fenced) : Refreshed n x (x.dropWhere c drop) where
  fenced := fenced_dropWhere hx
  holds := fun _ _ _ h => Or.inl (holds_dropWhere hx h).left

/-- Rows that are all dropped reflect every write. -/
theorem reflects_dropWhere {c : String} {drop : Place -> Bool} {scope : Scope}
    {committed : Place -> Nat} (hx : x.Fenced)
    (hdrop : forall p, scope.covers p = true -> drop p = true) :
    (x.dropWhere c drop).Reflects c scope committed := by
  intro p row hcov h
  have hno := (holds_dropWhere hx h).right rfl
  rw [hdrop p hcov] at hno
  cases hno

/-- A counter speaks for every row that its invalidations were about. -/
theorem spokenFor_of_covers {scope : Scope} {p : Place} (h : scope.covers p = true) :
    spokenFor scope.directoryGroup p = true := by
  cases scope with
  | all => rfl
  | group g =>
      unfold spokenFor
      split
      · rfl
      · exact h
  | key g k =>
      unfold spokenFor
      split
      · rfl
      · exact (Bool.and_eq_true_iff.mp h).left

theorem covers_of_within {a b : Scope} {p : Place} (h : a.within b = true)
    (hp : a.covers p = true) : b.covers p = true := by
  cases b with
  | all => rfl
  | group g =>
      cases a with
      | all => cases h
      | group g' =>
          have hg : g' = g := of_decide_eq_true h
          rw [← hg]
          exact hp
      | key g' k =>
          have hg : g' = g := of_decide_eq_true h
          rw [← hg]
          exact (Bool.and_eq_true_iff.mp hp).left
  | key g k =>
      cases a with
      | all => cases h
      | group g' => cases h
      | key g' k' =>
          have hg := Bool.and_eq_true_iff.mp h
          have h1 : g' = g := of_decide_eq_true hg.left
          have h2 : k' = k := of_decide_eq_true hg.right
          rw [← h1, ← h2]
          exact hp

/-! ## Loads -/

/-- A load that has begun holds nothing yet. -/
theorem refreshed_pushLoad (hx : x.Fenced) (hfence : load.fence ≤ x.invalidations load.cache)
    (hstage : load.stage = .running) :
    Refreshed n x { x with loads := x.loads ++ [load] } where
  fenced := by
    intro l hl
    rcases List.mem_append.mp hl with hold | hnew
    · exact hx l hold
    · rw [List.mem_singleton.mp hnew]
      exact hfence
  holds := by
    rintro c p row (hentry | ⟨l, hl, hcache, hplace, hst, hf⟩)
    · exact Or.inl (Or.inl hentry)
    · rcases List.mem_append.mp hl with hold | hnew
      · exact Or.inl (Or.inr ⟨l, hold, hcache, hplace, hst, hf⟩)
      · rw [List.mem_singleton.mp hnew, hstage] at hst
        cases hst

/-- A load that changes its stage holds what it fetched, if it just did. -/
theorem refreshed_setLoad {k : Nat} (stage : LoadStage) (hx : x.Fenced) (hload : load ∈ x.loads)
    (hstage : forall row, stage = .fetched row -> n.committed load.cache load.place ≤ row.version) :
    Refreshed n x (x.setLoad k load stage) where
  fenced := by
    intro l hl
    rcases List.mem_or_eq_of_mem_set hl with hold | hnew
    · exact hx l hold
    · rw [hnew]
      exact hx load hload
  holds := by
    rintro c p row (hentry | ⟨l, hl, hcache, hplace, hst, hfence⟩)
    · exact Or.inl (Or.inl hentry)
    · rcases List.mem_or_eq_of_mem_set hl with hold | hnew
      · exact Or.inl (Or.inr ⟨l, hold, hcache, hplace, hst, hfence⟩)
      · rw [hnew] at hcache hplace hst
        right
        rw [← hcache, ← hplace]
        exact hstage row hst

theorem setEntry_entries (c : String) (place : Place) (row : Option Row) (x : Instance)
    (d : String) (p : Place) :
    (x.setEntry c place row).entries d p =
      if d = c ∧ p = place then row else x.entries d p := by
  show Function.update x.entries c (Function.update (x.entries c) place row) d p = _
  rw [Function.update_apply]
  by_cases hd : d = c
  · rw [if_pos hd, Function.update_apply, hd]
    by_cases hp : p = place
    · rw [if_pos hp, if_pos ⟨rfl, hp⟩]
    · rw [if_neg hp, if_neg (fun h => hp h.right)]
  · rw [if_neg hd, if_neg (fun h => hd h.left)]

/-- A row is published only if it was held. -/
theorem refreshed_publish {row : Row} (hx : x.Fenced) (hload : load ∈ x.loads)
    (hstage : load.stage = .fetched row) :
    Refreshed n x (x.publish load row) := by
  unfold Instance.publish
  split
  · rename_i hfence
    constructor
    · exact hx
    · rintro c p other (hentry | hloading)
      · rw [setEntry_entries] at hentry
        split at hentry
        · rename_i hhere
          rw [← Option.some.inj hentry, hhere.left, hhere.right]
          exact Or.inl (Or.inr ⟨load, hload, rfl, rfl, hstage, hfence.symm⟩)
        · exact Or.inl (Or.inl hentry)
      · exact Or.inl (Or.inr hloading)
  · exact refreshed_refl hx

theorem refreshed_setInFlight {c : String} {v : Nat} {key : String} {load : Option Nat}
    (hx : x.Fenced) :
    Refreshed n x (x.setInFlight c v key load) :=
  refreshed_of_rows hx rfl rfl rfl

theorem refreshed_leaveInFlight (hx : x.Fenced) :
    Refreshed n x (x.leaveInFlight load) := by
  unfold Instance.leaveInFlight
  split
  · exact refreshed_refl hx
  · exact refreshed_setInFlight hx

theorem publish_loads (load : Load) (row : Row) (x : Instance) :
    (x.publish load row).loads = x.loads := by
  unfold Instance.publish
  split
  · rfl
  · rfl

theorem refreshed_settleLoad {k : Nat} {row : Row} (hx : x.Fenced) (hload : load ∈ x.loads)
    (hstage : load.stage = .fetched row) :
    Refreshed n x (x.settleLoad k load row) := by
  have hpub := refreshed_publish (n := n) hx hload hstage
  have hin : load ∈ (x.publish load row).loads := by
    rw [publish_loads]
    exact hload
  have hset := refreshed_setLoad (n := n) (k := k) (.settled row) hpub.fenced hin
    (fun _ h => by cases h)
  exact (hpub.trans hset).trans (refreshed_leaveInFlight hset.fenced)

theorem refreshed_failLoad {k : Nat} (hx : x.Fenced) (hload : load ∈ x.loads) :
    Refreshed n x ((x.setLoad k load .failed).leaveInFlight load) := by
  have hset := refreshed_setLoad (n := n) (k := k) .failed hx hload
    (fun _ h => by cases h)
  exact hset.trans (refreshed_leaveInFlight hset.fenced)

/-- A row that memory loses is only held no more. -/
theorem refreshed_expire {c : String} {place : Place}
    (hx : x.Fenced) : Refreshed n x (x.setEntry c place none) where
  fenced := hx
  holds := by
    rintro d p row (hentry | hloading)
    · rw [setEntry_entries] at hentry
      split at hentry
      · cases hentry
      · exact Or.inl (Or.inl hentry)
    · exact Or.inl (Or.inr hloading)

end Caching
end CatFactory
