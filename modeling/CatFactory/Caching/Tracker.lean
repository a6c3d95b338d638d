import Mathlib.Logic.Function.Basic

/-!
# The generation tracker of one instance

`GroupGenerationTracker` keeps, for every group an instance reads, the
generations it has last seen and the moment it last asked the shared directory.
A group's state is an object that probes in flight hold on to, so the tracker is
a heap of states beside the bounded map that names them.
-/

namespace CatFactory
namespace Caching

/-- The group that carries cache-wide invalidations. -/
def cacheEpochGroup : String := "*"

/-- What a coherent cache hands the tracker. -/
structure Registration where
  cacheName : String
  windowMsecs : Nat
  probesEpoch : Bool
deriving DecidableEq

/-- The probe a group's reads may join: who started it, and which promise it is. -/
structure Inflight where
  invocation : Option Nat
  promise : Nat
deriving DecidableEq

/--
One group's state.  `generations` is read with a default of zero only, so the
map is a function.  `group` is the group the state was made for.
-/
structure GroupState where
  group : String
  lastProbeAt : Option Nat
  generations : String -> Nat
  inflight : Option Inflight

def GroupState.fresh (group : String) : GroupState :=
  { group := group, lastProbeAt := none, generations := fun _ => 0, inflight := none }

/-- `states` are the objects made so far; the first is the epoch's. -/
structure Tracker where
  registrations : List Registration
  states : Nat -> GroupState
  made : Nat
  groups : List (String × Nat)
  maxTrackedGroups : Nat

/-- The state that stands outside the bounded map. -/
def epochState : Nat := 0

def Tracker.create (maxTrackedGroups : Nat) : Tracker :=
  { registrations := []
    states := fun _ => GroupState.fresh cacheEpochGroup
    made := 1
    groups := []
    maxTrackedGroups := maxTrackedGroups }

/-- Set a map's entry: a name it has keeps its place. -/
def putRegistration (r : Registration) : List Registration -> List Registration
  | [] => [r]
  | q :: rest =>
      if q.cacheName = r.cacheName then r :: rest else q :: putRegistration r rest

def Tracker.register (r : Registration) (t : Tracker) : Tracker :=
  { t with registrations := putRegistration r t.registrations }

def Tracker.registration (t : Tracker) (cacheName : String) : Option Registration :=
  t.registrations.find? fun r => r.cacheName = cacheName

def Tracker.setState (s : Nat) (state : GroupState) (t : Tracker) : Tracker :=
  { t with states := Function.update t.states s state }

def isStale (now : Nat) (state : GroupState) (windowMsecs : Nat) : Bool :=
  match state.lastProbeAt with
  | none => true
  | some probed => decide (windowMsecs ≤ now - probed)

/-- Drop the group touched longest ago once there are too many. -/
def Tracker.bounded (t : Tracker) : Tracker :=
  if t.maxTrackedGroups < t.groups.length then { t with groups := t.groups.drop 1 } else t

def Tracker.touchGroup (group : String) (t : Tracker) : Tracker × Nat :=
  match t.groups.find? (fun entry => entry.1 = group) with
  | some entry =>
      (Tracker.bounded { t with
        groups := t.groups.filter (fun e => e.1 ≠ group) ++ [(group, entry.2)] }, entry.2)
  | none =>
      (Tracker.bounded { t with
        states := Function.update t.states t.made (GroupState.fresh group)
        made := t.made + 1
        groups := t.groups ++ [(group, t.made)] }, t.made)

/-- An epoch probe speaks only for the caches that have a cache-wide invalidation. -/
def Tracker.affectedBy (group : String) (t : Tracker) : List Registration :=
  if group = cacheEpochGroup then t.registrations.filter (fun r => r.probesEpoch)
  else t.registrations

def mergeGeneration (cacheName : String) (generation : Nat) (state : GroupState) : GroupState :=
  if state.generations cacheName < generation then
    { state with generations := Function.update state.generations cacheName generation }
  else state

def Tracker.merge (s : Nat) (cacheName : String) (generation : Nat) (t : Tracker) : Tracker :=
  t.setState s (mergeGeneration cacheName generation (t.states s))

/-- `noteLocalInvalidation` once the directory has answered. -/
def Tracker.noteBumped (cacheName group : String) (generation : Nat) (t : Tracker) : Tracker :=
  if group = cacheEpochGroup then t.merge epochState cacheName generation
  else (t.touchGroup group).1.merge (t.touchGroup group).2 cacheName generation

/-! ## What the operations leave alone -/

theorem mergeGeneration_group (c : String) (n : Nat) (state : GroupState) :
    (mergeGeneration c n state).group = state.group := by
  simp only [mergeGeneration]
  split
  · rfl
  · rfl

theorem mergeGeneration_lastProbeAt (c : String) (n : Nat) (state : GroupState) :
    (mergeGeneration c n state).lastProbeAt = state.lastProbeAt := by
  simp only [mergeGeneration]
  split
  · rfl
  · rfl

theorem mergeGeneration_inflight (c : String) (n : Nat) (state : GroupState) :
    (mergeGeneration c n state).inflight = state.inflight := by
  simp only [mergeGeneration]
  split
  · rfl
  · rfl

/-- A merge is the greater of the two for its cache, and nothing for the others. -/
theorem mergeGeneration_generations (c : String) (n : Nat) (state : GroupState) (d : String) :
    (mergeGeneration c n state).generations d =
      if d = c then max (state.generations c) n else state.generations d := by
  simp only [mergeGeneration]
  split
  · rename_i h
    show Function.update state.generations c n d = _
    rw [Function.update_apply]
    split
    · rw [Nat.max_eq_right (Nat.le_of_lt h)]
    · rfl
  · rename_i h
    split
    · rename_i hd
      rw [hd, Nat.max_eq_left (Nat.le_of_not_lt h)]
    · rfl

variable {t : Tracker}

theorem setState_states (s : Nat) (state : GroupState) (t : Tracker) (u : Nat) :
    (t.setState s state).states u = if u = s then state else t.states u := by
  show Function.update t.states s state u = _
  rw [Function.update_apply]

theorem bounded_states (t : Tracker) : t.bounded.states = t.states := by
  unfold Tracker.bounded
  split
  · rfl
  · rfl

theorem bounded_made (t : Tracker) : t.bounded.made = t.made := by
  unfold Tracker.bounded
  split
  · rfl
  · rfl

theorem bounded_registrations (t : Tracker) : t.bounded.registrations = t.registrations := by
  unfold Tracker.bounded
  split
  · rfl
  · rfl

/-- The bound only takes names away. -/
theorem mem_bounded {e : String × Nat} (h : e ∈ t.bounded.groups) :
    e ∈ t.groups := by
  unfold Tracker.bounded at h
  split at h
  · exact List.mem_of_mem_drop h
  · exact h

theorem touchGroup_registrations (group : String) (t : Tracker) :
    (t.touchGroup group).1.registrations = t.registrations := by
  unfold Tracker.touchGroup
  split
  · exact bounded_registrations _
  · exact bounded_registrations _

/-! ## The map names states of its own groups -/

/-- Every state the map names was made, for the group it is named by. -/
structure Tracker.Named (t : Tracker) : Prop where
  made : forall e, e ∈ t.groups -> e.2 < t.made
  group : forall e, e ∈ t.groups -> (t.states e.2).group = e.1
  epoch : (t.states epochState).group = cacheEpochGroup
  positive : 0 < t.made

theorem named_create (bound : Nat) : (Tracker.create bound).Named where
  made := fun _ h => by cases h
  group := fun _ h => by cases h
  epoch := rfl
  positive := Nat.one_pos

theorem mem_of_find_group {group : String} {e : String × Nat}
    (h : t.groups.find? (fun entry => entry.1 = group) = some e) :
    e ∈ t.groups ∧ e.1 = group :=
  ⟨List.mem_of_find?_eq_some h, by simpa using List.find?_some h⟩

/-- A touch leaves every state that was made as it is. -/
theorem touchGroup_states {group : String} {u : Nat} (hu : u < t.made) :
    (t.touchGroup group).1.states u = t.states u := by
  unfold Tracker.touchGroup
  split
  · show (Tracker.bounded _).states u = _
    rw [bounded_states]
  · show (Tracker.bounded _).states u = _
    rw [bounded_states]
    show Function.update t.states t.made (GroupState.fresh group) u = _
    rw [Function.update_apply, if_neg (Nat.ne_of_lt hu)]

theorem made_le_touchGroup (group : String) (t : Tracker) :
    t.made ≤ (t.touchGroup group).1.made := by
  unfold Tracker.touchGroup
  split
  · refine Nat.le_trans ?_ (Nat.le_of_eq (bounded_made _).symm)
    exact Nat.le_refl t.made
  · refine Nat.le_trans ?_ (Nat.le_of_eq (bounded_made _).symm)
    exact Nat.le_succ t.made

/-- A state is as it was, or is a fresh one for the group just touched. -/
theorem touchGroup_states_or (group : String) (t : Tracker) (u : Nat) :
    (t.touchGroup group).1.states u = t.states u ∨
      (t.touchGroup group).1.states u = GroupState.fresh group := by
  unfold Tracker.touchGroup
  split
  · left
    show (Tracker.bounded _).states u = _
    rw [bounded_states]
  · show (Tracker.bounded _).states u = _ ∨ (Tracker.bounded _).states u = _
    rw [bounded_states]
    show Function.update t.states t.made (GroupState.fresh group) u = _ ∨
      Function.update t.states t.made (GroupState.fresh group) u = _
    rw [Function.update_apply]
    split
    · exact Or.inr rfl
    · exact Or.inl rfl

/-- The state handed out belongs to the group that was asked for. -/
theorem touchGroup_spec (group : String) (h : t.Named) :
    (t.touchGroup group).2 < (t.touchGroup group).1.made ∧
      ((t.touchGroup group).1.states (t.touchGroup group).2).group = group := by
  cases hfound : t.groups.find? (fun entry => entry.1 = group) with
  | some e =>
      rcases mem_of_find_group hfound with ⟨he, hgroup⟩
      have hs : (t.touchGroup group).2 = e.2 := by
        unfold Tracker.touchGroup
        rw [hfound]
      rw [hs]
      constructor
      · exact Nat.lt_of_lt_of_le (h.made e he) (made_le_touchGroup group t)
      · rw [touchGroup_states (h.made e he), h.group e he, hgroup]
  | none =>
      unfold Tracker.touchGroup
      rw [hfound]
      constructor
      · show t.made < (Tracker.bounded _).made
        rw [bounded_made]
        exact Nat.lt_succ_self t.made
      · show ((Tracker.bounded _).states t.made).group = group
        rw [bounded_states]
        show (Function.update t.states t.made (GroupState.fresh group) t.made).group = group
        rw [Function.update_self]
        rfl

theorem named_touchGroup {group : String} (h : t.Named) :
    (t.touchGroup group).1.Named := by
  have hold : forall e, e ∈ t.groups ->
      e.2 < (t.touchGroup group).1.made ∧
        ((t.touchGroup group).1.states e.2).group = e.1 := by
    intro e he
    constructor
    · exact Nat.lt_of_lt_of_le (h.made e he) (made_le_touchGroup group t)
    · rw [touchGroup_states (h.made e he), h.group e he]
  have hmem : forall e, e ∈ (t.touchGroup group).1.groups ->
      e ∈ t.groups ∨ e = (group, (t.touchGroup group).2) := by
    intro e he
    cases hfound : t.groups.find? (fun entry => entry.1 = group) with
    | some found =>
        unfold Tracker.touchGroup at he ⊢
        rw [hfound] at he ⊢
        rcases List.mem_append.mp (mem_bounded he) with hin | hin
        · exact Or.inl (List.mem_filter.mp hin).left
        · exact Or.inr (List.mem_singleton.mp hin)
    | none =>
        unfold Tracker.touchGroup at he ⊢
        rw [hfound] at he ⊢
        rcases List.mem_append.mp (mem_bounded he) with hin | hin
        · exact Or.inl hin
        · exact Or.inr (List.mem_singleton.mp hin)
  constructor
  · intro e he
    rcases hmem e he with hin | hnew
    · exact (hold e hin).left
    · rw [hnew]
      exact (touchGroup_spec group h).left
  · intro e he
    rcases hmem e he with hin | hnew
    · exact (hold e hin).right
    · rw [hnew]
      exact (touchGroup_spec group h).right
  · rw [touchGroup_states (show epochState < t.made from h.positive)]
    exact h.epoch
  · exact Nat.lt_of_lt_of_le h.positive (made_le_touchGroup group t)

/-- Rewriting a state for its own group keeps the names. -/
theorem named_setState {s : Nat} {state : GroupState} (h : t.Named)
    (hgroup : state.group = (t.states s).group) : (t.setState s state).Named := by
  have hsame : forall u, ((t.setState s state).states u).group = (t.states u).group := by
    intro u
    rw [setState_states]
    split
    · rename_i hu
      rw [hgroup, hu]
    · rfl
  exact
    { made := h.made
      group := fun e he => (hsame e.2).trans (h.group e he)
      epoch := (hsame epochState).trans h.epoch
      positive := h.positive }

end Caching
end CatFactory
