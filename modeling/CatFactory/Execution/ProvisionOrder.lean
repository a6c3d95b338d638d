import CatFactory.Foundation.Acyclic
import CatFactory.Foundation.CodeUnits
import CatFactory.Foundation.GreedyOrder
import CatFactory.Foundation.Keyed
import Mathlib.Data.List.Sort
import Mathlib.Logic.Relation

/-!
# Ordering the frames of a deployment

A deployer step provisions several service frames, a provider before the frames
that use it.  The loop emits the frames one by one and falls back to any
remaining frame when each of them still waits for another.
-/

namespace CatFactory
namespace Execution

open Foundation

structure ProvisionTarget where
  frameId : String
  isPrimary : Bool
deriving DecidableEq

/-- The frames that a frame uses, where the map has an entry for it. -/
abbrev ProvidersOf := String -> Option (List String)

def frameIds (targets : List ProvisionTarget) : List String :=
  targets.map ProvisionTarget.frameId

/-- `meta.get(id)`; the last target listed under an id is the map's. -/
def targetMeta (targets : List ProvisionTarget) (id : String) : Option ProvisionTarget :=
  lookup ProvisionTarget.frameId targets.reverse id

def primaryRank (targets : List ProvisionTarget) (id : String) : Int :=
  if (targetMeta targets id).any (·.isPrimary) then 0 else 1

/-- The primary frame first, then by ascending frame id. -/
def before (targets : List ProvisionTarget) (a b : String) : Int :=
  let pa := primaryRank targets a
  let pb := primaryRank targets b
  if pa ≠ pb then pa - pb
  else if unitsBefore a b then -1
  else if unitsBefore b a then 1
  else 0

def readyFrames (providersOf : ProvidersOf) (remaining : List String) : List String :=
  remaining.filter fun id =>
    match providersOf id with
    | none => true
    | some providers => !(providers.any fun p => p ∈ remaining)

def pickFrame (targets : List ProvisionTarget) (providersOf : ProvidersOf)
    (remaining : List String) : Option String :=
  let ready := readyFrames providersOf remaining
  -- a cycle among the remaining frames: none is fully unblocked
  let ready := if ready.isEmpty then remaining else ready
  (ready.insertionSort fun a b => before targets a b ≤ 0).head?

/-- The loop's rounds; each takes one frame out of the remaining ones. -/
def orderRemaining (targets : List ProvisionTarget) (providersOf : ProvidersOf) :
    Nat -> List String -> List String
  | 0, _ => []
  | rounds + 1, remaining =>
      match pickFrame targets providersOf remaining with
      | none => []
      | some pick => pick :: orderRemaining targets providersOf rounds (remaining.erase pick)

def orderProvisionTargets (targets : List ProvisionTarget) (providersOf : ProvidersOf) :
    List String :=
  let remaining := (frameIds targets).eraseDups
  orderRemaining targets providersOf remaining.length remaining

/-!
## The order of the picks
-/

section Before

variable {targets : List ProvisionTarget} {a b c : String}

theorem before_le_zero_iff : before targets a b ≤ 0 <->
    primaryRank targets a < primaryRank targets b ∨
      primaryRank targets a = primaryRank targets b ∧ stringUnits a ≤ stringUnits b := by
  simp only [before]
  by_cases hrank : primaryRank targets a = primaryRank targets b
  · rw [if_neg (not_not.mpr hrank)]
    by_cases hab : stringUnits a < stringUnits b
    · simp [unitsBefore, hab, hrank, le_of_lt hab]
    · by_cases hba : stringUnits b < stringUnits a
      · simp [unitsBefore, hab, hba, hrank]
      · simp [unitsBefore, hab, hba, hrank, not_lt.mp hba]
  · rw [if_pos hrank]
    constructor
    · intro h
      exact Or.inl (by omega)
    · intro h
      cases h with
      | inl hlt => omega
      | inr heq => exact absurd heq.1 hrank

theorem before_antisymm (hab : before targets a b ≤ 0) (hba : before targets b a ≤ 0) :
    a = b := by
  rw [before_le_zero_iff] at hab hba
  rcases hab with hab | ⟨_, hab⟩
  · rcases hba with hba | ⟨hba, _⟩ <;> omega
  · rcases hba with hba | ⟨_, hba⟩
    · omega
    · exact stringUnits_injective (le_antisymm hab hba)

theorem before_total (targets : List ProvisionTarget) (a b : String) :
    before targets a b ≤ 0 ∨ before targets b a ≤ 0 := by
  rw [before_le_zero_iff, before_le_zero_iff]
  rcases lt_trichotomy (primaryRank targets a) (primaryRank targets b) with hlt | heq | hgt
  · exact Or.inl (Or.inl hlt)
  · cases le_total (stringUnits a) (stringUnits b) with
    | inl hle => exact Or.inl (Or.inr ⟨heq, hle⟩)
    | inr hle => exact Or.inr (Or.inr ⟨heq.symm, hle⟩)
  · exact Or.inr (Or.inl hgt)

theorem before_trans (hab : before targets a b ≤ 0) (hbc : before targets b c ≤ 0) :
    before targets a c ≤ 0 := by
  rw [before_le_zero_iff] at hab hbc ⊢
  rcases hab with hab | ⟨hab, hab'⟩
  · rcases hbc with hbc | ⟨hbc, _⟩
    · exact Or.inl (hab.trans hbc)
    · exact Or.inl (hbc ▸ hab)
  · rcases hbc with hbc | ⟨hbc, hbc'⟩
    · exact Or.inl (hab ▸ hbc)
    · exact Or.inr ⟨hab.trans hbc, hab'.trans hbc'⟩

/-- The first of the sorted list comes before all of the list. -/
theorem head_sorted (targets : List ProvisionTarget) {frames : List String} (hne : frames ≠ []) :
    exists pick, (frames.insertionSort fun a b => before targets a b ≤ 0).head? = some pick ∧
      pick ∈ frames ∧ forall x, x ∈ frames -> before targets pick x ≤ 0 := by
  have : Std.Total fun a b => before targets a b ≤ 0 := ⟨before_total targets⟩
  have : IsTrans String fun a b => before targets a b ≤ 0 := ⟨fun _ _ _ => before_trans⟩
  have hsorted := List.pairwise_insertionSort (fun a b => before targets a b ≤ 0) frames
  have hmem : forall x, x ∈ frames.insertionSort (fun a b => before targets a b ≤ 0) <->
      x ∈ frames := fun x => List.mem_insertionSort _
  cases hlist : frames.insertionSort (fun a b => before targets a b ≤ 0) with
  | nil =>
      rcases List.exists_mem_of_ne_nil frames hne with ⟨x, hx⟩
      have := (hmem x).mpr hx
      rw [hlist] at this
      cases this
  | cons pick rest =>
      rw [hlist] at hsorted hmem
      refine ⟨pick, rfl, (hmem pick).mp List.mem_cons_self, ?_⟩
      intro x hx
      cases (hmem x).mpr hx with
      | head =>
          have := before_total targets pick pick
          simpa using this
      | tail _ hrest => exact List.rel_of_pairwise_cons hsorted hrest

end Before

/-!
## One round
-/

section Rounds

variable {targets : List ProvisionTarget} {providersOf : ProvidersOf}

def Uses (providersOf : ProvidersOf) (a b : String) : Prop :=
  exists providers, providersOf a = some providers ∧ b ∈ providers

abbrev LeadsBefore (targets : List ProvisionTarget) (a b : String) : Prop :=
  before targets a b ≤ 0

theorem mem_readyFrames {remaining : List String} {x : String} :
    x ∈ readyFrames providersOf remaining <->
      x ∈ remaining ∧ Free (Uses providersOf) remaining x := by
  rw [readyFrames, List.mem_filter]
  apply and_congr_right
  intro _
  cases hproviders : providersOf x with
  | none => simp [Free, Uses, hproviders]
  | some providers =>
      simp only [Free, Uses, hproviders, Option.some.injEq, exists_eq_left', Bool.not_eq_true',
        List.any_eq_false, decide_eq_true_eq]
      exact ⟨fun h y hy hp => h y hp hy, fun h p hp hmem => h p hmem hp⟩

theorem pickFrame_picked (targets : List ProvisionTarget) (providersOf : ProvidersOf)
    {remaining : List String} (hne : remaining ≠ []) :
    exists pick, pickFrame targets providersOf remaining = some pick ∧
      Picked (Uses providersOf) (LeadsBefore targets) remaining pick := by
  by_cases hready : readyFrames providersOf remaining = []
  · have hstuck : forall y, y ∈ remaining -> ¬ Free (Uses providersOf) remaining y := by
      intro y hy hfree
      have hmem := mem_readyFrames.mpr ⟨hy, hfree⟩
      rw [hready] at hmem
      cases hmem
    rcases head_sorted targets hne with ⟨pick, hpick, hmem, hleast⟩
    refine ⟨pick, ?_, ⟨hmem, Or.inr hstuck⟩, fun y hy => hleast y hy.1⟩
    simpa [pickFrame, hready] using hpick
  · rcases head_sorted targets hready with ⟨pick, hpick, hmem, hleast⟩
    have hfree := mem_readyFrames.mp hmem
    refine ⟨pick, ?_, ⟨hfree.1, Or.inl hfree.2⟩, ?_⟩
    · simpa [pickFrame, hready] using hpick
    · intro y hy
      cases hy.2 with
      | inl hyfree => exact hleast y (mem_readyFrames.mpr ⟨hy.1, hyfree⟩)
      | inr hstuck => exact absurd hfree.2 (hstuck pick hfree.1)

/-- The rounds place each remaining frame once, always the one to be picked. -/
theorem orderRemaining_greedy (targets : List ProvisionTarget) (providersOf : ProvidersOf)
    {rounds : Nat} {remaining : List String}
    (hrounds : remaining.length = rounds) :
    (orderRemaining targets providersOf rounds remaining).Perm remaining ∧
      GreedyOrder (Uses providersOf) (LeadsBefore targets)
        (orderRemaining targets providersOf rounds remaining) := by
  induction rounds generalizing remaining with
  | zero =>
      rw [List.length_eq_zero_iff.mp hrounds]
      exact ⟨List.Perm.nil, GreedyOrder.nil⟩
  | succ rounds ih =>
      have hne : remaining ≠ [] := by
        intro h
        rw [h] at hrounds
        cases hrounds
      rcases pickFrame_picked targets providersOf hne with
        ⟨pick, hpick, hpicked⟩
      have hmem := hpicked.candidate.1
      have hlength : (remaining.erase pick).length = rounds := by
        rw [List.length_erase_of_mem hmem, hrounds]
        rfl
      rcases ih hlength with ⟨hperm, hgreedy⟩
      have hwhole : (pick :: orderRemaining targets providersOf rounds (remaining.erase pick)).Perm
          remaining := (hperm.cons pick).trans (List.perm_cons_erase hmem).symm
      simp only [orderRemaining, hpick]
      exact ⟨hwhole, GreedyOrder.cons (hpicked.of_perm hwhole.symm) hgreedy⟩

end Rounds

/-!
## The whole order
-/

section Law

variable {targets : List ProvisionTarget} {providersOf : ProvidersOf}

/-- A set lists a key once; without repeats it is the list itself. -/
theorem eraseDups_of_nodup {ids : List String} (h : ids.Nodup) : ids.eraseDups = ids := by
  induction ids with
  | nil => rfl
  | cons id rest ih =>
      rw [List.nodup_cons] at h
      have hrest : rest.filter (fun b => !b == id) = rest := by
        rw [List.filter_eq_self]
        intro b hb
        have hne : b ≠ id := fun heq => h.1 (heq ▸ hb)
        simp [hne]
      rw [List.eraseDups_cons, hrest, ih h.2]

theorem orderProvisionTargets_greedy (providersOf : ProvidersOf) (hdistinct : (frameIds targets).Nodup) :
    (orderProvisionTargets targets providersOf).Perm (frameIds targets) ∧
      GreedyOrder (Uses providersOf) (LeadsBefore targets)
        (orderProvisionTargets targets providersOf) := by
  have h := orderRemaining_greedy targets providersOf
    (rfl : (frameIds targets).eraseDups.length = _)
  rw [eraseDups_of_nodup hdistinct] at h
  simpa only [orderProvisionTargets, eraseDups_of_nodup hdistinct] using h

theorem targetMeta_perm {others : List ProvisionTarget} (hdistinct : (frameIds targets).Nodup)
    (hperm : targets.Perm others) (id : String) : targetMeta targets id = targetMeta others id := by
  have hothers : (frameIds others).Nodup := (hperm.map ProvisionTarget.frameId).nodup_iff.mp hdistinct
  apply lookup_congr
  · rw [List.map_reverse]
    exact List.nodup_reverse.mpr hdistinct
  · rw [List.map_reverse]
    exact List.nodup_reverse.mpr hothers
  · intro x _
    rw [List.mem_reverse, List.mem_reverse, hperm.mem_iff]

/-- The order does not depend on how the targets are listed. -/
theorem orderProvisionTargets_perm {others : List ProvisionTarget}
    (hdistinct : (frameIds targets).Nodup) (hperm : targets.Perm others) :
    orderProvisionTargets others providersOf = orderProvisionTargets targets providersOf := by
  have hids : (frameIds targets).Perm (frameIds others) := hperm.map ProvisionTarget.frameId
  have hothers : (frameIds others).Nodup := hids.nodup_iff.mp hdistinct
  have hrank : primaryRank others = primaryRank targets := by
    funext id
    rw [primaryRank, primaryRank, targetMeta_perm hdistinct hperm]
  have hbefore : LeadsBefore others = LeadsBefore targets := by
    funext a b
    rw [LeadsBefore, LeadsBefore, before, before, hrank]
  have hleft := orderProvisionTargets_greedy providersOf hdistinct
  have hright := orderProvisionTargets_greedy providersOf hothers
  rw [hbefore] at hright
  exact hright.2.unique (fun _ _ => before_antisymm) hleft.2
    (hright.1.trans (hids.symm.trans hleft.1.symm))

/-!
## Frames placed before what they use
-/

/-- One target uses another. -/
structure UsesTarget (targets : List ProvisionTarget) (providersOf : ProvidersOf)
    (a b : String) : Prop where
  consumer : a ∈ frameIds targets
  provider : b ∈ frameIds targets
  uses : Uses providersOf a b

def OnCommonCycle (targets : List ProvisionTarget) (providersOf : ProvidersOf)
    (a b : String) : Prop :=
  Relation.TransGen (UsesTarget targets providersOf) a b ∧
    Relation.TransGen (UsesTarget targets providersOf) b a

structure ProvisionLaw (targets : List ProvisionTarget) (providersOf : ProvidersOf) : Prop where
  everyTargetOnce : (orderProvisionTargets targets providersOf).Perm (frameIds targets)
  anyListing : forall others, targets.Perm others ->
    orderProvisionTargets others providersOf = orderProvisionTargets targets providersOf
  inversions : (orderProvisionTargets targets providersOf).Pairwise fun a b =>
    UsesTarget targets providersOf a b -> OnCommonCycle targets providersOf a b

/-- Among frames that all wait for one another, the one that comes before the
others uses only frames among them that lead back to it. -/
def BreaksOnCycle (targets : List ProvisionTarget) (providersOf : ProvidersOf) : Prop :=
  forall frames : List String, frames ⊆ frameIds targets ->
    (forall a, a ∈ frames -> exists b, b ∈ frames ∧ Uses providersOf a b) ->
      forall a, a ∈ frames -> (forall b, b ∈ frames -> before targets a b ≤ 0) ->
        forall b, b ∈ frames -> Uses providersOf a b -> OnCommonCycle targets providersOf a b

theorem inversions_iff (hdistinct : (frameIds targets).Nodup) :
    ((orderProvisionTargets targets providersOf).Pairwise fun a b =>
      UsesTarget targets providersOf a b -> OnCommonCycle targets providersOf a b) <->
      BreaksOnCycle targets providersOf := by
  rcases orderProvisionTargets_greedy providersOf hdistinct with ⟨hperm, hgreedy⟩
  have hnodup := hperm.nodup_iff.mpr hdistinct
  have htarget : forall a, a ∈ orderProvisionTargets targets providersOf ->
      a ∈ frameIds targets := fun a ha => hperm.mem_iff.mp ha
  have hsame : ((orderProvisionTargets targets providersOf).Pairwise fun a b =>
      UsesTarget targets providersOf a b -> OnCommonCycle targets providersOf a b) <->
      (orderProvisionTargets targets providersOf).Pairwise fun a b =>
        Uses providersOf a b -> OnCommonCycle targets providersOf a b := by
    apply List.Pairwise.iff_of_mem
    intro a b ha hb
    constructor
    · exact fun h huses => h ⟨htarget a ha, htarget b hb, huses⟩
    · exact fun h huses => h huses.uses
  rw [hsame, hgreedy.inversions_iff (fun _ _ => before_antisymm) hnodup]
  constructor
  · intro h frames hsub hblocked a ha hleast b hb huses
    by_cases hba : b = a
    · subst hba
      have hself : UsesTarget targets providersOf b b := ⟨hsub ha, hsub ha, huses⟩
      exact ⟨Relation.TransGen.single hself, Relation.TransGen.single hself⟩
    · exact h frames (fun x hx => hperm.mem_iff.mpr (hsub hx)) hblocked a ha hleast b hb hba huses
  · intro h frames hsub hblocked a ha hleast b hb _ huses
    exact h frames (fun x hx => htarget x (hsub hx)) hblocked a ha hleast b hb huses

/-- The order meets its law precisely when every pick from blocked frames breaks
a cycle that the pick lies on. -/
theorem orderProvisionTargets_law (hdistinct : (frameIds targets).Nodup) :
    ProvisionLaw targets providersOf <-> BreaksOnCycle targets providersOf := by
  constructor
  · intro h
    exact (inversions_iff hdistinct).mp h.inversions
  · intro h
    constructor
    · exact (orderProvisionTargets_greedy providersOf hdistinct).1
    · intro others hperm
      exact orderProvisionTargets_perm hdistinct hperm
    · exact (inversions_iff hdistinct).mpr h

end Law

/-- The task's own frame uses `a`, which is connected with `b` both ways. -/
def ownFrameTargets : List ProvisionTarget :=
  [⟨"own", true⟩, ⟨"a", false⟩, ⟨"b", false⟩]

def ownFrameProviders : ProvidersOf
  | "own" => some ["a"]
  | "a" => some ["b"]
  | "b" => some ["a"]
  | _ => none

theorem orderProvisionTargets_law_ownFrame :
    ProvisionLaw ownFrameTargets ownFrameProviders <->
      BreaksOnCycle ownFrameTargets ownFrameProviders :=
  orderProvisionTargets_law (by decide)

theorem not_provisionLaw :
    ¬ forall targets providersOf, (frameIds targets).Nodup -> ProvisionLaw targets providersOf := by
  intro h
  have hlaw := h ownFrameTargets ownFrameProviders (by decide)
  have horder : orderProvisionTargets ownFrameTargets ownFrameProviders = ["own", "a", "b"] := by
    decide +kernel
  have hpairs := hlaw.inversions
  rw [horder] at hpairs
  have huses : UsesTarget ownFrameTargets ownFrameProviders "own" "a" :=
    ⟨by decide, by decide, ["a"], rfl, by decide⟩
  have hcycle := List.rel_of_pairwise_cons hpairs (by decide) huses
  have hunused : forall x, ¬ UsesTarget ownFrameTargets ownFrameProviders x "own" := by
    rintro x ⟨hx, _, providers, hproviders, hmem⟩
    simp only [frameIds, ownFrameTargets, List.map_cons, List.map_nil, List.mem_cons,
      List.not_mem_nil, or_false] at hx
    rcases hx with rfl | rfl | rfl
    · cases hproviders
      simp at hmem
    · cases hproviders
      simp at hmem
    · cases hproviders
      simp at hmem
  cases hcycle.2 with
  | single hlast => exact hunused _ hlast
  | tail _ hlast => exact hunused _ hlast

end Execution
end CatFactory
