import CatFactory.Foundation.KeyedFold
import CatFactory.Pipelines.Oversight

/-!
# What a reseed keeps

The fold over the seed's chain is told by a ledger: what the row asks of its
steps by now, the checkpoints that were refused, and those that were kept
without their policy.  Every stored checkpoint is in one place of it.
-/

namespace CatFactory
namespace Pipelines
namespace Approvals

open Foundation

variable {policy : Option ApprovalPolicy} {steps : List Nat} {value rest other : Type}

/-!
## The stored checkpoints
-/

/-- The policy of a stored checkpoint, by the step it is on. -/
def storedAt (existing : Pipeline value rest other) (step : String × Nat) :
    Option (Option ApprovalPolicy) :=
  (storedCheckpoints existing).lookup (keyOf step)

theorem mem_storedCheckpoints {existing : Pipeline value rest other} {step : String × Nat} :
    (keyOf step, policy) ∈ storedCheckpoints existing <->
      exists j, stepAt existing.agentKinds j = some step ∧ existing.gateAt j = true ∧
        existing.policyAt j = policy := by
  unfold storedCheckpoints
  rw [List.mem_filterMap]
  constructor
  · intro h
    rcases h with ⟨⟨key, j⟩, hmem, hpair⟩
    have hkey := List.mem_zipIdx_iff_getElem?.mp hmem
    rw [stepOccurrenceKeys_getElem?, Option.map_eq_some_iff] at hkey
    rcases hkey with ⟨found, hfound, hkey⟩
    by_cases hgate : existing.gateAt j = true
    · rw [if_pos hgate] at hpair
      rcases Prod.mk.inj (Option.some.inj hpair) with ⟨hkeys, hpolicy⟩
      have hstep : found = step := keyOf_injective (hkey.trans hkeys)
      rw [hstep] at hfound
      exact ⟨j, hfound, hgate, hpolicy⟩
    · rw [if_neg hgate] at hpair
      cases hpair
  · intro h
    rcases h with ⟨j, hstep, hgate, hpolicy⟩
    refine ⟨(keyOf step, j), ?_, ?_⟩
    · apply List.mem_zipIdx_iff_getElem?.mpr
      rw [stepOccurrenceKeys_getElem?, hstep]
      rfl
    · rw [if_pos hgate, hpolicy]

theorem storedAt_eq_some {existing : Pipeline value rest other} {step : String × Nat} :
    storedAt existing step = some policy <->
      exists j, stepAt existing.agentKinds j = some step ∧ existing.gateAt j = true ∧
        existing.policyAt j = policy := by
  rw [← mem_storedCheckpoints]
  constructor
  · intro h
    rcases List.lookup_eq_some_iff.mp h with ⟨before, after, hsplit, _⟩
    rw [hsplit]
    exact List.mem_append_right _ List.mem_cons_self
  · intro h
    apply (lookup_eq_some_iff_mem _).mpr h
    intro policy' h'
    rcases mem_storedCheckpoints.mp h with ⟨j, hj, _, hpolicy⟩
    rcases mem_storedCheckpoints.mp h' with ⟨j', hj', _, hpolicy'⟩
    rw [← hpolicy, ← hpolicy', stepAt_injective hj hj']

/-!
## The ledger
-/

/-- The policy that a stored checkpoint is carried with, by the place of its step in the seed. -/
def wanted (seed existing : Pipeline value rest other) (i : Nat) :
    Option (Option ApprovalPolicy) :=
  (stepAt seed.agentKinds i).bind fun step =>
    (storedAt existing step).map fun own => own.or (seed.policyAt i)

structure Ledger where
  oversight : Oversight
  kept : List Nat := []
  refused : List Nat := []
  unpolicied : List Nat := []

section Fold

variable (seed existing : Pipeline value rest other) (admits : Pipeline value rest other -> Bool)

def ledgerStep (ledger : Ledger) (i : Nat) : Ledger :=
  match wanted seed existing i with
  | none => ledger
  | some policy =>
      if admits (seed.composed (Function.update ledger.oversight i (some policy))) then
        { ledger with
          oversight := Function.update ledger.oversight i (some policy)
          kept := ledger.kept ++ [i] }
      else if policy.isNone then { ledger with refused := ledger.refused ++ [i] }
      else if admits (seed.composed (Function.update ledger.oversight i (some none))) then
        { ledger with
          oversight := Function.update ledger.oversight i (some none)
          kept := ledger.kept ++ [i]
          unpolicied := ledger.unpolicied ++ [i] }
      else { ledger with refused := ledger.refused ++ [i] }

/-- The ledger after the first steps of the seed. -/
def ledgerAt (n : Nat) : Ledger :=
  (List.range n).foldl (ledgerStep seed existing admits) { oversight := seed.oversight }

variable {seed existing admits}

/-- A row of the fold, and the ledger that tells it. -/
structure Tracks (carried : CarriedApprovals value rest other) (ledger : Ledger) : Prop where
  pipeline : (ledger.kept = [] ∧ carried.pipeline = seed ∧ ledger.oversight = seed.oversight) ∨
    (ledger.kept ≠ [] ∧ carried.pipeline = seed.composed ledger.oversight)
  dropped : carried.dropped = ledger.refused.map fun i => seed.agentKinds.getD i ""
  droppedPolicies :
    carried.droppedPolicies = ledger.unpolicied.map fun i => seed.agentKinds.getD i ""

theorem Tracks.withCheckpoint {carried : CarriedApprovals value rest other} {ledger : Ledger}
    (h : @Tracks _ _ _ seed carried ledger) (i : Nat) (policy : Option ApprovalPolicy) :
    withCheckpoint carried.pipeline i policy =
      .ok (seed.composed (Function.update ledger.oversight i (some policy))) := by
  rw [withCheckpoint_eq]
  rcases h.pipeline with ⟨_, hseed, hover⟩ | ⟨_, hcomposed⟩
  · rw [hseed, hover]
  · rw [hcomposed, composed_composed]
    exact congrArg Except.ok
      (composed_congr seed ((composed_oversight seed ledger.oversight).update i (some policy)))

theorem wanted_eq {i : Nat} {step : String × Nat} (hstep : stepAt seed.agentKinds i = some step) :
    wanted seed existing i = (storedAt existing step).map fun own => own.or (seed.policyAt i) := by
  rw [wanted, hstep]
  rfl

theorem Tracks.step {carried : CarriedApprovals value rest other} {ledger : Ledger}
    (h : @Tracks _ _ _ seed carried ledger) {i : Nat} {step : String × Nat}
    (hstep : stepAt seed.agentKinds i = some step) :
    exists next, carryStep seed (storedCheckpoints existing) admits carried (keyOf step, i) =
      .ok next ∧ @Tracks _ _ _ seed next (ledgerStep seed existing admits ledger i) := by
  have hwanted := @wanted_eq _ _ _ seed existing _ _ hstep
  rw [ledgerStep, hwanted]
  unfold storedAt
  cases hstored : (storedCheckpoints existing).lookup (keyOf step) with
  | none =>
      refine ⟨carried, ?_, h⟩
      simp only [carryStep, hstored]
  | some own =>
      simp only [carryStep, hstored, h.withCheckpoint, bind, Except.bind, Option.map_some]
      by_cases hadmits : admits (seed.composed
          (Function.update ledger.oversight i (some (own.or (seed.policyAt i))))) = true
      · simp only [if_pos hadmits]
        exact ⟨_, rfl, Or.inr ⟨List.append_ne_nil_of_right_ne_nil _ (List.cons_ne_nil i []), rfl⟩,
          h.dropped, h.droppedPolicies⟩
      · simp only [if_neg hadmits]
        have hrefused : @Tracks _ _ _ seed
            { carried with dropped := carried.dropped ++ [seed.agentKinds.getD i ""] }
            { ledger with refused := ledger.refused ++ [i] } := by
          refine ⟨h.pipeline, ?_, h.droppedPolicies⟩
          rw [List.map_append, ← h.dropped]
          rfl
        by_cases hnone : (own.or (seed.policyAt i)).isNone = true
        · simp only [if_pos hnone]
          exact ⟨_, rfl, hrefused⟩
        · simp only [if_neg hnone]
          by_cases hbare : admits (seed.composed
              (Function.update ledger.oversight i (some none))) = true
          · simp only [if_pos hbare]
            refine ⟨_, rfl,
              Or.inr ⟨List.append_ne_nil_of_right_ne_nil _ (List.cons_ne_nil i []), rfl⟩,
              h.dropped, ?_⟩
            rw [List.map_append, ← h.droppedPolicies]
            rfl
          · simp only [if_neg hbare]
            exact ⟨_, rfl, hrefused⟩

/-- The fold over the first steps of the seed. -/
theorem tracks_take {n : Nat} (hn : n ≤ seed.agentKinds.length) :
    exists carried, ((stepOccurrenceKeys seed.agentKinds).zipIdx.take n).foldlM
        (carryStep seed (storedCheckpoints existing) admits) { pipeline := seed } = .ok carried ∧
      @Tracks _ _ _ seed carried (ledgerAt seed existing admits n) := by
  induction n with
  | zero => exact ⟨_, rfl, Or.inl ⟨rfl, rfl, rfl⟩, rfl, rfl⟩
  | succ n ih =>
      rcases ih (Nat.le_of_succ_le hn) with ⟨carried, hfold, htracks⟩
      rcases stepAt_isSome.mpr hn with ⟨step, hstep⟩
      rcases @Tracks.step _ _ _ _ existing admits _ _ htracks _ _ hstep with ⟨next, hnext, htracks'⟩
      have hkey : (stepOccurrenceKeys seed.agentKinds).zipIdx[n]? = some (keyOf step, n) := by
        rw [List.getElem?_zipIdx, stepOccurrenceKeys_getElem?, hstep, Nat.zero_add]
        rfl
      refine ⟨next, ?_, ?_⟩
      · rw [List.take_add_one, hkey, List.foldlM_append, hfold]
        show [(keyOf step, n)].foldlM (carryStep seed (storedCheckpoints existing) admits)
          carried = _
        rw [List.foldlM_cons, hnext]
        rfl
      · rw [ledgerAt, List.range_succ, List.foldl_append]
        exact htracks'

/-- The reseed never refuses, and its row is the one that the ledger tells. -/
theorem carriedApprovals_eq :
    exists carried, carriedApprovals seed existing admits =
        .ok { carried with dropped := carried.dropped ++ strayCheckpoints seed existing } ∧
      @Tracks _ _ _ seed carried (ledgerAt seed existing admits seed.agentKinds.length) := by
  rcases @tracks_take _ _ _ seed existing admits _ (Nat.le_refl _) with ⟨carried, hfold, htracks⟩
  refine ⟨carried, ?_, htracks⟩
  rw [List.take_of_length_le] at hfold
  · rw [carriedApprovals, hfold]
    rfl
  · rw [List.length_zipIdx, length_stepOccurrenceKeys]

/-!
## Where a step stands
-/

variable (seed existing) in
/-- A step of the seed whose turn has been, in the ledger. -/
inductive Entered (ledger : Ledger) (i : Nat) : Prop where
  | idle : wanted seed existing i = none -> ledger.oversight i = seed.oversight i ->
      i ∉ ledger.kept -> i ∉ ledger.refused -> i ∉ ledger.unpolicied -> Entered ledger i
  | carried {policy : Option ApprovalPolicy} : wanted seed existing i = some policy ->
      ledger.oversight i = some policy -> i ∈ ledger.kept -> i ∉ ledger.refused ->
      i ∉ ledger.unpolicied -> Entered ledger i
  | bare {policy : ApprovalPolicy} : wanted seed existing i = some (some policy) ->
      ledger.oversight i = some none -> i ∈ ledger.kept -> i ∉ ledger.refused ->
      i ∈ ledger.unpolicied -> Entered ledger i
  | refused {policy : Option ApprovalPolicy} : wanted seed existing i = some policy ->
      ledger.oversight i = seed.oversight i -> i ∉ ledger.kept -> i ∈ ledger.refused ->
      i ∉ ledger.unpolicied -> Entered ledger i

/-- What a turn does to the ledger. -/
inductive Turn (ledger : Ledger) (i : Nat) : Ledger -> Prop where
  | idle : wanted seed existing i = none -> Turn ledger i ledger
  | carried {policy : Option ApprovalPolicy} : wanted seed existing i = some policy ->
      admits (seed.composed (Function.update ledger.oversight i (some policy))) = true ->
      Turn ledger i
        { ledger with
          oversight := Function.update ledger.oversight i (some policy)
          kept := ledger.kept ++ [i] }
  | bare {policy : ApprovalPolicy} : wanted seed existing i = some (some policy) ->
      admits (seed.composed (Function.update ledger.oversight i (some none))) = true ->
      Turn ledger i
        { ledger with
          oversight := Function.update ledger.oversight i (some none)
          kept := ledger.kept ++ [i]
          unpolicied := ledger.unpolicied ++ [i] }
  | refused {policy : Option ApprovalPolicy} : wanted seed existing i = some policy ->
      Turn ledger i { ledger with refused := ledger.refused ++ [i] }

theorem turn (ledger : Ledger) (i : Nat) :
    @Turn _ _ _ seed existing admits ledger i (ledgerStep seed existing admits ledger i) := by
  unfold ledgerStep
  cases hwanted : wanted seed existing i with
  | none => exact Turn.idle hwanted
  | some policy =>
      by_cases hadmits :
          admits (seed.composed (Function.update ledger.oversight i (some policy))) = true
      · simp only [if_pos hadmits]
        exact Turn.carried hwanted hadmits
      · simp only [if_neg hadmits]
        cases policy with
        | none => exact Turn.refused hwanted
        | some policy =>
            by_cases hbare : admits (seed.composed (Function.update ledger.oversight i (some none))) = true
            · simp only [Option.isNone_some, Bool.false_eq_true, if_false, if_pos hbare]
              exact Turn.bare hwanted hbare
            · simp only [Option.isNone_some, Bool.false_eq_true, if_false, if_neg hbare]
              exact Turn.refused hwanted

/-- A list of steps whose turn has been, each once. -/
def Below (n : Nat) (steps : List Nat) : Prop :=
  steps.Nodup ∧ forall i, i ∈ steps -> i < n

theorem Below.not_mem {n : Nat} (h : Below n steps) {i : Nat} (hi : n ≤ i) :
    i ∉ steps :=
  fun hmem => Nat.not_lt.mpr hi (h.right i hmem)

theorem Below.succ {n : Nat} (h : Below n steps) : Below (n + 1) steps :=
  ⟨h.left, fun i hi => Nat.lt_succ_of_lt (h.right i hi)⟩

theorem Below.snoc {n : Nat} (h : Below n steps) :
    Below (n + 1) (steps ++ [n]) := by
  constructor
  · rw [← List.concat_eq_append]
    exact h.left.concat (h.not_mem (Nat.le_refl n))
  · intro i hi
    rcases List.mem_append.mp hi with hearlier | hlast
    · exact Nat.lt_succ_of_lt (h.right i hearlier)
    · rw [List.mem_singleton.mp hlast]
      exact Nat.lt_succ_self n

/-- The ledger after the turns of the first steps. -/
structure LedgerOk (n : Nat) (ledger : Ledger) : Prop where
  entered : forall i, i < n -> Entered seed existing ledger i
  ahead : forall i, n ≤ i -> ledger.oversight i = seed.oversight i
  kept : Below n ledger.kept
  refused : Below n ledger.refused
  unpolicied : Below n ledger.unpolicied
  admitted : ledger.oversight = seed.oversight ∨ admits (seed.composed ledger.oversight) = true

theorem Entered.of_same {ledger next : Ledger} {i : Nat} (h : Entered seed existing ledger i)
    (hover : next.oversight i = ledger.oversight i) (hkept : i ∈ next.kept <-> i ∈ ledger.kept)
    (hrefused : i ∈ next.refused <-> i ∈ ledger.refused)
    (hunpolicied : i ∈ next.unpolicied <-> i ∈ ledger.unpolicied) :
    Entered seed existing next i := by
  cases h with
  | idle hwanted hsame hk hr hu =>
      exact Entered.idle hwanted (hover.trans hsame) (mt hkept.mp hk) (mt hrefused.mp hr)
        (mt hunpolicied.mp hu)
  | carried hwanted hsame hk hr hu =>
      exact Entered.carried hwanted (hover.trans hsame) (hkept.mpr hk) (mt hrefused.mp hr)
        (mt hunpolicied.mp hu)
  | bare hwanted hsame hk hr hu =>
      exact Entered.bare hwanted (hover.trans hsame) (hkept.mpr hk) (mt hrefused.mp hr)
        (hunpolicied.mpr hu)
  | refused hwanted hsame hk hr hu =>
      exact Entered.refused hwanted (hover.trans hsame) (mt hkept.mp hk) (hrefused.mpr hr)
        (mt hunpolicied.mp hu)

/-- A later turn leaves the entry of a step as it is. -/
theorem Entered.later {ledger next : Ledger} {i n : Nat}
    (h : Entered seed existing ledger i) (hi : i ≠ n)
    (hturn : @Turn _ _ _ seed existing admits ledger n next) : Entered seed existing next i := by
  have hover : forall checkpoint, Function.update ledger.oversight n checkpoint i = ledger.oversight i :=
    fun checkpoint => Function.update_of_ne hi checkpoint ledger.oversight
  have hsnoc : forall steps : List Nat, i ∈ steps ++ [n] <-> i ∈ steps := by
    intro steps
    simp [hi]
  cases hturn with
  | idle _ => exact h
  | carried _ _ => exact h.of_same (hover _) (hsnoc _) Iff.rfl Iff.rfl
  | bare _ _ => exact h.of_same (hover _) (hsnoc _) Iff.rfl (hsnoc _)
  | refused _ => exact h.of_same rfl Iff.rfl (hsnoc _) Iff.rfl

theorem LedgerOk.turn {n : Nat} {ledger next : Ledger}
    (h : @LedgerOk _ _ _ seed existing admits n ledger)
    (hturn : @Turn _ _ _ seed existing admits ledger n next) :
    @LedgerOk _ _ _ seed existing admits (n + 1) next := by
  have hown : ledger.oversight n = seed.oversight n := h.ahead n (Nat.le_refl n)
  have hkept := h.kept.not_mem (Nat.le_refl n)
  have hrefused := h.refused.not_mem (Nat.le_refl n)
  have hunpolicied := h.unpolicied.not_mem (Nat.le_refl n)
  have hlast : forall steps : List Nat, n ∈ steps ++ [n] := fun steps =>
    List.mem_append_right _ (List.mem_singleton.mpr rfl)
  have hahead : forall i, n + 1 ≤ i -> forall checkpoint,
      Function.update ledger.oversight n checkpoint i = seed.oversight i := by
    intro i hi checkpoint
    rw [Function.update_of_ne (Nat.ne_of_gt hi)]
    exact h.ahead i (Nat.le_of_succ_le hi)
  have hnow : Entered seed existing next n -> forall i, i < n + 1 ->
      Entered seed existing next i := by
    intro hnow i hi
    rcases Nat.lt_succ_iff_lt_or_eq.mp hi with hearlier | heq
    · exact (h.entered i hearlier).later (Nat.ne_of_lt hearlier) hturn
    · rw [heq]
      exact hnow
  cases hturn with
  | idle hwanted =>
      exact ⟨hnow (Entered.idle hwanted hown hkept hrefused hunpolicied),
        fun i hi => h.ahead i (Nat.le_of_succ_le hi), h.kept.succ, h.refused.succ,
        h.unpolicied.succ, h.admitted⟩
  | carried hwanted hadmits =>
      exact ⟨hnow (Entered.carried hwanted (Function.update_self _ _ _) (hlast _) hrefused
          hunpolicied),
        fun i hi => hahead i hi _, h.kept.snoc, h.refused.succ, h.unpolicied.succ, Or.inr hadmits⟩
  | bare hwanted hadmits =>
      exact ⟨hnow (Entered.bare hwanted (Function.update_self _ _ _) (hlast _) hrefused (hlast _)),
        fun i hi => hahead i hi _, h.kept.snoc, h.refused.succ, h.unpolicied.snoc,
        Or.inr hadmits⟩
  | refused hwanted =>
      exact ⟨hnow (Entered.refused hwanted hown hkept (hlast _) hunpolicied),
        fun i hi => h.ahead i (Nat.le_of_succ_le hi), h.kept.succ, h.refused.snoc,
        h.unpolicied.succ, h.admitted⟩

theorem ledgerAt_succ (n : Nat) :
    ledgerAt seed existing admits (n + 1) =
      ledgerStep seed existing admits (ledgerAt seed existing admits n) n := by
  rw [ledgerAt, List.range_succ, List.foldl_append]
  rfl

theorem ledgerOk (n : Nat) :
    @LedgerOk _ _ _ seed existing admits n (ledgerAt seed existing admits n) := by
  induction n with
  | zero =>
      exact ⟨fun i hi => absurd hi (Nat.not_lt_zero i), fun i _ => rfl,
        ⟨List.nodup_nil, fun i hi => absurd hi List.not_mem_nil⟩,
        ⟨List.nodup_nil, fun i hi => absurd hi List.not_mem_nil⟩,
        ⟨List.nodup_nil, fun i hi => absurd hi List.not_mem_nil⟩, Or.inl rfl⟩
  | succ n ih =>
      rw [ledgerAt_succ]
      exact ih.turn (Approvals.turn _ n)

/-!
## The row that the ledger tells
-/

section Row

variable {carried : CarriedApprovals value rest other} {ledger : Ledger}
  (htracks : @Tracks _ _ _ seed carried ledger)
include htracks

theorem Tracks.frame :
    carried.pipeline =
      { seed with
        gates := carried.pipeline.gates
        stepOptions := carried.pipeline.stepOptions } := by
  rcases htracks.pipeline with ⟨_, hseed, _⟩ | ⟨_, hcomposed⟩
  · rw [hseed]
  · rw [hcomposed]
    rfl

theorem Tracks.agentKinds : carried.pipeline.agentKinds = seed.agentKinds := by
  rw [htracks.frame]

theorem Tracks.gateAt {i : Nat} (hi : i < seed.agentKinds.length) :
    carried.pipeline.gateAt i = (ledger.oversight i).isSome := by
  rcases htracks.pipeline with ⟨_, hseed, hover⟩ | ⟨_, hcomposed⟩
  · rw [hseed, hover, Pipeline.oversight]
    cases seed.gateAt i with
    | true => rfl
    | false => rfl
  · rw [hcomposed, composed_gateAt _ _ hi]

theorem Tracks.policyAt {i : Nat} (hi : i < seed.agentKinds.length)
    (hover : ledger.oversight i = some policy) :
    normalPolicy (carried.pipeline.policyAt i) = normalPolicy policy := by
  rcases htracks.pipeline with ⟨_, hseed, hsame⟩ | ⟨_, hcomposed⟩
  · rw [hsame, Pipeline.oversight] at hover
    cases hgate : seed.gateAt i with
    | true =>
        rw [hgate] at hover
        rw [hseed, Option.some.inj hover]
    | false =>
        rw [hgate] at hover
        cases hover
  · rw [hcomposed, composed_policyAt _ _ hi, hover]
    exact normalPolicy_idem policy

theorem Tracks.policyAt_of_kept {i : Nat} (hi : i < seed.agentKinds.length)
    (hkept : i ∈ ledger.kept) (hover : ledger.oversight i = some policy) :
    carried.pipeline.policyAt i = normalPolicy policy := by
  rcases htracks.pipeline with ⟨hnone, _⟩ | ⟨_, hcomposed⟩
  · rw [hnone] at hkept
    cases hkept
  · rw [hcomposed, composed_policyAt _ _ hi, hover]
    rfl

theorem Tracks.optionsAt {i : Nat} (hi : i < seed.agentKinds.length) :
    withApprovalPolicy (carried.pipeline.optionsAt i) none =
      withApprovalPolicy (seed.optionsAt i) none := by
  rcases htracks.pipeline with ⟨_, hseed, _⟩ | ⟨_, hcomposed⟩
  · rw [hseed]
  · rw [hcomposed, composed_optionsAt _ _ hi, with_with]

end Row

/-!
## The steps that lost their checkpoint
-/

variable (seed existing) in
/-- The stored checkpoints whose step is not in the seed's chain. -/
def straySteps : List (String × Nat) :=
  (List.range existing.agentKinds.length).filterMap fun j =>
    (stepAt existing.agentKinds j).filter fun step =>
      decide ((storedAt existing step).isSome = true ∧
        keyOf step ∉ stepOccurrenceKeys seed.agentKinds)

theorem strayCheckpoints_eq :
    strayCheckpoints seed existing = (straySteps seed existing).map Prod.fst := by
  have hindices : (stepOccurrenceKeys existing.agentKinds).zipIdx.map Prod.snd =
      List.range existing.agentKinds.length := by
    rw [List.zipIdx_map_snd, length_stepOccurrenceKeys, List.range_eq_range']
  rw [straySteps, List.map_filterMap, ← hindices, List.filterMap_map, strayCheckpoints]
  apply List.filterMap_congr
  intro entry hentry
  rcases entry with ⟨key, j⟩
  have hkey := List.mem_zipIdx_iff_getElem?.mp hentry
  rw [stepOccurrenceKeys_getElem?, Option.map_eq_some_iff] at hkey
  rcases hkey with ⟨step, hstep, hkey⟩
  have hkind : existing.agentKinds.getD j "" = step.1 := by
    rw [List.getD_eq_getElem?_getD, (stepAt_eq_some.mp hstep).left]
    rfl
  show (if _ then _ else _) = ((stepAt existing.agentKinds j).filter _).map Prod.fst
  rw [hstep, hkind, ← hkey]
  change (if (storedAt existing step).isSome = true ∧
    keyOf step ∉ stepOccurrenceKeys seed.agentKinds then some step.1 else none) = _
  by_cases hstray : (storedAt existing step).isSome = true ∧
      keyOf step ∉ stepOccurrenceKeys seed.agentKinds
  · rw [if_pos hstray, Option.filter, if_pos (decide_eq_true hstray)]
    rfl
  · rw [if_neg hstray, Option.filter, if_neg (fun h => hstray (of_decide_eq_true h))]
    rfl

/-- A step is in a chain when its key is. -/
theorem keyOf_mem {agentKinds : List String} {step : String × Nat} :
    keyOf step ∈ stepOccurrenceKeys agentKinds <->
      exists i, stepAt agentKinds i = some step := by
  rw [List.mem_iff_getElem?]
  constructor
  · intro h
    rcases h with ⟨i, hi⟩
    rw [stepOccurrenceKeys_getElem?, Option.map_eq_some_iff] at hi
    rcases hi with ⟨found, hfound, hkey⟩
    rw [keyOf_injective hkey] at hfound
    exact ⟨i, hfound⟩
  · intro h
    rcases h with ⟨i, hi⟩
    refine ⟨i, ?_⟩
    rw [stepOccurrenceKeys_getElem?, hi]
    rfl

end Fold

/-- A step of a row that carries a checkpoint. -/
def Checkpointed (row : Pipeline value rest other) (step : String × Nat) : Prop :=
  exists i, stepAt row.agentKinds i = some step ∧ row.gateAt i = true

theorem checkpointed_iff {row : Pipeline value rest other} {step : String × Nat} :
    Checkpointed row step <-> (storedAt row step).isSome = true := by
  rw [Option.isSome_iff_exists]
  constructor
  · intro h
    rcases h with ⟨i, hstep, hgate⟩
    exact ⟨row.policyAt i, storedAt_eq_some.mpr ⟨i, hstep, hgate, rfl⟩⟩
  · intro h
    rcases h with ⟨policy, hpolicy⟩
    rcases storedAt_eq_some.mp hpolicy with ⟨i, hstep, hgate, _⟩
    exact ⟨i, hstep, hgate⟩

theorem mem_straySteps {seed existing : Pipeline value rest other} {step : String × Nat} :
    step ∈ straySteps seed existing <->
      Checkpointed existing step ∧ keyOf step ∉ stepOccurrenceKeys seed.agentKinds := by
  rw [straySteps, List.mem_filterMap, checkpointed_iff]
  constructor
  · intro h
    rcases h with ⟨j, _, hfilter⟩
    rw [Option.filter_eq_some_iff] at hfilter
    exact of_decide_eq_true hfilter.right
  · intro h
    rcases checkpointed_iff.mpr h.left with ⟨j, hstep, _⟩
    refine ⟨j, List.mem_range.mpr (stepAt_isSome.mp ⟨step, hstep⟩), ?_⟩
    rw [Option.filter_eq_some_iff]
    exact ⟨hstep, decide_eq_true h⟩

theorem nodup_straySteps (seed existing : Pipeline value rest other) :
    (straySteps seed existing).Nodup := by
  apply List.Nodup.filterMap _ List.nodup_range
  intro i j step hi hj
  rw [Option.mem_def, Option.filter_eq_some_iff] at hi hj
  exact stepAt_injective hi.left hj.left


/-!
## The accounts of a reseed
-/

/-- What a reseed did with the stored checkpoints: which steps lost theirs, and which only the
policy of it. -/
structure Accounts (seed existing : Pipeline value rest other)
    (carried : CarriedApprovals value rest other) (lost unpolicied : List (String × Nat)) :
    Prop where
  frame : carried.pipeline =
    { seed with
      gates := carried.pipeline.gates
      stepOptions := carried.pipeline.stepOptions }
  options : forall i, i < seed.agentKinds.length ->
    withApprovalPolicy (carried.pipeline.optionsAt i) none =
      withApprovalPolicy (seed.optionsAt i) none
  untouched : (forall step, Checkpointed existing step -> step ∈ lost) -> carried.pipeline = seed
  dropped : carried.dropped = lost.map Prod.fst
  droppedPolicies : carried.droppedPolicies = unpolicied.map Prod.fst
  once : lost.Nodup ∧ unpolicied.Nodup
  shipped : forall step, Checkpointed seed step -> Checkpointed carried.pipeline step
  either : forall step, Checkpointed existing step ->
    step ∈ lost ∨ Checkpointed carried.pipeline step
  both : forall step, step ∈ lost -> Checkpointed carried.pipeline step -> Checkpointed seed step
  stored : forall step, step ∈ lost ∨ step ∈ unpolicied -> Checkpointed existing step
  apart : forall step, step ∈ lost -> step ∉ unpolicied
  added : forall step, Checkpointed carried.pipeline step ->
    Checkpointed seed step ∨ Checkpointed existing step
  policy : forall step i j, stepAt seed.agentKinds i = some step ->
    stepAt existing.agentKinds j = some step -> existing.gateAt j = true -> step ∉ lost ->
      carried.pipeline.policyAt i =
        if step ∈ unpolicied then none
        else normalPolicy ((existing.policyAt j).or (seed.policyAt i))
  catalog : forall step i, stepAt seed.agentKinds i = some step -> seed.gateAt i = true ->
    (Checkpointed existing step -> step ∈ lost) ->
      normalPolicy (carried.pipeline.policyAt i) = normalPolicy (seed.policyAt i)

/-- The place of a step of the seed. -/
def seedStep (seed : Pipeline value rest other) (i : Nat) : String × Nat :=
  (stepAt seed.agentKinds i).getD ("", 0)

theorem seedStep_eq {seed : Pipeline value rest other} {i : Nat} {step : String × Nat}
    (h : stepAt seed.agentKinds i = some step) : seedStep seed i = step := by
  rw [seedStep, h]
  rfl

theorem map_seedStep_fst (seed : Pipeline value rest other) (steps : List Nat) :
    (steps.map (seedStep seed)).map Prod.fst =
      steps.map fun i => seed.agentKinds.getD i "" := by
  rw [List.map_map]
  apply List.map_congr_left
  intro i _
  show (seedStep seed i).1 = _
  rw [seedStep, stepAt, List.getD_eq_getElem?_getD]
  cases seed.agentKinds[i]? with
  | none => rfl
  | some kind => rfl

theorem mem_map_seedStep {seed : Pipeline value rest other}
    (h : Below seed.agentKinds.length steps) {step : String × Nat} :
    step ∈ steps.map (seedStep seed) <->
      exists i, i ∈ steps ∧ stepAt seed.agentKinds i = some step := by
  rw [List.mem_map]
  constructor
  · intro hmem
    rcases hmem with ⟨i, hi, hstep⟩
    rcases stepAt_isSome.mpr (h.right i hi) with ⟨found, hfound⟩
    rw [seedStep_eq hfound] at hstep
    rw [hstep] at hfound
    exact ⟨i, hi, hfound⟩
  · intro hmem
    rcases hmem with ⟨i, hi, hstep⟩
    exact ⟨i, hi, seedStep_eq hstep⟩

theorem nodup_map_seedStep {seed : Pipeline value rest other}
    (h : Below seed.agentKinds.length steps) : (steps.map (seedStep seed)).Nodup := by
  apply List.Nodup.map_on _ h.left
  intro i hi j hj heq
  rcases stepAt_isSome.mpr (h.right i hi) with ⟨step, hstep⟩
  rcases stepAt_isSome.mpr (h.right j hj) with ⟨step', hstep'⟩
  rw [seedStep_eq hstep, seedStep_eq hstep'] at heq
  rw [heq] at hstep
  exact stepAt_injective hstep hstep'

/-- The policy that a stored checkpoint is carried with. -/
theorem wanted_of_stored {seed existing : Pipeline value rest other} {i j : Nat}
    {step : String × Nat} (hi : stepAt seed.agentKinds i = some step)
    (hj : stepAt existing.agentKinds j = some step) (hgate : existing.gateAt j = true) :
    wanted seed existing i = some ((existing.policyAt j).or (seed.policyAt i)) := by
  rw [wanted_eq hi, storedAt_eq_some.mpr ⟨j, hj, hgate, rfl⟩]
  rfl

theorem checkpointed_of_wanted {seed existing : Pipeline value rest other} {i : Nat}
    {step : String × Nat} (hi : stepAt seed.agentKinds i = some step)
    (h : wanted seed existing i = some policy) :
    Checkpointed existing step := by
  rw [wanted_eq hi, Option.map_eq_some_iff] at h
  rcases h with ⟨own, hown, _⟩
  apply checkpointed_iff.mpr
  rw [hown]
  rfl

theorem oversight_isSome (row : Pipeline value rest other) (i : Nat) :
    (row.oversight i).isSome = row.gateAt i := by
  rw [Pipeline.oversight]
  cases row.gateAt i with
  | true => rfl
  | false => rfl

theorem Tracks.checkpointed {seed : Pipeline value rest other}
    {carried : CarriedApprovals value rest other} {ledger : Ledger}
    (htracks : @Tracks _ _ _ seed carried ledger) {step : String × Nat} :
    Checkpointed carried.pipeline step <->
      exists i, stepAt seed.agentKinds i = some step ∧ (ledger.oversight i).isSome = true := by
  unfold Checkpointed
  rw [htracks.agentKinds]
  constructor
  · intro h
    rcases h with ⟨i, hi, hgate⟩
    rw [htracks.gateAt (stepAt_isSome.mp ⟨step, hi⟩)] at hgate
    exact ⟨i, hi, hgate⟩
  · intro h
    rcases h with ⟨i, hi, hsome⟩
    rw [← htracks.gateAt (stepAt_isSome.mp ⟨step, hi⟩)] at hsome
    exact ⟨i, hi, hsome⟩

/-- The steps that a ledger has lost the checkpoints of. -/
def lostSteps (seed existing : Pipeline value rest other) (ledger : Ledger) :
    List (String × Nat) :=
  ledger.refused.map (seedStep seed) ++ straySteps seed existing

section Accounted

variable {seed existing : Pipeline value rest other}
  {admits : Pipeline value rest other -> Bool} {ledger : Ledger}
  (hok : @LedgerOk _ _ _ seed existing admits seed.agentKinds.length ledger)
include hok

theorem LedgerOk.mem_unpolicied {step : String × Nat} {i : Nat}
    (hi : stepAt seed.agentKinds i = some step) :
    step ∈ ledger.unpolicied.map (seedStep seed) <-> i ∈ ledger.unpolicied := by
  rw [mem_map_seedStep hok.unpolicied]
  constructor
  · intro h
    rcases h with ⟨i', hmem, hi'⟩
    rw [stepAt_injective hi hi']
    exact hmem
  · intro hmem
    exact ⟨i, hmem, hi⟩

theorem LedgerOk.mem_lost {step : String × Nat} {i : Nat}
    (hi : stepAt seed.agentKinds i = some step) :
    step ∈ lostSteps seed existing ledger <-> i ∈ ledger.refused := by
  rw [lostSteps, List.mem_append, mem_map_seedStep hok.refused]
  constructor
  · intro h
    rcases h with ⟨i', hmem, hi'⟩ | hstray
    · rw [stepAt_injective hi hi']
      exact hmem
    · exact absurd (keyOf_mem.mpr ⟨i, hi⟩) (mem_straySteps.mp hstray).right
  · intro hmem
    exact Or.inl ⟨i, hmem, hi⟩

theorem LedgerOk.lost_cases {step : String × Nat} (h : step ∈ lostSteps seed existing ledger) :
    (exists i, i ∈ ledger.refused ∧ stepAt seed.agentKinds i = some step) ∨
      Checkpointed existing step ∧ keyOf step ∉ stepOccurrenceKeys seed.agentKinds := by
  rcases List.mem_append.mp h with hrefused | hstray
  · exact Or.inl ((mem_map_seedStep hok.refused).mp hrefused)
  · exact Or.inr (mem_straySteps.mp hstray)

theorem LedgerOk.lost_nodup : (lostSteps seed existing ledger).Nodup := by
  apply List.nodup_append.mpr
  refine ⟨nodup_map_seedStep hok.refused, nodup_straySteps seed existing, ?_⟩
  intro step hrefused step' hstray heq
  rcases (mem_map_seedStep hok.refused).mp hrefused with ⟨i, _, hi⟩
  rw [heq] at hi
  exact (mem_straySteps.mp hstray).right (keyOf_mem.mpr ⟨i, hi⟩)

/-- A stored checkpoint whose step is in the chain was either refused or kept. -/
theorem LedgerOk.stored_cases {step : String × Nat} {i j : Nat}
    (hi : stepAt seed.agentKinds i = some step) (hj : stepAt existing.agentKinds j = some step)
    (hgate : existing.gateAt j = true) :
    i ∈ ledger.refused ∨
      i ∈ ledger.kept ∧ ledger.oversight i = some (if i ∈ ledger.unpolicied then none
        else (existing.policyAt j).or (seed.policyAt i)) := by
  have hwanted := wanted_of_stored hi hj hgate
  cases hok.entered i (stepAt_isSome.mp ⟨step, hi⟩) with
  | idle hnone _ _ _ _ =>
      rw [hwanted] at hnone
      cases hnone
  | carried hsome hover hkept _ hunpolicied =>
      rw [hwanted] at hsome
      rw [if_neg hunpolicied, hover, Option.some.inj hsome]
      exact Or.inr ⟨hkept, rfl⟩
  | bare _ hover hkept _ hunpolicied =>
      rw [if_pos hunpolicied]
      exact Or.inr ⟨hkept, hover⟩
  | refused _ _ _ hrefused _ => exact Or.inl hrefused

/-- What was not kept is as the seed has it. -/
theorem LedgerOk.over_of_not_kept {i : Nat} (hi : i < seed.agentKinds.length)
    (hkept : i ∉ ledger.kept) : ledger.oversight i = seed.oversight i := by
  cases hok.entered i hi with
  | idle _ hsame _ _ _ => exact hsame
  | carried _ _ hmem _ _ => exact absurd hmem hkept
  | bare _ _ hmem _ _ => exact absurd hmem hkept
  | refused _ hsame _ _ _ => exact hsame

/-- What was kept is a stored checkpoint that was not refused. -/
theorem LedgerOk.stored_of_kept {step : String × Nat} {i : Nat}
    (hi : stepAt seed.agentKinds i = some step) (hkept : i ∈ ledger.kept) :
    Checkpointed existing step ∧ i ∉ ledger.refused ∧ (ledger.oversight i).isSome = true := by
  cases hok.entered i (stepAt_isSome.mp ⟨step, hi⟩) with
  | idle _ _ hnot _ _ => exact absurd hkept hnot
  | carried hwanted hover _ hrefused _ =>
      rw [hover]
      exact ⟨checkpointed_of_wanted hi hwanted, hrefused, rfl⟩
  | bare hwanted hover _ hrefused _ =>
      rw [hover]
      exact ⟨checkpointed_of_wanted hi hwanted, hrefused, rfl⟩
  | refused _ _ hnot _ _ => exact absurd hkept hnot

theorem LedgerOk.stored_of_refused {step : String × Nat} {i : Nat}
    (hi : stepAt seed.agentKinds i = some step) (hrefused : i ∈ ledger.refused) :
    Checkpointed existing step ∧ i ∉ ledger.kept ∧ i ∉ ledger.unpolicied := by
  cases hok.entered i (stepAt_isSome.mp ⟨step, hi⟩) with
  | idle _ _ _ hnot _ => exact absurd hrefused hnot
  | carried _ _ _ hnot _ => exact absurd hrefused hnot
  | bare _ _ _ hnot _ => exact absurd hrefused hnot
  | refused hwanted _ hkept _ hunpolicied =>
      exact ⟨checkpointed_of_wanted hi hwanted, hkept, hunpolicied⟩

theorem LedgerOk.kept_of_unpolicied {i : Nat} (h : i ∈ ledger.unpolicied) : i ∈ ledger.kept := by
  cases hok.entered i (hok.unpolicied.right i h) with
  | idle _ _ _ _ hnot => exact absurd h hnot
  | carried _ _ _ _ hnot => exact absurd h hnot
  | bare _ _ hkept _ _ => exact hkept
  | refused _ _ _ _ hnot => exact absurd h hnot

/-- The ledger of a reseed accounts for every stored checkpoint. -/
theorem accounts {carried : CarriedApprovals value rest other}
    (htracks : @Tracks _ _ _ seed carried ledger) :
    Accounts seed existing
      { carried with dropped := carried.dropped ++ strayCheckpoints seed existing }
      (lostSteps seed existing ledger) (ledger.unpolicied.map (seedStep seed)) := by
  constructor
  · exact htracks.frame
  · intro i hi
    exact htracks.optionsAt hi
  · intro hall
    rcases htracks.pipeline with ⟨_, hseed, _⟩ | ⟨hkept, _⟩
    · exact hseed
    · rcases List.exists_mem_of_ne_nil _ hkept with ⟨i, hi⟩
      rcases stepAt_isSome.mpr (hok.kept.right i hi) with ⟨step, hstep⟩
      rcases hok.stored_of_kept hstep hi with ⟨hstored, hnot, _⟩
      exact absurd ((hok.mem_lost hstep).mp (hall step hstored)) hnot
  · rw [lostSteps, List.map_append, map_seedStep_fst, htracks.dropped, strayCheckpoints_eq]
  · rw [map_seedStep_fst]
    exact htracks.droppedPolicies
  · exact ⟨hok.lost_nodup, nodup_map_seedStep hok.unpolicied⟩
  · intro step hstep
    rcases hstep with ⟨i, hi, hgate⟩
    refine htracks.checkpointed.mpr ⟨i, hi, ?_⟩
    by_cases hkept : i ∈ ledger.kept
    · exact (hok.stored_of_kept hi hkept).right.right
    · rw [hok.over_of_not_kept (stepAt_isSome.mp ⟨step, hi⟩) hkept, oversight_isSome]
      exact hgate
  · intro step hstep
    by_cases hchain : keyOf step ∈ stepOccurrenceKeys seed.agentKinds
    · rcases keyOf_mem.mp hchain with ⟨i, hi⟩
      rcases hstep with ⟨j, hj, hgate⟩
      rcases hok.stored_cases hi hj hgate with hrefused | ⟨_, hover⟩
      · exact Or.inl ((hok.mem_lost hi).mpr hrefused)
      · refine Or.inr (htracks.checkpointed.mpr ⟨i, hi, ?_⟩)
        rw [hover]
        rfl
    · exact Or.inl (List.mem_append_right _ (mem_straySteps.mpr ⟨hstep, hchain⟩))
  · intro step hlost hrow
    rcases htracks.checkpointed.mp hrow with ⟨i, hi, hsome⟩
    rcases hok.stored_of_refused hi ((hok.mem_lost hi).mp hlost) with ⟨_, hkept, _⟩
    rw [hok.over_of_not_kept (stepAt_isSome.mp ⟨step, hi⟩) hkept, oversight_isSome] at hsome
    exact ⟨i, hi, hsome⟩
  · intro step h
    rcases h with hlost | hunpolicied
    · rcases hok.lost_cases hlost with ⟨i, hrefused, hi⟩ | ⟨hstored, _⟩
      · exact (hok.stored_of_refused hi hrefused).left
      · exact hstored
    · rcases (mem_map_seedStep hok.unpolicied).mp hunpolicied with ⟨i, hmem, hi⟩
      exact (hok.stored_of_kept hi (hok.kept_of_unpolicied hmem)).left
  · intro step hlost hunpolicied
    rcases (mem_map_seedStep hok.unpolicied).mp hunpolicied with ⟨i, hmem, hi⟩
    exact (hok.stored_of_refused hi ((hok.mem_lost hi).mp hlost)).right.right hmem
  · intro step hrow
    rcases htracks.checkpointed.mp hrow with ⟨i, hi, hsome⟩
    by_cases hkept : i ∈ ledger.kept
    · exact Or.inr (hok.stored_of_kept hi hkept).left
    · rw [hok.over_of_not_kept (stepAt_isSome.mp ⟨step, hi⟩) hkept, oversight_isSome] at hsome
      exact Or.inl ⟨i, hi, hsome⟩
  · intro step i j hi hj hgate hlost
    rcases hok.stored_cases hi hj hgate with hrefused | ⟨hkept, hover⟩
    · exact absurd ((hok.mem_lost hi).mpr hrefused) hlost
    · rw [htracks.policyAt_of_kept (stepAt_isSome.mp ⟨step, hi⟩) hkept hover]
      by_cases hunpolicied : i ∈ ledger.unpolicied
      · rw [if_pos hunpolicied, if_pos ((hok.mem_unpolicied hi).mpr hunpolicied)]
        rfl
      · rw [if_neg hunpolicied, if_neg fun h => hunpolicied ((hok.mem_unpolicied hi).mp h)]
  · intro step i hi hgate hlost
    have hkept : i ∉ ledger.kept := by
      intro hmem
      rcases hok.stored_of_kept hi hmem with ⟨hstored, hnot, _⟩
      exact hnot ((hok.mem_lost hi).mp (hlost hstored))
    apply htracks.policyAt (stepAt_isSome.mp ⟨step, hi⟩)
    rw [hok.over_of_not_kept (stepAt_isSome.mp ⟨step, hi⟩) hkept, Pipeline.oversight, hgate]
    rfl

end Accounted

end Approvals
end Pipelines
end CatFactory
