import CatFactory.Pipelines.CarriedLaw
import Mathlib.Logic.Relation

/-!
# Reseeding a built-in

A reseed accounts for every checkpoint that the stored row carries, and a second
reseed of its own result changes nothing.  Between reseeds the workspace may set
the checkpoints of the row, and never switches off one that the catalog ships.
-/

namespace CatFactory
namespace Pipelines
namespace Approvals

open Foundation

variable {value rest other : Type}

/-!
## A second reseed
-/

/-- A row as the code itself stores it. -/
def Settled (row : Pipeline value rest other) : Prop :=
  row.composed row.oversight = row

section Again

variable {seed existing : Pipeline value rest other}
  {admits : Pipeline value rest other -> Bool}

theorem Tracks.composed {carried : CarriedApprovals value rest other} {ledger : Ledger}
    (h : @Tracks _ _ _ seed carried ledger) (hsettled : Settled seed) :
    carried.pipeline = seed.composed ledger.oversight := by
  rcases h.pipeline with ⟨_, hseed, hover⟩ | ⟨_, hcomposed⟩
  · rw [hseed, hover]
    exact hsettled.symm
  · exact hcomposed

/-- A turn changes what its own step is asked. -/
theorem Turn.oversight {ledger next : Ledger} {n : Nat}
    (h : @Turn _ _ _ seed existing admits ledger n next) {i : Nat} (hi : i ≠ n) :
    next.oversight i = ledger.oversight i := by
  cases h with
  | idle _ => rfl
  | carried _ _ => exact Function.update_of_ne hi _ _
  | bare _ _ => exact Function.update_of_ne hi _ _
  | refused _ => rfl

theorem Turn.over_none {ledger next : Ledger} {n : Nat}
    (h : @Turn _ _ _ seed existing admits ledger n next) (hnone : next.oversight n = none) :
    next.oversight = ledger.oversight := by
  cases h with
  | idle _ => rfl
  | carried _ _ =>
      rw [show (_ : Ledger).oversight n = Function.update ledger.oversight n _ n from rfl,
        Function.update_self] at hnone
      cases hnone
  | bare _ _ =>
      rw [show (_ : Ledger).oversight n = Function.update ledger.oversight n _ n from rfl,
        Function.update_self] at hnone
      cases hnone
  | refused _ => rfl

theorem ledgerAt_over {i m : Nat} (h : i < m) :
    (ledgerAt seed existing admits m).oversight i = (ledgerAt seed existing admits (i + 1)).oversight i := by
  induction m with
  | zero => exact absurd h (Nat.not_lt_zero i)
  | succ m ih =>
      rcases Nat.lt_succ_iff_lt_or_eq.mp h with hearlier | heq
      · rw [ledgerAt_succ, (turn _ m).oversight (Nat.ne_of_lt hearlier), ih hearlier]
      · rw [heq]

theorem turn_update {ledger next : Ledger} {n : Nat} {policy : Option ApprovalPolicy}
    (h : @Turn _ _ _ seed existing admits ledger n next) (hsome : next.oversight n = some policy) :
    next.oversight = Function.update ledger.oversight n (some policy) := by
  funext i
  by_cases hi : i = n
  · rw [hi, Function.update_self, hsome]
  · rw [h.oversight hi, Function.update_of_ne hi]

/-- What a composed row is carried with when it is stored. -/
theorem wanted_composed {oversight : Oversight} {i : Nat} (hi : i < seed.agentKinds.length) :
    wanted seed (seed.composed oversight) i =
      (oversight i).map fun policy => (normalPolicy policy).or (seed.policyAt i) := by
  rcases stepAt_isSome.mpr hi with ⟨step, hstep⟩
  have hgate := composed_gateAt seed oversight hi
  cases hover : oversight i with
  | none =>
      rw [wanted_eq hstep, Option.map_none, Option.map_eq_none_iff]
      rw [hover] at hgate
      cases hstored : storedAt (seed.composed oversight) step with
      | none => rfl
      | some policy =>
          rcases storedAt_eq_some.mp hstored with ⟨j, hj, hon, _⟩
          rw [stepAt_injective hj hstep, hgate] at hon
          cases hon
  | some policy =>
      rw [hover] at hgate
      rw [@wanted_of_stored _ _ _ seed (seed.composed oversight) _ _ _ hstep hstep hgate,
        composed_policyAt seed oversight hi, hover]
      rfl

theorem normalPolicy_or {policy catalog : Option ApprovalPolicy}
    (h : normalPolicy policy ≠ none ∨ normalPolicy catalog = normalPolicy policy) :
    normalPolicy ((normalPolicy policy).or catalog) = normalPolicy policy := by
  cases hnormal : normalPolicy policy with
  | none =>
      rcases h with hne | hcatalog
      · exact absurd hnormal hne
      · rw [Option.none_or, hcatalog, hnormal]
  | some stored =>
      rw [Option.some_or, ← hnormal, normalPolicy_idem]

/-- The seed and the stored policies are as the code itself stores them, and no step whose policy
was not kept has one in the catalog. -/
structure Repeatable (seed existing : Pipeline value rest other) (unpolicied : Nat -> Prop) :
    Prop where
  settled : Settled seed
  stored : forall j, existing.gateAt j = true ->
    normalPolicy (existing.policyAt j) = existing.policyAt j
  catalog : forall i, unpolicied i -> seed.policyAt i = none

/-- A checkpoint of the row is carried again as it was. -/
theorem normalPolicy_again {ledger : Ledger}
    (hok : @LedgerOk _ _ _ seed existing admits seed.agentKinds.length ledger)
    (h : Repeatable seed existing (fun i => i ∈ ledger.unpolicied)) {i : Nat}
    (hi : i < seed.agentKinds.length) {policy : Option ApprovalPolicy}
    (hover : ledger.oversight i = some policy) :
    normalPolicy ((normalPolicy policy).or (seed.policyAt i)) = normalPolicy policy := by
  have hown : ledger.oversight i = seed.oversight i -> policy = seed.policyAt i := by
    intro hsame
    rw [hover, Pipeline.oversight] at hsame
    cases hgate : seed.gateAt i with
    | true =>
        rw [hgate] at hsame
        exact Option.some.inj hsame
    | false =>
        rw [hgate] at hsame
        cases hsame
  rcases stepAt_isSome.mpr hi with ⟨step, hstep⟩
  apply normalPolicy_or
  by_cases hkept : i ∈ ledger.kept
  · rcases (hok.stored_of_kept hstep hkept).left with ⟨j, hj, hgate⟩
    rcases hok.stored_cases hstep hj hgate with hrefused | ⟨_, hentry⟩
    · exact absurd hrefused (hok.stored_of_kept hstep hkept).right.left
    · rw [hover] at hentry
      rw [Option.some.inj hentry]
      by_cases hunpolicied : i ∈ ledger.unpolicied
      · rw [if_pos hunpolicied, h.catalog i hunpolicied]
        exact Or.inr rfl
      · rw [if_neg hunpolicied]
        cases hstored : existing.policyAt j with
        | none => exact Or.inr rfl
        | some own =>
            have hnormal := h.stored j hgate
            rw [hstored] at hnormal
            rw [Option.some_or, hnormal]
            exact Or.inl (Option.some_ne_none own)
  · rw [hown (hok.over_of_not_kept hi hkept)]
    exact Or.inr rfl

/-- The second reseed walks the ledger of the first. -/
theorem ledgerAt_again
    (h : Repeatable seed existing (fun i =>
      i ∈ (ledgerAt seed existing admits seed.agentKinds.length).unpolicied))
    (hadmits : admits seed = true) {n : Nat} (hn : n ≤ seed.agentKinds.length) :
    let row := seed.composed (ledgerAt seed existing admits seed.agentKinds.length).oversight
    Oversight.SameOn seed.agentKinds.length (ledgerAt seed row admits n).oversight
        (ledgerAt seed existing admits n).oversight ∧
      (ledgerAt seed row admits n).refused = [] ∧
      (ledgerAt seed row admits n).unpolicied = [] := by
  intro row
  induction n with
  | zero => exact ⟨fun i _ => rfl, rfl, rfl⟩
  | succ n ih =>
      rcases ih (Nat.le_of_succ_le hn) with ⟨hsame, hrefused, hunpolicied⟩
      have hok := @ledgerOk _ _ _ seed existing admits seed.agentKinds.length
      have hturn := @turn _ _ _ seed existing admits (ledgerAt seed existing admits n) n
      have hfinal := @ledgerAt_over _ _ _ seed existing admits _ _ hn
      rw [← ledgerAt_succ] at hturn
      have hwanted := @wanted_composed _ _ _ seed
        (ledgerAt seed existing admits seed.agentKinds.length).oversight _ hn
      rw [@ledgerAt_succ _ _ _ seed row admits n, ledgerStep]
      cases hover : (ledgerAt seed existing admits seed.agentKinds.length).oversight n with
      | none =>
          rw [hover] at hwanted hfinal
          rw [hwanted]
          refine ⟨?_, hrefused, hunpolicied⟩
          rw [hturn.over_none hfinal.symm]
          exact hsame
      | some policy =>
          rw [hover] at hwanted hfinal
          rw [hwanted]
          have hupdate : Oversight.SameOn seed.agentKinds.length
              (Function.update (ledgerAt seed row admits n).oversight n
                (some ((normalPolicy policy).or (seed.policyAt n))))
              (ledgerAt seed existing admits (n + 1)).oversight := by
            rw [turn_update hturn hfinal.symm]
            intro i hi
            by_cases hin : i = n
            · rw [hin, Function.update_self, Function.update_self]
              exact congrArg some (normalPolicy_again hok h hn hover)
            · rw [Function.update_of_ne hin, Function.update_of_ne hin]
              exact hsame i hi
          have hadmitted : admits (seed.composed
              (Function.update (ledgerAt seed row admits n).oversight n
                (some ((normalPolicy policy).or (seed.policyAt n))))) = true := by
            rw [composed_congr seed hupdate]
            rcases (@ledgerOk _ _ _ seed existing admits (n + 1)).admitted with hown | hadmitted
            · rw [hown, h.settled]
              exact hadmits
            · exact hadmitted
          simp only [Option.map_some, if_pos hadmitted]
          exact ⟨hupdate, hrefused, hunpolicied⟩

/-- A second reseed of a row changes nothing and drops nothing. -/
theorem carriedApprovals_again {carried : CarriedApprovals value rest other}
    (htracks : @Tracks _ _ _ seed carried (ledgerAt seed existing admits seed.agentKinds.length))
    (h : Repeatable seed existing (fun i =>
      i ∈ (ledgerAt seed existing admits seed.agentKinds.length).unpolicied))
    (hadmits : admits seed = true) :
    carriedApprovals seed carried.pipeline admits = .ok { pipeline := carried.pipeline } := by
  rw [htracks.composed h.settled]
  rcases ledgerAt_again h hadmits (Nat.le_refl _) with ⟨hsame, hrefused, hunpolicied⟩
  rcases @carriedApprovals_eq _ _ _ seed
    (seed.composed (ledgerAt seed existing admits seed.agentKinds.length).oversight) admits with
    ⟨again, heq, htracks'⟩
  have hstray : strayCheckpoints seed
      (seed.composed (ledgerAt seed existing admits seed.agentKinds.length).oversight) = [] := by
    rw [strayCheckpoints_eq]
    apply List.map_eq_nil_iff.mpr
    apply List.eq_nil_iff_forall_not_mem.mpr
    intro step hstep
    rcases mem_straySteps.mp hstep with ⟨⟨i, hi, _⟩, hnot⟩
    exact hnot (keyOf_mem.mpr ⟨i, hi⟩)
  have hpipeline := htracks'.composed h.settled
  rw [composed_congr seed hsame] at hpipeline
  rcases again with ⟨pipeline, dropped, droppedPolicies⟩
  have hdropped := htracks'.dropped
  have hpolicies := htracks'.droppedPolicies
  rw [hrefused] at hdropped
  rw [hunpolicied] at hpolicies
  change pipeline = _ at hpipeline
  change dropped = [] at hdropped
  change droppedPolicies = [] at hpolicies
  rw [heq, hstray, hpipeline, hdropped, hpolicies]
  rfl

end Again

/-!
## Setting the checkpoints of a row
-/

section Locked

variable {row next : Pipeline value rest other} {catalog : Option CatalogApprovals}

theorem length_catalogGatedSteps (agentKinds : List String) (catalog : Option CatalogApprovals) :
    (catalogGatedSteps agentKinds catalog).length = agentKinds.length := by
  cases catalog with
  | none => exact List.length_map _
  | some catalog =>
      rw [catalogGatedSteps, List.length_map]
      exact length_stepOccurrenceKeys agentKinds

/-- A step is locked when the catalog ships its checkpoint and the row carries it. -/
theorem locked_iff {i : Nat} :
    (lockedCheckpoints row catalog)[i]? = some true <->
      (catalogGatedSteps row.agentKinds catalog)[i]? = some true ∧ row.gateAt i = true := by
  rw [lockedCheckpoints, List.getElem?_mapIdx, Option.map_eq_some_iff]
  constructor
  · intro h
    rcases h with ⟨shipped, hshipped, hboth⟩
    rw [Bool.and_eq_true] at hboth
    rw [hboth.left] at hshipped
    exact ⟨hshipped, hboth.right⟩
  · intro h
    exact ⟨true, h.left, h.right⟩

/-- What an accepted request leaves, and that it switches no locked checkpoint off. -/
theorem approvalsApplied_ok {input : SetPipelineApprovalsInput}
    {applied : AppliedApprovals value rest}
    (h : approvalsApplied row input catalog = .ok applied) :
    applied = appliedOnto row input ∧
      (row.builtin = some true -> removedCheckpoints row input catalog = []) := by
  unfold approvalsApplied at h
  by_cases hchain : input.agentKinds ≠ row.agentKinds
  · rw [if_pos hchain] at h
    cases h
  · rw [if_neg hchain] at h
    cases hlengths : mismatchedLengths input row.agentKinds.length with
    | cons named rest =>
        rw [hlengths] at h
        cases h
    | nil =>
        rw [hlengths] at h
        by_cases hremoved : row.builtin = some true ∧ removedCheckpoints row input catalog ≠ []
        · simp only [if_pos hremoved] at h
          cases h
        · simp only [if_neg hremoved, Except.ok.injEq] at h
          refine ⟨h.symm, ?_⟩
          intro hbuiltin
          by_contra hne
          exact hremoved ⟨hbuiltin, hne⟩

theorem gateAt_of_none_removed {input : SetPipelineApprovalsInput}
    (h : removedCheckpoints row input catalog = []) {i : Nat}
    (hlocked : (lockedCheckpoints row catalog)[i]? = some true) : input.gateAt i = true := by
  rcases List.getElem?_eq_some_iff.mp hlocked with ⟨hi, _⟩
  rw [lockedCheckpoints, List.length_mapIdx, length_catalogGatedSteps] at hi
  by_contra hoff
  rw [Bool.not_eq_true] at hoff
  have hmem : row.agentKinds[i] ∈ removedCheckpoints row input catalog := by
    apply List.mem_filterMap.mpr
    refine ⟨(row.agentKinds[i], i), ?_, ?_⟩
    · exact List.mem_zipIdx_iff_getElem?.mpr (List.getElem?_eq_getElem hi)
    · rw [if_pos ⟨hlocked, hoff⟩]
  rw [h] at hmem
  cases hmem

/-- The row that an accepted request leaves. -/
def Approves (catalog : Option CatalogApprovals) (row next : Pipeline value rest other) : Prop :=
  exists input applied,
    approvalsApplied row input catalog = .ok applied ∧ next = row.applied applied

/-- A step that the catalog ships a checkpoint on, and that carries one in a built-in row. -/
def LockedAt (catalog : Option CatalogApprovals) (row : Pipeline value rest other) (i : Nat) :
    Prop :=
  row.builtin = some true ∧ (lockedCheckpoints row catalog)[i]? = some true

theorem Approves.locked {i : Nat} (h : Approves catalog row next) (hlocked : LockedAt catalog row i) :
    LockedAt catalog next i := by
  rcases h with ⟨input, applied, happlied, hnext⟩
  rcases hlocked with ⟨hbuiltin, hlocked⟩
  rcases approvalsApplied_ok happlied with ⟨hresult, hremoved⟩
  have hgate := gateAt_of_none_removed (hremoved hbuiltin) hlocked
  rw [hnext, hresult]
  refine ⟨hbuiltin, locked_iff.mpr ⟨(locked_iff.mp hlocked).left, ?_⟩⟩
  rw [gateAt_of_gates _ rfl]
  exact hgate

/-- No sequence of accepted requests unlocks a checkpoint. -/
theorem lockedAt_of_run {i : Nat} (hrun : Relation.ReflTransGen (Approves catalog) row next)
    (hlocked : LockedAt catalog row i) : LockedAt catalog next i := by
  induction hrun with
  | refl => exact hlocked
  | tail _ hlast ih => exact hlast.locked ih

end Locked

/-!
## The law
-/

/-- What a reseed keeps of the oversight of a workspace. -/
structure KeepsOversight (seed existing : Pipeline value rest other)
    (admits : Pipeline value rest other -> Bool) : Prop where
  carried : exists carried lost unpolicied,
    carriedApprovals seed existing admits = .ok carried ∧
      Accounts seed existing carried lost unpolicied ∧
      (admits seed = true ->
        Repeatable seed existing (fun i =>
          exists step, step ∈ unpolicied ∧ stepAt seed.agentKinds i = some step) ->
        carriedApprovals seed carried.pipeline admits = .ok { pipeline := carried.pipeline })
  locked : forall (catalog : Option CatalogApprovals) (row next : Pipeline value rest other) i,
    Relation.ReflTransGen (Approves catalog) row next -> LockedAt catalog row i ->
      next.gateAt i = true

/-- A reseed accounts for the stored checkpoints, and the workspace keeps those of the catalog. -/
theorem carriedApprovals_law (seed existing : Pipeline value rest other)
    (admits : Pipeline value rest other -> Bool) : KeepsOversight seed existing admits := by
  constructor
  · rcases @carriedApprovals_eq _ _ _ seed existing admits with ⟨carried, heq, htracks⟩
    have hok := @ledgerOk _ _ _ seed existing admits seed.agentKinds.length
    refine ⟨_, _, _, heq, accounts hok htracks, ?_⟩
    intro hadmits hrepeatable
    apply carriedApprovals_again htracks _ hadmits
    refine ⟨hrepeatable.settled, hrepeatable.stored, ?_⟩
    intro i hi
    rcases stepAt_isSome.mpr (hok.unpolicied.right i hi) with ⟨step, hstep⟩
    exact hrepeatable.catalog i ⟨step, (hok.mem_unpolicied hstep).mpr hi, hstep⟩
  · intro catalog row next i hrun hlocked
    exact (locked_iff.mp (lockedAt_of_run hrun hlocked).right).right

/-- A built-in of one step, its checkpoint with a policy of the catalog. -/
def administered : Pipeline Unit Unit Unit :=
  { name := "built-in"
    builtin := some true
    agentKinds := ["coder"]
    gates := some [true]
    stepOptions := some
      [some { gateConfig := some { approvers := some { roles := some ["admin"] } } }]
    others := () }

/-- The stored row, with a policy of the workspace. -/
def doubled : Pipeline Unit Unit Unit :=
  { administered with
    stepOptions := some [some { gateConfig := some { minApprovals := some 2 } }] }

/-- A definition that takes one approval at most. -/
def takesOne (row : Pipeline Unit Unit Unit) : Bool :=
  ((row.policyAt 0).bind ApprovalPolicy.minApprovals).isNone

/-- A checkpoint that is refused is named as dropped where the catalog ships it too, and a policy
that is refused comes back as the catalog's with the next reseed. -/
theorem not_carriedApprovals_law :
    (exists carried, carriedApprovals administered doubled (fun _ => false) = .ok carried ∧
      carried.dropped = ["coder"] ∧ Checkpointed carried.pipeline ("coder", 0)) ∧
    exists carried, carriedApprovals administered doubled takesOne = .ok carried ∧
      takesOne carried.pipeline = true ∧
      carriedApprovals administered carried.pipeline takesOne ≠
        .ok { pipeline := carried.pipeline } := by
  constructor
  · exact ⟨_, rfl, by decide +kernel, 0, by decide +kernel, by decide +kernel⟩
  · exact ⟨_, rfl, by decide +kernel, by decide +kernel⟩

end Approvals
end Pipelines
end CatFactory
