import CatFactory.Foundation.Runs
import CatFactory.Initiative.Facts
import CatFactory.Initiative.Service

/-!
# Progress of a plan

A plan makes progress when every unsettled item sits in a declared phase,
waits for no unsettled item of a later phase, and the waiting has no cycle.
This module states that condition, shows which operations keep it and what
each of the others has to be given, and concludes that an executing
initiative always has something running, blocked or ready.
-/

namespace CatFactory
namespace Initiatives

open Foundation

variable {phaseIds : List String} {item : InitiativeItem} {items : List InitiativeItem}
  {f : InitiativeItem -> InitiativeItem} {draft : InitiativePlanDraft} {initiative : Initiative}

/-!
## Sound plans
-/

/-- The items that are not yet done or skipped. -/
def openItems (items : List InitiativeItem) : List InitiativeItem :=
  items.filter fun i => !i.status.isTerminal

/-- The unsettled items that a list of dependencies waits for. -/
def waitsFor (items : List InitiativeItem) (dependsOn : List String) :
    List InitiativeItem :=
  (openItems items).filter fun d => d.id ∈ dependsOn

/-- The phase is declared and nothing waited for lies in a later one. -/
def FitsPhases (phaseIds : List String) (items : List InitiativeItem)
    (phaseId : String) (dependsOn : List String) : Prop :=
  phaseId ∈ phaseIds ∧
    forall d, d ∈ waitsFor items dependsOn ->
      phaseIds.idxOf d.phaseId ≤ phaseIds.idxOf phaseId

instance (phaseIds : List String) (items : List InitiativeItem) (phaseId : String)
    (dependsOn : List String) :
    Decidable (FitsPhases phaseIds items phaseId dependsOn) :=
  inferInstanceAs (Decidable (_ ∧ _))

structure PlanSound (phaseIds : List String) (items : List InitiativeItem) : Prop where
  distinct : (items.map InitiativeItem.id).Nodup
  named : forall item, item ∈ items -> item.id ≠ ""
  fits : forall item, item ∈ openItems items ->
    FitsPhases phaseIds items item.phaseId item.dependsOn
  ranked : exists rank : String -> Nat,
    RanksOn (fun item => waitsFor items item.dependsOn) (openItems items)
      fun item => rank item.id

/-- A sound plan of the entity itself. -/
def Initiative.Sound (initiative : Initiative) : Prop :=
  PlanSound (initiative.phases.map InitiativePhase.id) initiative.items

variable {result : Initiative}

theorem mem_openItems :
    item ∈ openItems items <-> item ∈ items ∧ item.status.isTerminal = false := by
  simp [openItems]

theorem mem_waitsFor {dependsOn : List String} {d : InitiativeItem} :
    d ∈ waitsFor items dependsOn <->
      (d ∈ items ∧ d.status.isTerminal = false) ∧ d.id ∈ dependsOn := by
  simp [waitsFor, mem_openItems]

/-!
## A sound plan has something to do
-/

theorem deriveCurrentPhase_some {phase : InitiativePhase}
    (h : deriveCurrentPhase initiative = some phase) :
    exists item, item ∈ openItems initiative.items ∧ item.phaseId = phase.id := by
  have hopen := List.find?_some h
  simp only [List.any_eq_true, Bool.and_eq_true, decide_eq_true_eq, Bool.not_eq_true'] at hopen
  rcases hopen with ⟨item, hmem, hphase, hstatus⟩
  exact ⟨item, mem_openItems.mpr ⟨hmem, hstatus⟩, hphase⟩

/-- An open item of a declared phase leaves some phase current, and the current
phase comes no later than the item's own. -/
theorem deriveCurrentPhase_of_open (hopen : item ∈ openItems initiative.items)
    (hphase : item.phaseId ∈ initiative.phases.map InitiativePhase.id) :
    exists phase, deriveCurrentPhase initiative = some phase ∧
      (initiative.phases.map InitiativePhase.id).idxOf phase.id ≤
        (initiative.phases.map InitiativePhase.id).idxOf item.phaseId := by
  rcases mem_openItems.mp hopen with ⟨hmem, hstatus⟩
  unfold deriveCurrentPhase
  generalize initiative.phases = phases at hphase ⊢
  induction phases with
  | nil => cases hphase
  | cons first rest ih =>
      by_cases hfirst : first.id = item.phaseId
      · refine ⟨first, ?_, by simp [hfirst]⟩
        apply List.find?_cons_of_pos
        simp only [List.any_eq_true]
        exact ⟨item, hmem, by simp [hfirst, hstatus]⟩
      · have hrest : item.phaseId ∈ rest.map InitiativePhase.id := by
          rcases List.mem_cons.mp hphase with heq | hrest
          · exact absurd heq.symm hfirst
          · exact hrest
        rw [List.find?_cons]
        split
        · exact ⟨first, rfl, by simp⟩
        · rename_i hclosed
          rcases ih hrest with ⟨phase, hfind, hle⟩
          refine ⟨phase, hfind, ?_⟩
          have hne : first.id ≠ phase.id := by
            intro heq
            have hphaseOpen := List.find?_some hfind
            rw [← heq] at hphaseOpen
            rw [hphaseOpen] at hclosed
            cases hclosed
          simp only [List.map_cons]
          rw [List.idxOf_cons_ne _ hne, List.idxOf_cons_ne _ hfirst]
          exact Nat.succ_le_succ hle

/-- What keeps an executing initiative moving. -/
def MakesProgress (initiative : Initiative) : Prop :=
  (exists item, item ∈ initiative.items ∧ item.status.isActive = true) ∨
    (exists phase, deriveCurrentPhase initiative = some phase ∧
      phaseIsHalted initiative phase.id = true) ∨
    pendingCheckpoint initiative ≠ none ∨
    eligibleItemsToSpawn initiative ≠ []

theorem itemDependenciesMet_of_waitsFor (h : waitsFor initiative.items item.dependsOn = []) :
    itemDependenciesMet initiative item = true := by
  unfold itemDependenciesMet
  rw [List.all_eq_true]
  intro dep hdep
  split
  · rfl
  · rename_i d hfind
    rcases byId_some hfind with ⟨hmem, hid⟩
    cases hstatus : d.status.isTerminal with
    | true => rfl
    | false =>
        have hwait : d ∈ waitsFor initiative.items item.dependsOn :=
          mem_waitsFor.mpr ⟨⟨hmem, hstatus⟩, hid ▸ hdep⟩
        rw [h] at hwait
        cases hwait

theorem status_cases (status : InitiativeItemStatus) :
    status.isTerminal = true ∨ status.isActive = true ∨ status = .blocked ∨
      status = .pending := by
  cases status <;> decide

theorem Initiative.Sound.makesProgress (h : initiative.Sound)
    (hopen : openItems initiative.items ≠ []) : MakesProgress initiative := by
  unfold MakesProgress
  by_cases hactive : exists item, item ∈ initiative.items ∧ item.status.isActive = true
  · exact Or.inl hactive
  rcases List.exists_mem_of_ne_nil _ hopen with ⟨some₀, hsome⟩
  rcases deriveCurrentPhase_of_open hsome (h.fits some₀ hsome).left with
    ⟨phase, hphase, _⟩
  by_cases hhalted : phaseIsHalted initiative phase.id = true
  · exact Or.inr (Or.inl ⟨phase, hphase, hhalted⟩)
  -- the current phase holds open items only as pending ones, and one of them is ready
  have hpending : forall item, item ∈ openItems initiative.items ->
      item.phaseId = phase.id -> item.status = .pending := by
    intro item hitem hin
    rcases mem_openItems.mp hitem with ⟨hmem, hunsettled⟩
    rcases status_cases item.status with hterminal | hrunning | hblocked | hpend
    · rw [hunsettled] at hterminal
      cases hterminal
    · exact absurd ⟨item, hmem, hrunning⟩ hactive
    · apply absurd _ hhalted
      simp only [phaseIsHalted, List.any_eq_true]
      exact ⟨item, hmem, by simp [hin, hblocked]⟩
    · exact hpend
  rcases h.ranked with ⟨rank, hrank⟩
  let here := (openItems initiative.items).filter fun i => i.phaseId = phase.id
  have hhere : here ≠ [] := by
    rcases deriveCurrentPhase_some hphase with ⟨item, hitem, hin⟩
    exact List.ne_nil_of_mem (List.mem_filter.mpr ⟨hitem, by simpa using hin⟩)
  have hranksHere : RanksOn (fun item => waitsFor initiative.items item.dependsOn) here
      fun item => rank item.id :=
    fun item hitem => hrank item (List.mem_of_mem_filter hitem)
  rcases hranksHere.exists_ready hhere with ⟨item, hitem, hready⟩
  rcases List.mem_filter.mp hitem with ⟨hitemOpen, hin⟩
  have hin : item.phaseId = phase.id := by simpa using hin
  have hwaits : waitsFor initiative.items item.dependsOn = [] := by
    apply List.eq_nil_iff_forall_not_mem.mpr
    intro d hd
    -- what it waits for is open, so it lies neither before the current phase nor after
    have hdOpen : d ∈ openItems initiative.items := List.mem_of_mem_filter hd
    have hlater := (h.fits item hitemOpen).right d hd
    rcases deriveCurrentPhase_of_open hdOpen (h.fits d hdOpen).left with
      ⟨phase', hphase', hle⟩
    rw [hphase] at hphase'
    cases hphase'
    rw [hin] at hlater
    have heq : (initiative.phases.map InitiativePhase.id).idxOf d.phaseId =
        (initiative.phases.map InitiativePhase.id).idxOf phase.id :=
      Nat.le_antisymm hlater hle
    have hsame : d.phaseId = phase.id :=
      (List.idxOf_inj (h.fits d hdOpen).left).mp heq
    exact hready d hd (List.mem_filter.mpr ⟨hdOpen, by simpa using hsame⟩)
  apply Or.inr
  apply Or.inr
  apply Or.inr
  unfold eligibleItemsToSpawn
  rw [hphase]
  simp only [hhalted, Bool.false_eq_true, if_false]
  apply List.ne_nil_of_mem (a := item)
  apply List.mem_filter.mpr
  refine ⟨(mem_openItems.mp hitemOpen).left, ?_⟩
  simp [hin, hpending item hitemOpen hin, itemDependenciesMet_of_waitsFor hwaits]

/-!
## Changes that keep every item's plan

Claims, reconciliation, notes and skips rewrite items one by one and never
unsettle one.
-/

structure KeepsPlan (items : List InitiativeItem)
    (f : InitiativeItem -> InitiativeItem) : Prop where
  id : forall x, x ∈ items -> (f x).id = x.id
  phaseId : forall x, x ∈ items -> (f x).phaseId = x.phaseId
  settled : forall x, x ∈ items -> x.status.isTerminal = true ->
    (f x).status.isTerminal = true

theorem KeepsPlan.ids (h : KeepsPlan items f) :
    (items.map f).map InitiativeItem.id = items.map InitiativeItem.id := by
  rw [List.map_map]
  exact List.map_congr_left fun x hx => h.id x hx

theorem KeepsPlan.open (h : KeepsPlan items f) {y : InitiativeItem}
    (hy : y ∈ openItems (items.map f)) : exists x, x ∈ openItems items ∧ f x = y := by
  rcases mem_openItems.mp hy with ⟨hmem, hstatus⟩
  rcases List.mem_map.mp hmem with ⟨x, hx, rfl⟩
  refine ⟨x, mem_openItems.mpr ⟨hx, ?_⟩, rfl⟩
  cases hterminal : x.status.isTerminal with
  | false => rfl
  | true =>
      rw [h.settled x hx hterminal] at hstatus
      cases hstatus

theorem KeepsPlan.waitsFor (h : KeepsPlan items f) {dependsOn : List String} {d : InitiativeItem}
    (hd : d ∈ waitsFor (items.map f) dependsOn) :
    exists x, x ∈ Initiatives.waitsFor items dependsOn ∧ x.id = d.id ∧
      x.phaseId = d.phaseId := by
  rcases List.mem_filter.mp hd with ⟨hopen, hid⟩
  rcases h.open hopen with ⟨x, hx, rfl⟩
  have hmem := (mem_openItems.mp hx).left
  rw [h.id x hmem] at hid
  exact ⟨x, List.mem_filter.mpr ⟨hx, hid⟩, (h.id x hmem).symm, (h.phaseId x hmem).symm⟩

theorem KeepsPlan.fits (h : KeepsPlan items f) {phaseId : String} {dependsOn : List String}
    (hfits : FitsPhases phaseIds items phaseId dependsOn) :
    FitsPhases phaseIds (items.map f) phaseId dependsOn := by
  refine ⟨hfits.left, ?_⟩
  intro d hd
  rcases h.waitsFor hd with ⟨x, hx, _, hphase⟩
  exact hphase ▸ hfits.right x hx

theorem PlanSound.map (h : PlanSound phaseIds items) (hf : KeepsPlan items f)
    (hdeps : forall x, x ∈ items -> (f x).dependsOn = x.dependsOn) :
    PlanSound phaseIds (items.map f) where
  distinct := hf.ids ▸ h.distinct
  named := by
    intro y hy
    rcases List.mem_map.mp hy with ⟨x, hx, rfl⟩
    exact hf.id x hx ▸ h.named x hx
  fits := by
    intro y hy
    rcases hf.open hy with ⟨x, hx, rfl⟩
    have hmem := (mem_openItems.mp hx).left
    rw [hf.phaseId x hmem, hdeps x hmem]
    exact hf.fits (h.fits x hx)
  ranked := by
    rcases h.ranked with ⟨rank, hrank⟩
    refine ⟨rank, ?_⟩
    intro y hy d hd
    rcases hf.open hy with ⟨x, hx, rfl⟩
    have hmem := (mem_openItems.mp hx).left
    change d ∈ waitsFor (items.map f) (f x).dependsOn at hd
    rw [hdeps x hmem] at hd
    rcases hf.waitsFor hd with ⟨e, he, hid, _⟩
    have hlt : rank e.id < rank x.id := hrank x hx e he
    rw [hid, ← hf.id x hmem] at hlt
    exact hlt

/-!
## Changes to the dependencies

A re-scoped item is checked for cycles, a promoted one is new to the plan.
-/

theorem itemEdges_of_mem (hdistinct : (items.map InitiativeItem.id).Nodup) (hmem : item ∈ items) :
    itemEdges (items.map fun i => (i.id, i.dependsOn)) item.id = item.dependsOn := by
  have hkeys : ((items.map fun i => (i.id, i.dependsOn)).map Prod.fst).Nodup := by
    rw [List.map_map]
    exact hdistinct
  have hpair : (item.id, item.dependsOn) ∈ items.map fun i => (i.id, i.dependsOn) :=
    List.mem_map.mpr ⟨item, hmem, rfl⟩
  have hfind := byId_of_mem hkeys hpair
  unfold itemEdges
  rw [hfind]
  rfl

theorem ranked_of_acyclic (hdistinct : (items.map InitiativeItem.id).Nodup)
    (hnamed : forall item, item ∈ items -> item.id ≠ "")
    (h : assertAcyclicItems (items.map fun i => (i.id, i.dependsOn)) = .ok ()) :
    exists rank : String -> Nat,
      RanksOn (fun item => waitsFor items item.dependsOn) (openItems items)
        fun item => rank item.id := by
  rcases assertAcyclicItems_sound h with ⟨rank, hrank⟩
  refine ⟨rank, ?_⟩
  intro item hitem d hd
  have hmem := (mem_openItems.mp hitem).left
  apply hrank item.id
  · rw [List.map_map]
    apply List.mem_filter.mpr
    exact ⟨List.mem_map.mpr ⟨item, hmem, rfl⟩, by simpa using hnamed item hmem⟩
  · rw [itemEdges_of_mem hdistinct hmem]
    exact (mem_waitsFor.mp hd).right

theorem PlanSound.rescope (h : PlanSound phaseIds items) (hf : KeepsPlan items f)
    (hfits : forall x, x ∈ openItems items -> (f x).status.isTerminal = false ->
    FitsPhases phaseIds items x.phaseId (f x).dependsOn) (hacyclic : assertAcyclicItems
    ((items.map f).map fun i => (i.id, i.dependsOn)) = .ok ()) :
    PlanSound phaseIds (items.map f) := by
  have hdistinct : ((items.map f).map InitiativeItem.id).Nodup := hf.ids ▸ h.distinct
  have hnamed : forall y, y ∈ items.map f -> y.id ≠ "" := by
    intro y hy
    rcases List.mem_map.mp hy with ⟨x, hx, rfl⟩
    exact hf.id x hx ▸ h.named x hx
  refine ⟨hdistinct, hnamed, ?_, ranked_of_acyclic hdistinct hnamed hacyclic⟩
  intro y hy
  have hstatus := (mem_openItems.mp hy).right
  rcases hf.open hy with ⟨x, hx, rfl⟩
  rw [hf.phaseId x (mem_openItems.mp hx).left]
  exact hf.fits (hfits x hx hstatus)

theorem waitsFor_append (items : List InitiativeItem) (new : InitiativeItem)
    (dependsOn : List String) (hnew : new.id ∉ dependsOn) :
    waitsFor (items ++ [new]) dependsOn = waitsFor items dependsOn := by
  unfold waitsFor openItems
  rw [List.filter_append, List.filter_append]
  cases hstatus : new.status.isTerminal <;> simp [hstatus, hnew]

theorem PlanSound.promote (h : PlanSound phaseIds items) {new : InitiativeItem}
    (hfresh : new.id ∉ items.map InitiativeItem.id) (hnamed : new.id ≠ "")
    (hself : new.id ∉ new.dependsOn) (hfits : FitsPhases phaseIds items new.phaseId new.dependsOn)
    (hunwaited : forall item, item ∈ openItems items -> new.id ∉ item.dependsOn) :
    PlanSound phaseIds (items ++ [new]) := by
  -- nobody waits for the new item, so the old waiting is unchanged
  have hopen : forall item, item ∈ openItems (items ++ [new]) ->
      item ∈ openItems items ∨ item = new := by
    intro item hitem
    rcases mem_openItems.mp hitem with ⟨hmem, hstatus⟩
    rcases List.mem_append.mp hmem with hold | hnew
    · exact Or.inl (mem_openItems.mpr ⟨hold, hstatus⟩)
    · exact Or.inr (by simpa using hnew)
  have hnot : forall item, item ∈ openItems (items ++ [new]) ->
      new.id ∉ item.dependsOn := by
    intro item hitem
    rcases hopen item hitem with hold | rfl
    · exact hunwaited item hold
    · exact hself
  rcases h.ranked with ⟨rank, hrank⟩
  rcases exists_rank_bound (fun item => rank item.id) items with ⟨bound, hbound⟩
  constructor
  · rw [List.map_append, List.nodup_append]
    refine ⟨h.distinct, by simp, ?_⟩
    intro a ha b hb
    have hb : b = new.id := by simpa using hb
    exact fun heq => hfresh (hb ▸ heq ▸ ha)
  · intro item hitem
    rcases List.mem_append.mp hitem with hold | hnew
    · exact h.named item hold
    · have heq : item = new := by simpa using hnew
      exact heq ▸ hnamed
  · intro item hitem
    unfold FitsPhases
    rw [waitsFor_append _ _ _ (hnot item hitem)]
    rcases hopen item hitem with hold | rfl
    · exact h.fits item hold
    · exact hfits
  · refine ⟨fun id => if id = new.id then bound + 1 else rank id, ?_⟩
    intro item hitem d hd
    change d ∈ waitsFor (items ++ [new]) item.dependsOn at hd
    rw [waitsFor_append _ _ _ (hnot item hitem)] at hd
    have hdMem := (mem_waitsFor.mp hd).left.left
    have hdNe : d.id ≠ new.id := fun heq =>
      hfresh (heq ▸ List.mem_map.mpr ⟨d, hdMem, rfl⟩)
    simp only [hdNe, if_false]
    rcases hopen item hitem with hold | rfl
    · have hne : item.id ≠ new.id := fun heq =>
        hfresh (heq ▸ List.mem_map.mpr ⟨item, (mem_openItems.mp hold).left, rfl⟩)
      simp only [hne, if_false]
      exact hrank item hold d hd
    · simp only [if_true]
      exact Nat.lt_succ_of_le (hbound d hdMem)

/-!
## Folding a draft

The draft's own items reference each other by explicit identifiers only, so a
carried-over item may wait for them but never the other way round.
-/

/-- Every item names a phase that the plan will have, and no dependency names
an item of a later one. -/
def DraftFits (draft : InitiativePlanDraft) : Prop :=
  forall d, d ∈ draft.items ->
    d.phaseId.val ∈ draftPhaseIds draft ∧
      forall e, e ∈ draft.items -> forall id, id ∈ e.id -> id.val ∈ d.dependsOn ->
        (draftPhaseIds draft).idxOf e.phaseId.val ≤
          (draftPhaseIds draft).idxOf d.phaseId.val

instance (draft : InitiativePlanDraft) : Decidable (DraftFits draft) := by
  unfold DraftFits
  infer_instance

theorem dependency_of_valid (h : DraftValid draft) {d : InitiativeDraftItem}
    (hd : d ∈ draft.items) {dep : String}
    (hdep : dep ∈ d.dependsOn) : dependencyError draft d dep = none := by
  have hreference := h.references d hd
  unfold referenceError at hreference
  simp only at hreference
  split at hreference
  · cases hreference
  · exact List.findSome?_eq_none_iff.mp hreference dep hdep

theorem explicit_of_mem {e : InitiativeDraftItem} (he : e ∈ draft.items) {id : String}
    (hid : e.id.map Subtype.val = some id) :
    id ∈ explicitIds draft.itemKeys := by
  simp only [explicitIds, InitiativePlanDraft.itemKeys, List.mem_filterMap, List.mem_map]
  exact ⟨(e.id, e.title), ⟨e, he, rfl⟩, hid⟩

theorem explicit_of_dependency (h : DraftValid draft) {d : InitiativeDraftItem}
    (hd : d ∈ draft.items) {dep : String}
    (hdep : dep ∈ d.dependsOn) : dep ∈ explicitIds draft.itemKeys := by
  have hknown := dependency_of_valid h hd hdep
  unfold dependencyError at hknown
  split at hknown
  · cases hknown
  · rename_i depPhaseId hphase
    unfold InitiativePlanDraft.itemPhase at hphase
    rcases Option.map_eq_some_iff.mp hphase with ⟨e, hfind, _⟩
    have hid := List.find?_some hfind
    exact explicit_of_mem (List.mem_of_find?_eq_some hfind) (by simpa using hid)

/-- Items under one explicit identifier are one item. -/
theorem explicit_unique (h : DraftValid draft) {d e : InitiativeDraftItem} (hd : d ∈ draft.items)
    (he : e ∈ draft.items) {id : String} (hdId : d.id.map Subtype.val = some id)
    (heId : e.id.map Subtype.val = some id) : d = e := by
  have hdistinct := h.itemIds
  unfold explicitIds InitiativePlanDraft.itemKeys at hdistinct
  rw [List.filterMap_map] at hdistinct
  exact eq_of_filterMap_eq hdistinct hd he hdId heId

/-- With an explicit phase identifier in the draft, validation does the work. -/
theorem draftFits_of_valid (h : DraftValid draft)
    (hexplicit : explicitIds draft.phaseKeys ≠ []) : DraftFits draft := by
  have hphase : forall d, d ∈ draft.items ->
      d.phaseId.val ∈ explicitIds draft.phaseKeys := by
    intro d hd
    have hreference := h.references d hd
    unfold referenceError at hreference
    simp only at hreference
    split at hreference
    · cases hreference
    · rename_i hknown
      by_contra hunknown
      exact hknown ⟨hexplicit, hunknown⟩
  have hindex : forall d, d ∈ draft.items ->
      draft.phaseOrder d.phaseId.val =
        some ((draftPhaseIds draft).idxOf d.phaseId.val) := by
    intro d hd
    have hmem := hphase d hd
    cases hk : draft.phaseOrder d.phaseId.val with
    | none =>
        have hnone := List.findIdx?_eq_none_iff.mp hk
        simp only [explicitIds, InitiativePlanDraft.phaseKeys, List.mem_filterMap,
          List.mem_map] at hmem
        rcases hmem with ⟨q, ⟨p, hp, rfl⟩, hid⟩
        have hfalse := hnone p hp
        simp [hid] at hfalse
    | some k =>
        have hkeys : draft.phaseKeys.findIdx?
            (fun p => p.1.map Subtype.val = some d.phaseId.val) = some k := by
          unfold InitiativePlanDraft.phaseKeys
          rw [List.findIdx?_map]
          exact hk
        rw [draftPhaseIds, idxOf_assignIds hmem hkeys]
  intro d hd
  refine ⟨explicit_mem_assignIds (hphase d hd), ?_⟩
  intro e he id hid hdep
  have hknown := dependency_of_valid h hd hdep
  have heId : e.id.map Subtype.val = some id.val := by
    have hsome : e.id = some id := by simpa using hid
    rw [hsome]
    rfl
  have hitem : draft.itemPhase id.val = some e.phaseId := by
    unfold InitiativePlanDraft.itemPhase
    cases hfind : draft.items.find? (fun d => d.id.map Subtype.val = some id.val) with
    | none =>
        have hnone := List.find?_eq_none.mp hfind e he
        simp [heId] at hnone
    | some x =>
        have hxId := List.find?_some hfind
        have hx := List.mem_of_find?_eq_some hfind
        rw [explicit_unique h hx he (by simpa using hxId) heId]
        rfl
  unfold dependencyError at hknown
  rw [hitem] at hknown
  simp only [hindex d hd, hindex e he] at hknown
  split at hknown
  · cases hknown
  · rename_i hle
    exact Nat.le_of_not_lt hle

/-- The rank of a folded plan: explicit draft items by the draft's own search,
then the draft items nobody can name, then the carried-over ones. -/
def foldedRank (draft : InitiativePlanDraft) (draftRank oldRank : String -> Nat)
    (bound : Nat) (id : String) : Nat :=
  if id ∈ explicitIds draft.itemKeys then draftRank id
  else if id ∈ draftItemIds draft then bound + 1
  else bound + 2 + oldRank id

theorem draft_ranked (h : DraftValid draft) :
    exists rank : String -> Nat, forall d, d ∈ draft.items ->
      forall id, d.id.map Subtype.val = some id -> forall dep, dep ∈ d.dependsOn ->
        rank dep < rank id := by
  rcases assertAcyclicItems_sound h.acyclic with ⟨rank, hrank⟩
  refine ⟨rank, ?_⟩
  intro d hd id hid dep hdep
  rcases Option.map_eq_some_iff.mp hid with ⟨key, hkey, rfl⟩
  have hne : key.val ≠ "" := key.property
  have hpair : (key.val, d.dependsOn) ∈ draft.items.map fun d =>
      ((d.id.map Subtype.val).getD "", d.dependsOn) :=
    List.mem_map.mpr ⟨d, hd, by simp [hkey]⟩
  have honly : forall y, (y ∈ draft.items.map fun d =>
      ((d.id.map Subtype.val).getD "", d.dependsOn)) ->
      y.1 = key.val -> y = (key.val, d.dependsOn) := by
    intro y hy hyKey
    rcases List.mem_map.mp hy with ⟨e, he, rfl⟩
    cases hcase : e.id with
    | none =>
        rw [hcase] at hyKey
        exact absurd hyKey.symm hne
    | some x =>
        rw [hcase] at hyKey
        have heId : e.id.map Subtype.val = some key.val := by
          rw [hcase]
          exact congrArg some hyKey
        rw [explicit_unique h he hd heId hid]
        exact Prod.ext hyKey rfl
  have hfind : byId Prod.fst (draft.items.map fun d =>
      ((d.id.map Subtype.val).getD "", d.dependsOn)) key.val =
        some (key.val, d.dependsOn) :=
    byId_eq_some hpair honly
  apply hrank key.val
  · apply List.mem_filter.mpr
    exact ⟨List.mem_map.mpr ⟨_, hpair, rfl⟩, by simpa using hne⟩
  · unfold itemEdges
    rw [hfind]
    exact hdep

theorem planSound_of_draft (hsound : initiative.Sound) (hvalid : DraftValid draft)
    (hdraft : DraftFits draft)
    (hcarried : forall c, c ∈ openItems (preserved initiative draft) ->
      FitsPhases (draftPhaseIds draft)
        (draftItems initiative draft ++ preserved initiative draft)
        c.phaseId c.dependsOn) :
    PlanSound (draftPhaseIds draft)
      (draftItems initiative draft ++ preserved initiative draft) := by
  have hexplicit : forall id, id ∈ explicitIds draft.itemKeys -> id ∈ draftItemIds draft :=
    fun id hid => explicit_mem_assignIds hid
  rcases draft_ranked hvalid with ⟨draftRank, hdraftRank⟩
  rcases exists_rank_bound draftRank (explicitIds draft.itemKeys) with ⟨bound, hbound⟩
  rcases hsound.ranked with ⟨oldRank, holdRank⟩
  constructor
  · rw [List.map_append, draftItems_ids, List.nodup_append]
    refine ⟨assignIds_nodup hvalid.itemIds fun _ hx => hx, ?_, ?_⟩
    · exact hsound.distinct.sublist (List.filter_sublist.map _)
    · intro a ha b hb heq
      rcases List.mem_map.mp hb with ⟨item, hitem, rfl⟩
      exact (mem_preserved hitem).right (heq ▸ ha)
  · intro item hitem
    rcases List.mem_append.mp hitem with hnew | hold
    · rcases mem_draftItems hnew with ⟨_, _, _, hid, _⟩
      exact assignIds_ne_empty hid
    · exact hsound.named item (mem_preserved hold).left
  · intro item hitem
    rcases mem_openItems.mp hitem with ⟨hmem, hstatus⟩
    rcases List.mem_append.mp hmem with hnew | hold
    · rcases mem_draftItems hnew with ⟨d, hd, heq, _, _⟩
      have hphase : item.phaseId = d.phaseId.val := by rw [heq]; rfl
      have hdeps : item.dependsOn = d.dependsOn := by rw [heq]; rfl
      rw [hphase, hdeps]
      refine ⟨(hdraft d hd).left, ?_⟩
      intro e he
      rcases mem_waitsFor.mp he with ⟨⟨heMem, _⟩, hdep⟩
      have hknown := explicit_of_dependency hvalid hd hdep
      rcases List.mem_append.mp heMem with heNew | heOld
      · rcases mem_draftItems heNew with ⟨d', hd', heq', _, hkey⟩
        have hphase' : e.phaseId = d'.phaseId.val := by rw [heq']; rfl
        rw [hphase']
        rcases hkey with hkey | hfree
        · rcases Option.map_eq_some_iff.mp hkey with ⟨id, hid, hval⟩
          exact (hdraft d hd).right d' hd' id hid (hval ▸ hdep)
        · exact absurd hknown hfree
      · exact absurd (hexplicit _ hknown) (mem_preserved heOld).right
    · exact hcarried item (mem_openItems.mpr ⟨hold, hstatus⟩)
  · refine ⟨foldedRank draft draftRank oldRank bound, ?_⟩
    intro item hitem e he
    rcases mem_openItems.mp hitem with ⟨hmem, hstatus⟩
    rcases mem_waitsFor.mp he with ⟨⟨heMem, heStatus⟩, hdep⟩
    rcases List.mem_append.mp hmem with hnew | hold
    · rcases mem_draftItems hnew with ⟨d, hd, heq, hid, hkey⟩
      have hdeps : item.dependsOn = d.dependsOn := by rw [heq]; rfl
      rw [hdeps] at hdep
      have hknown := explicit_of_dependency hvalid hd hdep
      by_cases hnamed : item.id ∈ explicitIds draft.itemKeys
      · rcases hkey with hkey | hfree
        · simp only [foldedRank, hknown, hnamed, if_true]
          exact hdraftRank d hd item.id hkey e.id hdep
        · exact absurd hnamed hfree
      · simp only [foldedRank, hknown, hnamed, hid, if_true, if_false]
        exact Nat.lt_succ_of_le (hbound _ hknown)
    · rcases mem_preserved hold with ⟨holdMem, hnotDraft⟩
      have hnotNamed : item.id ∉ explicitIds draft.itemKeys := fun h =>
        hnotDraft (hexplicit _ h)
      rcases List.mem_append.mp heMem with heNew | heOld
      · rcases mem_draftItems heNew with ⟨_, _, _, heId, _⟩
        simp only [foldedRank, hnotNamed, hnotDraft, heId, if_true, if_false]
        split
        · rename_i hknown
          have hle := hbound _ hknown
          omega
        · omega
      · rcases mem_preserved heOld with ⟨heOldMem, heNotDraft⟩
        have heNotNamed : e.id ∉ explicitIds draft.itemKeys := fun h =>
          heNotDraft (hexplicit _ h)
        simp only [foldedRank, hnotNamed, hnotDraft, heNotNamed, heNotDraft, if_false]
        have hlt : oldRank e.id < oldRank item.id :=
          holdRank item (mem_openItems.mpr ⟨holdMem, hstatus⟩) e
            (mem_waitsFor.mpr ⟨⟨heOldMem, heStatus⟩, hdep⟩)
        omega

/-!
## Steps of an initiative

The pure operations, in any order.  An operation that throws is no step.
-/

inductive InitiativeStep where
  | edit (now : Nat) (op : Edit)
  | spawnClaim (itemId spawnedBlockId : String)
  | reconcile (itemId : String) (block : Option TaskBlock)
  | checkpointCleared (phaseId : String) (now : Nat)
deriving DecidableEq

def reconcileOne (initiative : Initiative) (itemId : String) (block : Option TaskBlock) :
    Initiative :=
  { initiative with
    items := initiative.items.map fun i =>
      if i.id = itemId then reconcileItem i block else i }

def initiativeStep (initiative : Initiative) : InitiativeStep -> Option Initiative
  | .edit now op => (op.transform now initiative).toOption
  | .spawnClaim itemId blockId => some (applySpawnClaim initiative itemId blockId)
  | .reconcile itemId block => some (reconcileOne initiative itemId block)
  | .checkpointCleared phaseId now => some (applyCheckpointCleared initiative phaseId now)

/-- A draft fits when it names its phases, or else uses their derived names
correctly, and the items it leaves out still fit the new phases. -/
def PlanFits (initiative : Initiative) (draft : InitiativePlanDraft) : Prop :=
  (explicitIds draft.phaseKeys ≠ [] ∨ DraftFits draft) ∧
    forall c, c ∈ openItems (preserved initiative draft) ->
      FitsPhases (draftPhaseIds draft)
        (draftItems initiative draft ++ preserved initiative draft)
        c.phaseId c.dependsOn

/-- A promoted item waits for nothing in a later phase, and no item already
waits for an item of its name. -/
def PromotionFits (initiative : Initiative) (followUpId : String)
    (input : PromoteInitiativeFollowUpInput) : Prop :=
  forall followUp, followUp ∈ (initiative.followUps.find? fun f => f.id = followUpId) ->
    followUp.status = .open ->
      FitsPhases (initiative.phases.map InitiativePhase.id) initiative.items
        input.phaseId (input.dependsOn.getD []) ∧
      forall item, item ∈ openItems initiative.items ->
        promotedItemId initiative followUp input ∉ item.dependsOn

/-- A re-scoped item that stays open waits for nothing in a later phase. -/
def EditFits (initiative : Initiative) (itemId : String)
    (input : UpdateInitiativeItemInput) : Prop :=
  forall deps, deps ∈ input.dependsOn -> input.action ≠ some .skip ->
    forall item, item ∈ initiative.items -> item.id = itemId ->
      FitsPhases (initiative.phases.map InitiativePhase.id) initiative.items
        item.phaseId deps

def StepFits (initiative : Initiative) : InitiativeStep -> Prop
  | .edit _ (.ingestPlan draft) => PlanFits initiative draft
  | .edit _ (.promoteFollowUp followUpId input) => PromotionFits initiative followUpId input
  | .edit _ (.updateItem itemId input) => EditFits initiative itemId input
  | _ => True

instance (initiative : Initiative) (draft : InitiativePlanDraft) :
    Decidable (PlanFits initiative draft) :=
  inferInstanceAs (Decidable (_ ∧ _))

instance (initiative : Initiative) (followUpId : String)
    (input : PromoteInitiativeFollowUpInput) :
    Decidable (PromotionFits initiative followUpId input) := by
  unfold PromotionFits
  infer_instance

instance (initiative : Initiative) (itemId : String) (input : UpdateInitiativeItemInput) :
    Decidable (EditFits initiative itemId input) := by
  unfold EditFits
  infer_instance

instance (initiative : Initiative) (a : InitiativeStep) :
    Decidable (StepFits initiative a) := by
  cases a with
  | edit now op => cases op <;> unfold StepFits <;> infer_instance
  | spawnClaim itemId blockId => exact isTrue trivial
  | reconcile itemId block => exact isTrue trivial
  | checkpointCleared phaseId now => exact isTrue trivial

/-!
## Every step keeps a sound plan sound
-/

theorem sound_of_items (h : initiative.Sound) (hphases : result.phases.map InitiativePhase.id =
    initiative.phases.map InitiativePhase.id) (hitems : result.items = initiative.items.map f)
    (hf : KeepsPlan initiative.items f)
    (hdeps : forall x, x ∈ initiative.items -> (f x).dependsOn = x.dependsOn) :
    result.Sound := by
  unfold Initiative.Sound
  rw [hphases, hitems]
  exact PlanSound.map h hf hdeps

theorem sound_of_same (h : initiative.Sound) (hphases : result.phases.map InitiativePhase.id =
    initiative.phases.map InitiativePhase.id)
    (hitems : result.items = initiative.items) : result.Sound := by
  unfold Initiative.Sound
  rw [hphases, hitems]
  exact h

theorem checkpointCleared_ids (initiative : Initiative) (phaseId : String) (now : Nat) :
    (applyCheckpointCleared initiative phaseId now).phases.map InitiativePhase.id =
      initiative.phases.map InitiativePhase.id := by
  unfold applyCheckpointCleared
  simp only [List.map_map]
  apply List.map_congr_left
  intro p _
  simp only [Function.comp_apply]
  split <;> rfl

theorem resume_sound (h : initiative.Sound) (now : Nat) :
    (resume initiative now).Sound := by
  unfold resume
  split
  · exact h
  · split
    · exact sound_of_same h (checkpointCleared_ids initiative _ now) rfl
    · exact h

theorem ingestPlan_sound {now : Nat} (h : initiative.Sound) (hfits : PlanFits initiative draft)
    (hok : ingestPlan initiative draft now = .ok result) : result.Sound := by
  unfold ingestPlan at hok
  split at hok
  · cases hok
  · rename_i hvalid
    cases hok
    have hvalid := draftValid_of_validatePlanDraft hvalid
    have hdraft : DraftFits draft := by
      rcases hfits.left with hexplicit | hdraft
      · exact draftFits_of_valid hvalid hexplicit
      · exact hdraft
    unfold Initiative.Sound applyPlanDraft
    simp only [draftPhases_ids]
    exact planSound_of_draft h hvalid hdraft hfits.right

theorem promoteFollowUp_sound {followUpId : String} {input : PromoteInitiativeFollowUpInput}
    (h : initiative.Sound) (hfits : PromotionFits initiative followUpId input)
    (hok : applyPromoteFollowUp initiative followUpId input = .ok result) :
    result.Sound := by
  rcases applyPromoteFollowUp_ok hok with ⟨_, followUp, hfind, ⟨_, rfl⟩ | ⟨hopen, _, rfl⟩⟩
  · exact h
  · rcases hfits followUp (by simpa using hfind) hopen with ⟨hphases, hunwaited⟩
    have hdeps := applyPromoteFollowUp_dependencies hok hfind hopen
    have hfresh : promotedItemId initiative followUp input ∉
        initiative.items.map InitiativeItem.id := uniqueSlugId_not_mem _ _
    exact PlanSound.promote h hfresh (uniqueSlugId_ne_empty _ _)
      (fun hself => hfresh (hdeps _ hself)) hphases hunwaited

theorem updateItem_sound {itemId : String} {input : UpdateInitiativeItemInput}
    (h : initiative.Sound) (hfits : EditFits initiative itemId input)
    (hok : applyItemEdit initiative itemId input = .ok result) : result.Sound := by
  rcases applyItemEdit_ok hok with
    ⟨_, item, next, hmem, hid, hnext, hcontent, rfl, hacyclic⟩
  have honly : forall x, x ∈ initiative.items -> x.id = itemId -> x = item :=
    fun x hx hxId => eq_of_key_eq h.distinct hx hmem (hxId.trans hid.symm)
  have hkeeps : KeepsPlan initiative.items fun i => if i.id = itemId then next else i := by
    constructor
    · intro x hx
      split
      · rename_i hxId
        rw [hnext.id, hid, hxId]
      · rfl
    · intro x hx
      split
      · rename_i hxId
        rw [hnext.phaseId, honly x hx hxId]
      · rfl
    · intro x hx hterminal
      split
      · rename_i hxId
        rw [honly x hx hxId] at hterminal
        cases hnext.status with
        | kept _ hstatus _ => rw [hstatus]; exact hterminal
        | skipped _ _ hstatus _ => rw [hstatus]; rfl
        | retried _ hblocked _ _ =>
            rw [hblocked] at hterminal
            cases hterminal
      · exact hterminal
  unfold Initiative.Sound
  simp only [replaceItem] at hacyclic ⊢
  cases hdeps : input.dependsOn with
  | none =>
      apply PlanSound.map h hkeeps
      intro x hx
      split
      · rename_i hxId
        rw [hnext.dependsOn, hdeps, honly x hx hxId]
        rfl
      · rfl
  | some deps =>
      apply PlanSound.rescope h hkeeps
      · intro x hx hstatus
        have hxMem := (mem_openItems.mp hx).left
        by_cases hxId : x.id = itemId
        · simp only [hxId, if_true] at hstatus ⊢
          rw [hnext.dependsOn, hdeps]
          apply hfits deps (by simp [hdeps]) _ x hxMem hxId
          intro hskip
          cases hnext.status with
          | kept hnone _ _ => rw [hskip] at hnone; cases hnone
          | skipped _ _ hskipped _ =>
              rw [hskipped] at hstatus
              cases hstatus
          | retried hretry _ _ _ => rw [hskip] at hretry; cases hretry
        · simp only [hxId, if_false]
          exact h.fits x hx
      · exact hacyclic (by simp [hdeps])

theorem runHarvest_sound (h : initiative.Sound) (harvest : InitiativeRunHarvest) (now : Nat) :
    (applyRunHarvest initiative harvest now).Sound := by
  have hkeeps : KeepsPlan initiative.items
      (notedItem (harvestOwner initiative harvest) harvest.failure) := by
    constructor
    · intro x _
      rw [notedItem_eq]
    · intro x _
      rw [notedItem_eq]
    · intro x _ hterminal
      rw [notedItem_eq]
      exact hterminal
  refine sound_of_items h ?_ (applyRunHarvest_items initiative harvest now) hkeeps ?_
  · rfl
  · intro x _
    rw [notedItem_eq]

theorem edit_sound {op : Edit} {now : Nat} (h : initiative.Sound)
    (hfits : StepFits initiative (.edit now op))
    (hok : op.transform now initiative = .ok result) : result.Sound := by
  cases op with
  | ingestPlan draft => exact ingestPlan_sound h hfits hok
  | markExecuting doc =>
      cases hok
      exact h
  | pause =>
      cases hok
      unfold pause
      split <;> exact h
  | resume =>
      cases hok
      exact resume_sound h now
  | cancel =>
      cases hok
      unfold cancel
      split <;> exact h
  | promoteFollowUp followUpId input => exact promoteFollowUp_sound h hfits hok
  | dismissFollowUp followUpId =>
      rcases applyDismissFollowUp_ok hok with ⟨followUps, rfl⟩
      exact h
  | updateItem itemId input => exact updateItem_sound h hfits hok
  | updatePolicy policy =>
      rw [applyPolicyEdit_ok hok]
      exact h
  | runHarvest harvest =>
      cases hok
      exact runHarvest_sound h harvest now

theorem spawnClaim_sound (h : initiative.Sound)
    (itemId blockId : String) : (applySpawnClaim initiative itemId blockId).Sound := by
  have hkeeps : KeepsPlan initiative.items fun i =>
      if i.id = itemId ∧ i.status = .pending then
        { i with status := .inProgress, blockId := some blockId }
      else i := by
    constructor
    · intro x _
      split <;> rfl
    · intro x _
      split <;> rfl
    · intro x _ hterminal
      split
      · rename_i hclaim
        rw [hclaim.right] at hterminal
        cases hterminal
      · exact hterminal
  refine sound_of_items h rfl rfl hkeeps ?_
  intro x _
  split <;> rfl

theorem reconcileOne_sound (h : initiative.Sound) (itemId : String) (block : Option TaskBlock) :
    (reconcileOne initiative itemId block).Sound := by
  have hkeeps : KeepsPlan initiative.items fun i =>
      if i.id = itemId then reconcileItem i block else i := by
    constructor
    · intro x _
      split
      · exact (reconcileItem_plan x block).left
      · rfl
    · intro x _
      split
      · exact (reconcileItem_plan x block).right.left
      · rfl
    · intro x _ hterminal
      split
      · rw [reconcileItem_settled block hterminal]
        exact hterminal
      · exact hterminal
  refine sound_of_items h rfl rfl hkeeps ?_
  intro x _
  split
  · exact (reconcileItem_plan x block).right.right
  · rfl

theorem initiativeStep_sound {a : InitiativeStep} (h : initiative.Sound)
    (hfits : StepFits initiative a)
    (hstep : initiativeStep initiative a = some result) : result.Sound := by
  cases a with
  | edit now op =>
      cases hok : op.transform now initiative with
      | error e =>
          simp only [initiativeStep, hok, Except.toOption] at hstep
          cases hstep
      | ok next =>
          simp only [initiativeStep, hok, Except.toOption] at hstep
          cases hstep
          exact edit_sound h hfits hok
  | spawnClaim itemId blockId =>
      cases hstep
      exact spawnClaim_sound h itemId blockId
  | reconcile itemId block =>
      cases hstep
      exact reconcileOne_sound h itemId block
  | checkpointCleared phaseId now =>
      cases hstep
      exact sound_of_same h (checkpointCleared_ids initiative phaseId now) rfl

theorem create_sound (goal : String) (now : Nat) : (create goal now).Sound where
  distinct := List.nodup_nil
  named := by
    intro item hitem
    cases hitem
  fits := by
    intro item hitem
    cases hitem
  ranked := by
    refine ⟨fun _ => 0, ?_⟩
    intro item hitem
    cases hitem

/-!
## An initiative never deadlocks
-/

/-- In every run whose plans, promotions and re-scopings fit the phases, work
is left only while something runs, is blocked, is reviewed or can be spawned,
and a plan whose items are all settled is recognised as complete. -/
theorem initiative_neverDeadlocks (goal : String) (now : Nat)
    (trace : List InitiativeStep) (initiative : Initiative)
    (hrun : RunWhere initiativeStep StepFits (create goal now) trace initiative) :
    ((exists item, item ∈ initiative.items ∧ item.status.isTerminal = false) ->
      MakesProgress initiative) ∧
    (initiative.items ≠ [] ->
      (forall item, item ∈ initiative.items -> item.status.isTerminal = true) ->
      allItemsSettled initiative = true) := by
  constructor
  · intro hopen
    rcases hopen with ⟨item, hmem, hstatus⟩
    have hsound : initiative.Sound :=
      hrun.invariant (create_sound goal now) fun _ _ _ h hfits hstep =>
        initiativeStep_sound h hfits hstep
    exact hsound.makesProgress (List.ne_nil_of_mem (mem_openItems.mpr ⟨hmem, hstatus⟩))
  · intro hne hall
    simp only [allItemsSettled, Bool.and_eq_true, List.all_eq_true, decide_eq_true_eq]
    exact ⟨hne, hall⟩

def soloPolicy : InitiativeExecutionPolicy :=
  { maxConcurrent := 1
    rules := []
    defaultPipelineId := "pl_full"
    onMissingEstimate := .default }

/-- One phase and one item; the phase's identifier is left to the slug, the
item names its phase. -/
def onePhaseDraft (phaseId : Option IdField) (itemPhase : IdField) :
    InitiativePlanDraft :=
  { goal := ""
    constraints := []
    nonGoals := []
    analysisSummary := ""
    phases :=
      [{ id := phaseId
         title := "Build"
         goal := ""
         maxConcurrent := none
         checkpoint := false }]
    items :=
      [{ id := some ⟨"api", by decide⟩
         phaseId := itemPhase
         title := "Build the API"
         description := ""
         dependsOn := []
         estimate := none
         pipelineId := none
         spawn := none }]
    policy := soloPolicy
    decisions := []
    caveats := [] }

def planAndExecute (draft : InitiativePlanDraft) : List InitiativeStep :=
  [.edit 1 (.ingestPlan draft), .edit 2 (.markExecuting none)]

theorem initiative_neverDeadlocks_onePhase :
    exists initiative,
      RunWhere initiativeStep StepFits (create "" 0)
        (planAndExecute (onePhaseDraft (some ⟨"p1", by decide⟩) ⟨"p1", by decide⟩))
        initiative ∧
      MakesProgress initiative := by
  have hrun := runWhere_of_runChecked
    (fun s a (h : decide (StepFits s a) = true) => of_decide_eq_true h)
    (show runChecked initiativeStep (fun s a => decide (StepFits s a)) (create "" 0)
      (planAndExecute (onePhaseDraft (some ⟨"p1", by decide⟩) ⟨"p1", by decide⟩)) =
        some _ from rfl)
  exact ⟨_, hrun,
    (initiative_neverDeadlocks "" 0 _ _ hrun).left ⟨_, List.mem_cons_self, rfl⟩⟩

/-- With no explicit phase identifier the validation accepts an item of a phase
that does not exist, and the loop never finds anything to do. -/
theorem initiative_deadlocks_unknownPhase :
    exists initiative,
      Run initiativeStep (create "" 0)
        (planAndExecute (onePhaseDraft none ⟨"p1", by decide⟩)) initiative ∧
      initiative.status = .executing ∧
      (exists item, item ∈ initiative.items ∧ item.status.isTerminal = false) ∧
      ¬ MakesProgress initiative := by
  refine ⟨_, run_of_runFrom rfl, rfl, ⟨_, List.mem_cons_self, rfl⟩, ?_⟩
  unfold MakesProgress
  decide

end Initiatives
end CatFactory
