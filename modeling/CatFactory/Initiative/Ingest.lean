import CatFactory.Initiative.Facts

/-!
# Ingesting a plan again

A driver may replay the ingest of a plan, and a later plan may revise it.  The
same draft folded in twice changes nothing the second time, and no fold loses
what the loop has spawned or settled.
-/

namespace CatFactory
namespace Initiatives

open Foundation

/-!
## The fold of one draft
-/

section Fold

variable (initiative : Initiative) (draft : InitiativePlanDraft) (now : Nat)

/-- A drafted phase is found among the phases of the fold. -/
theorem byId_draftPhases {id : String} (hid : id ∈ draftPhaseIds draft) :
    exists p, byId InitiativePhase.id (draftPhases initiative draft) id =
      some (draftPhase initiative p id) := by
  refine byId_zipWith ?_ (draftPhaseIds_length draft) hid
  intro p id
  rfl

/-- A drafted item is found among the items of the fold. -/
theorem byId_foldedItems {id : String} (hid : id ∈ draftItemIds draft) :
    exists d, byId InitiativeItem.id
        (draftItems initiative draft ++ preserved initiative draft) id =
      some (draftItem initiative d id) := by
  have hkey : forall (d : InitiativeDraftItem) id, (draftItem initiative d id).id = id := by
    intro d id
    rfl
  rcases byId_zipWith hkey (draftItemIds_length draft) hid with ⟨d, hd⟩
  have hother : byId InitiativeItem.id (preserved initiative draft) id = none := by
    apply byId_eq_none
    intro x hx hxid
    rw [<- hxid] at hid
    exact (mem_preserved hx).2 hid
  refine ⟨d, ?_⟩
  rw [byId_append, hother]
  exact hd

/-- A fold over entries that are built from their identifiers and what these find. -/
theorem zipWith_congr {source entry : Type} {build build' : source -> String -> entry}
    {sources : List source} {ids : List String}
    (h : forall x id, id ∈ ids -> build' x id = build x id) :
    List.zipWith build' sources ids = List.zipWith build sources ids := by
  induction sources generalizing ids with
  | nil => rfl
  | cons x rest ih =>
      cases ids with
      | nil => rfl
      | cons id ids =>
          rw [List.zipWith_cons_cons, List.zipWith_cons_cons, h x id List.mem_cons_self]
          rw [ih fun y key hkey => h y key (List.mem_cons_of_mem _ hkey)]

theorem draftPhases_again :
    draftPhases (applyPlanDraft initiative draft now) draft = draftPhases initiative draft := by
  apply zipWith_congr
  intro p id hid
  rcases byId_draftPhases initiative draft hid with ⟨q, hq⟩
  unfold draftPhase
  show InitiativePhase.mk _ _ _ _ _
    ((byId InitiativePhase.id (draftPhases initiative draft) id).bind _) = _
  rw [hq]
  rfl

theorem truthyText_truthyText (text : Option Utf16) :
    truthyText (truthyText text) = truthyText text := by
  unfold truthyText
  rw [Option.filter_filter]
  simp

theorem draftItems_again :
    draftItems (applyPlanDraft initiative draft now) draft = draftItems initiative draft := by
  apply zipWith_congr
  intro d id hid
  rcases byId_foldedItems initiative draft hid with ⟨e, he⟩
  have hprior : byId InitiativeItem.id (applyPlanDraft initiative draft now).items id =
      some (draftItem initiative e id) := he
  simp only [draftItem, hprior, Option.map_some, Option.bind_some, Option.getD_some,
    truthyText_truthyText]

theorem preserved_again :
    preserved (applyPlanDraft initiative draft now) draft = preserved initiative draft := by
  show (draftItems initiative draft ++ preserved initiative draft).filter _ = _
  rw [List.filter_append]
  have hdrafted : (draftItems initiative draft).filter (fun i =>
      i.id ∉ draftItemIds draft ∧ (i.blockId ≠ none ∨ i.status ≠ .pending)) = [] := by
    rw [List.filter_eq_nil_iff]
    intro x hx
    have hid : x.id ∈ draftItemIds draft := by
      rw [<- draftItems_ids initiative draft]
      exact List.mem_map_of_mem hx
    simp [hid]
  rw [hdrafted, List.nil_append]
  unfold preserved
  rw [List.filter_filter]
  simp

theorem draftDecisions_again (later : Nat) :
    draftDecisions (applyPlanDraft initiative draft now) draft later =
      draftDecisions initiative draft now := by
  apply zipWith_congr
  intro d id hid
  have hlength : (assignIds (draft.decisions.map fun d => (none, d.title)) []).length =
      draft.decisions.length := by simp
  have hfound := @byId_zipWith _ _ InitiativeDecision.id (draftDecision initiative now)
    (fun _ _ => rfl) draft.decisions _ hlength id hid
  rcases hfound with ⟨e, he⟩
  have hprior : byId InitiativeDecision.id (applyPlanDraft initiative draft now).decisions id =
      some (draftDecision initiative now e id) := he
  simp only [draftDecision, hprior, Option.map_some, Option.getD_some]

end Fold

/-- The second fold of a draft changes nothing. -/
theorem applyPlanDraft_again (initiative : Initiative) (draft : InitiativePlanDraft)
    (now later : Nat) :
    applyPlanDraft (applyPlanDraft initiative draft now) draft later =
      applyPlanDraft initiative draft now := by
  have hstatus : (applyPlanDraft (applyPlanDraft initiative draft now) draft later).status =
      (applyPlanDraft initiative draft now).status := by
    unfold applyPlanDraft
    simp only
    split
    · rfl
    · rfl
  have hphases := draftPhases_again initiative draft now
  have hitems := draftItems_again initiative draft now
  have hkept := preserved_again initiative draft now
  have hdecisions := draftDecisions_again initiative draft now later
  generalize hfirst : applyPlanDraft initiative draft now = first at *
  rw [applyPlanDraft] at hstatus ⊢
  simp only at hstatus
  rw [hphases, hitems, hkept, hdecisions, hstatus, <- hfirst]
  rfl

/-!
## What a fold keeps
-/

/-- The loop spawned a task for the item, or it is settled. -/
def Materialised (item : InitiativeItem) : Prop :=
  item.blockId ≠ none ∨ item.status ≠ .pending

instance (item : InitiativeItem) : Decidable (Materialised item) :=
  inferInstanceAs (Decidable (_ ∨ _))

/-- Both carry the same runtime state; an empty note is none. -/
structure SameWork (x y : InitiativeItem) : Prop where
  id : y.id = x.id
  status : y.status = x.status
  blockId : y.blockId = x.blockId
  pr : y.pr = x.pr
  note : truthyText y.note = truthyText x.note

/-- The item of a drafted identifier takes over what the identifier finds. -/
theorem sameWork_draftItem {initiative : Initiative} {x : InitiativeItem}
    (hfound : byId InitiativeItem.id initiative.items x.id = some x)
    (d : InitiativeDraftItem) : SameWork x (draftItem initiative d x.id) where
  id := rfl
  status := by simp [draftItem, hfound]
  blockId := by simp [draftItem, hfound]
  pr := by simp [draftItem, hfound]
  note := by simp [draftItem, hfound, truthyText_truthyText]

theorem applyPlanDraft_keeps_item {initiative : Initiative} {draft : InitiativePlanDraft}
    {now : Nat} {x : InitiativeItem} (hx : x ∈ initiative.items) (hwork : Materialised x)
    (hfound : byId InitiativeItem.id initiative.items x.id = some x) :
    exists y, y ∈ (applyPlanDraft initiative draft now).items ∧ SameWork x y := by
  by_cases hid : x.id ∈ draftItemIds draft
  · rcases byId_foldedItems initiative draft hid with ⟨d, hd⟩
    exact ⟨_, (byId_some hd).1, sameWork_draftItem hfound d⟩
  · refine ⟨x, ?_, rfl, rfl, rfl, rfl, rfl⟩
    apply List.mem_append_right
    exact List.mem_filter.mpr ⟨hx, decide_eq_true ⟨hid, hwork⟩⟩

theorem applyPlanDraft_keeps_phase {initiative : Initiative} {draft : InitiativePlanDraft}
    {now : Nat} {p q : InitiativePhase} (hp : p ∈ (applyPlanDraft initiative draft now).phases)
    (hfound : byId InitiativePhase.id initiative.phases q.id = some q) (hid : p.id = q.id) :
    p.checkpointClearedAt = q.checkpointClearedAt := by
  have hbuilt : p ∈ List.zipWith (draftPhase initiative) draft.phases (draftPhaseIds draft) :=
    hp
  rw [<- List.map_uncurry_zip_eq_zipWith] at hbuilt
  rcases List.mem_map.mp hbuilt with ⟨⟨d, id⟩, _, rfl⟩
  have hsame : id = q.id := hid
  simp [draftPhase, hsame, hfound]

theorem nodup_foldedItems {initiative : Initiative} {draft : InitiativePlanDraft} {now : Nat}
    (hexplicit : (explicitIds draft.itemKeys).Nodup)
    (hwork : ((initiative.items.filter fun x => Materialised x).map InitiativeItem.id).Nodup) :
    ((applyPlanDraft initiative draft now).items.map InitiativeItem.id).Nodup := by
  show ((draftItems initiative draft ++ preserved initiative draft).map _).Nodup
  rw [List.map_append, draftItems_ids, List.nodup_append]
  refine ⟨assignIds_nodup hexplicit fun _ hx => hx, ?_, ?_⟩
  · have hfewer : preserved initiative draft =
        (initiative.items.filter fun x => Materialised x).filter
          fun x => x.id ∉ draftItemIds draft := by
      unfold preserved
      rw [List.filter_filter]
      apply List.filter_congr
      intro x _
      rw [<- Bool.decide_and]
      rfl
    rw [hfewer]
    exact hwork.sublist (List.filter_sublist.map _)
  · intro id hid other hother hsame
    rcases List.mem_map.mp hother with ⟨x, hx, rfl⟩
    rw [hsame] at hid
    exact (mem_preserved hx).2 hid

/-- What folding a draft promises. -/
structure IngestLaw (initiative : Initiative) (draft : InitiativePlanDraft) (now : Nat) :
    Prop where
  /-- The replay of the draft changes nothing. -/
  replay : forall later, applyPlanDraft (applyPlanDraft initiative draft now) draft later =
    applyPlanDraft initiative draft now
  /-- Work that an identifier names stays under it. -/
  work : forall x, x ∈ initiative.items -> Materialised x ->
    byId InitiativeItem.id initiative.items x.id = some x ->
      exists y, y ∈ (applyPlanDraft initiative draft now).items ∧ SameWork x y
  /-- A phase that stays keeps its cleared checkpoint. -/
  checkpoints : forall p q, p ∈ (applyPlanDraft initiative draft now).phases ->
    byId InitiativePhase.id initiative.phases q.id = some q -> p.id = q.id ->
      p.checkpointClearedAt = q.checkpointClearedAt
  itemIds : (explicitIds draft.itemKeys).Nodup ->
    ((initiative.items.filter fun x => Materialised x).map InitiativeItem.id).Nodup ->
      ((applyPlanDraft initiative draft now).items.map InitiativeItem.id).Nodup
  phaseIds : (explicitIds draft.phaseKeys).Nodup ->
    ((applyPlanDraft initiative draft now).phases.map InitiativePhase.id).Nodup

theorem applyPlanDraft_law (initiative : Initiative) (draft : InitiativePlanDraft)
    (now : Nat) : IngestLaw initiative draft now where
  replay := applyPlanDraft_again initiative draft now
  work := fun _ hx hwork hfound => applyPlanDraft_keeps_item hx hwork hfound
  checkpoints := fun _ _ hp hfound hid => applyPlanDraft_keeps_phase hp hfound hid
  itemIds := fun hexplicit hwork => nodup_foldedItems hexplicit hwork
  phaseIds := by
    intro hexplicit
    show ((draftPhases initiative draft).map InitiativePhase.id).Nodup
    rw [draftPhases_ids]
    exact assignIds_nodup hexplicit fun _ hx => hx

/-!
Two items under one identifier: the later one speaks for it.
-/

def twinItem (status : InitiativeItemStatus) (blockId : Option String) : InitiativeItem where
  id := "auth"
  phaseId := "core"
  title := "Authentication"
  description := ""
  dependsOn := []
  estimate := none
  pipelineId := none
  status := status
  blockId := blockId
  pr := none
  note := none
  spawn := none

def twinInitiative : Initiative where
  goal := ""
  constraints := []
  nonGoals := []
  analysisSummary := ""
  phases := []
  items := [twinItem .done (some "task-1"), twinItem .pending none]
  policy := none
  decisions := []
  deviations := []
  followUps := []
  caveats := []
  status := .executing
  doc := none
  rev := 0
  updatedAt := 0

def twinDraft : InitiativePlanDraft where
  goal := ""
  constraints := []
  nonGoals := []
  analysisSummary := ""
  phases := []
  items :=
    [{ id := some ⟨"auth", by decide⟩
       phaseId := ⟨"core", by decide⟩
       title := "Authentication"
       description := ""
       dependsOn := []
       estimate := none
       pipelineId := none
       spawn := none }]
  policy :=
    { maxConcurrent := 1
      rules := []
      defaultPipelineId := "pl_full"
      onMissingEstimate := .default }
  decisions := []
  caveats := []

theorem applyPlanDraft_loses_twin :
    exists x, x ∈ twinInitiative.items ∧ x.status = .done ∧ x.blockId = some "task-1" ∧
      forall y, y ∈ (applyPlanDraft twinInitiative twinDraft 1).items -> y.id = x.id ->
        y.status ≠ x.status ∧ y.blockId ≠ x.blockId := by
  refine ⟨twinItem .done (some "task-1"), List.mem_cons_self, rfl, rfl, ?_⟩
  decide

end Initiatives
end CatFactory
