import Mathlib.Data.List.Nodup
import CatFactory.Initiative.Logic

/-!
# Facts about the initiative logic

What the lookups, the generated identifiers and the validation guarantee to
every later argument.
-/

namespace CatFactory
namespace Initiatives

open Foundation

variable {initiative result : Initiative} {ids : List (Option IdField × String)}
  {taken : List String}

/-!
## Lookups
-/

theorem byId_some {key : entry -> String} {entries : List entry} {id : String}
    {x : entry} (h : byId key entries id = some x) : x ∈ entries ∧ key x = id := by
  have hmem := List.mem_of_find?_eq_some h
  have hkey := List.find?_some h
  exact ⟨by simpa using hmem, by simpa using hkey⟩

theorem byId_eq_some {key : entry -> String} {entries : List entry} {x : entry}
    (hmem : x ∈ entries)
    (honly : forall y, y ∈ entries -> key y = key x -> y = x) :
    byId key entries (key x) = some x := by
  cases h : byId key entries (key x) with
  | none =>
      have hnone := List.find?_eq_none.mp h x (by simpa using hmem)
      simp at hnone
  | some y =>
      rcases byId_some h with ⟨hy, hkey⟩
      rw [honly y hy hkey]

theorem eq_of_key_eq {key : entry -> String} {entries : List entry}
    (hdistinct : (entries.map key).Nodup) {x y : entry}
    (hx : x ∈ entries) (hy : y ∈ entries) (h : key x = key y) : x = y :=
  List.inj_on_of_nodup_map hdistinct hx hy h

theorem byId_of_mem {key : entry -> String} {entries : List entry}
    (hdistinct : (entries.map key).Nodup) {x : entry} (hmem : x ∈ entries) :
    byId key entries (key x) = some x :=
  byId_eq_some hmem fun _ hy h => eq_of_key_eq hdistinct hy hmem h

theorem eq_of_filterMap_eq {f : entry -> Option key} {entries : List entry}
    (hdistinct : (entries.filterMap f).Nodup) {x y : entry} {k : key}
    (hx : x ∈ entries) (hy : y ∈ entries) (hfx : f x = some k) (hfy : f y = some k) :
    x = y := by
  induction entries with
  | nil => cases hx
  | cons first rest ih =>
      cases hfirst : f first with
      | none =>
          rw [List.filterMap_cons_none hfirst] at hdistinct
          have hrest : forall z, z ∈ first :: rest -> f z = some k -> z ∈ rest := by
            intro z hz hfz
            rcases List.mem_cons.mp hz with rfl | hz
            · rw [hfirst] at hfz
              cases hfz
            · exact hz
          exact ih hdistinct (hrest x hx hfx) (hrest y hy hfy)
      | some k' =>
          rw [List.filterMap_cons_some hfirst] at hdistinct
          rcases List.nodup_cons.mp hdistinct with ⟨hfresh, hrest⟩
          have hlater : forall z, z ∈ rest -> f z = some k -> f first ≠ some k := by
            intro z hz hfz heq
            rw [hfirst] at heq
            cases heq
            exact hfresh (List.mem_filterMap.mpr ⟨z, hz, hfz⟩)
          rcases List.mem_cons.mp hx with hxFirst | hxRest
          · rcases List.mem_cons.mp hy with hyFirst | hyRest
            · exact hxFirst.trans hyFirst.symm
            · exact absurd (hxFirst ▸ hfx) (hlater y hyRest hfy)
          · rcases List.mem_cons.mp hy with hyFirst | hyRest
            · exact absurd (hyFirst ▸ hfy) (hlater x hxRest hfx)
            · exact ih hrest hxRest hyRest

/-!
## Looking up what was just built
-/

theorem byId_append (key : entry -> String) (front back : List entry) (id : String) :
    byId key (front ++ back) id = (byId key back id).or (byId key front id) := by
  unfold byId
  rw [List.reverse_append, List.find?_append]

theorem byId_eq_none {key : entry -> String} {entries : List entry} {id : String}
    (h : forall x, x ∈ entries -> key x ≠ id) : byId key entries id = none := by
  cases hfound : byId key entries id with
  | none => rfl
  | some x =>
      rcases byId_some hfound with ⟨hmem, hkey⟩
      exact absurd hkey (h x hmem)

theorem byId_isSome {key : entry -> String} {entries : List entry} {x : entry}
    (h : x ∈ entries) : (byId key entries (key x)).isSome = true := by
  unfold byId
  rw [List.find?_isSome]
  exact ⟨x, List.mem_reverse.mpr h, by simp⟩

section Built

variable {source entry : Type} {key : entry -> String} {build : source -> String -> entry}

theorem keys_zipWith (hkey : forall x id, key (build x id) = id) {sources : List source}
    {ids : List String} (hlength : ids.length = sources.length) :
    (List.zipWith build sources ids).map key = ids := by
  induction sources generalizing ids with
  | nil =>
      rw [List.length_eq_zero_iff.mp hlength]
      rfl
  | cons x rest ih =>
      cases ids with
      | nil => cases hlength
      | cons id ids =>
          rw [List.zipWith_cons_cons, List.map_cons, hkey, ih (Nat.succ.inj hlength)]

/-- Whatever an identifier finds was built under it. -/
theorem byId_zipWith (hkey : forall x id, key (build x id) = id) {sources : List source}
    {ids : List String} (hlength : ids.length = sources.length) {id : String}
    (hid : id ∈ ids) :
    exists x, byId key (List.zipWith build sources ids) id = some (build x id) := by
  have hkeys := keys_zipWith hkey hlength
  rw [<- hkeys] at hid
  rcases List.mem_map.mp hid with ⟨y, hy, hyid⟩
  rcases Option.isSome_iff_exists.mp (@byId_isSome _ key _ _ hy) with ⟨z, hz⟩
  rw [hyid] at hz
  rcases byId_some hz with ⟨hmem, hzid⟩
  rcases List.mem_iff_getElem.mp hmem with ⟨i, hi, hget⟩
  rw [List.getElem_zipWith] at hget
  have hbound : i < ids.length := by
    simp at hi
    omega
  have hsame : ids[i] = id := by
    rw [<- hzid, <- hget, hkey]
  rw [hsame] at hget
  exact ⟨_, by rw [hz, <- hget]⟩

end Built

/-!
## Generated identifiers
-/

theorem ofList_ne_empty {cs : List Char} (h : cs ≠ []) : String.ofList cs ≠ "" := by
  intro heq
  have hcs := congrArg String.toList heq
  simp at hcs
  exact h hcs

theorem initiativeSlug_ne_empty (title : Utf16) : initiativeSlug title ≠ "" := by
  unfold initiativeSlug
  simp only
  split
  · decide
  · rename_i hne
    exact ofList_ne_empty hne

theorem slugCandidate_ne_empty {slug : String} (h : slug ≠ "") (n : Nat) :
    slugCandidate slug n ≠ "" := by
  unfold slugCandidate
  split
  · exact h
  · intro heq
    have hlist := congrArg String.toList heq
    simp at hlist

theorem slugCandidate_injective (slug : String) :
    Function.Injective (slugCandidate slug) := by
  have hsuffix : forall n : Nat, slug ++ "-" ++ toString n ≠ slug := by
    intro n heq
    have hlength := congrArg (fun s => s.toList.length) heq
    simp at hlength
  intro a b h
  unfold slugCandidate at h
  split at h <;> split at h
  · omega
  · exact absurd h.symm (hsuffix b)
  · exact absurd h (hsuffix a)
  · have hlist := congrArg String.toList h
    simp only [String.toList_append, List.append_cancel_left_eq] at hlist
    exact toString_injective (String.toList_injective hlist)

theorem uniqueSlugId_not_mem (base : Utf16) (taken : List String) :
    uniqueSlugId base taken ∉ taken :=
  firstFree_not_mem (slugCandidate_injective _) (Nat.le_refl _) 1

theorem uniqueSlugId_ne_empty (base : Utf16) (taken : List String) :
    uniqueSlugId base taken ≠ "" := by
  rcases firstFree_eq_candidate (slugCandidate (initiativeSlug base)) taken
    taken.length 1 with ⟨m, _, heq⟩
  unfold uniqueSlugId
  rw [heq]
  exact slugCandidate_ne_empty (initiativeSlug_ne_empty base) m

/-!
## Assigned identifiers

Assigning identifiers against a set that holds the explicit ones keeps those
and adds new ones outside the set.
-/

@[simp] theorem assignIds_length (ids : List (Option IdField × String))
    (taken : List String) : (assignIds ids taken).length = ids.length := by
  induction ids generalizing taken with
  | nil => rfl
  | cons p rest ih =>
      rcases p with ⟨id, title⟩
      cases id with
      | none => simp [assignIds, ih]
      | some id => simp [assignIds, ih]

/-- An assigned identifier is the explicit one, or new to the set. -/
theorem assignIds_zip {key : Option IdField} {title x : String}
    (h : ((key, title), x) ∈ ids.zip (assignIds ids taken)) :
    key.map Subtype.val = some x ∨ (key = none ∧ x ∉ taken) := by
  induction ids generalizing taken with
  | nil => cases h
  | cons p rest ih =>
      rcases p with ⟨id, text⟩
      cases id with
      | none =>
          simp only [assignIds, List.zip_cons_cons, List.mem_cons, Prod.mk.injEq] at h
          rcases h with ⟨⟨rfl, rfl⟩, rfl⟩ | h
          · exact Or.inr ⟨rfl, uniqueSlugId_not_mem title taken⟩
          · rcases ih h with hexplicit | ⟨hnone, hfree⟩
            · exact Or.inl hexplicit
            · exact Or.inr ⟨hnone, fun hmem => hfree (List.mem_cons_of_mem _ hmem)⟩
      | some id =>
          simp only [assignIds, List.zip_cons_cons, List.mem_cons, Prod.mk.injEq] at h
          rcases h with ⟨⟨rfl, rfl⟩, rfl⟩ | h
          · exact Or.inl rfl
          · exact ih h

theorem mem_assignIds {x : String} (h : x ∈ assignIds ids taken) :
    x ∈ explicitIds ids ∨ x ∉ taken := by
  rcases List.getElem_of_mem h with ⟨i, hi, rfl⟩
  have hlt : i < ids.length := by rwa [assignIds_length] at hi
  have hboth : i < (ids.zip (assignIds ids taken)).length := by simpa using hlt
  have hzip := List.getElem_mem hboth
  rw [List.getElem_zip] at hzip
  rcases assignIds_zip hzip with hexplicit | hfree
  · exact Or.inl (List.mem_filterMap.mpr ⟨_, List.getElem_mem hlt, hexplicit⟩)
  · exact Or.inr hfree.right

theorem explicit_mem_assignIds {x : String} (h : x ∈ explicitIds ids) :
    x ∈ assignIds ids taken := by
  induction ids generalizing taken with
  | nil => cases h
  | cons p rest ih =>
      rcases p with ⟨id, title⟩
      cases id with
      | none =>
          have hrest : x ∈ explicitIds rest := by simpa [explicitIds] using h
          exact List.mem_cons_of_mem _ (ih hrest)
      | some id =>
          have hcases : x = id.val ∨ x ∈ explicitIds rest := by
            simpa [explicitIds] using h
          rcases hcases with rfl | hrest
          · exact List.mem_cons_self
          · exact List.mem_cons_of_mem _ (ih hrest)

theorem assignIds_nodup (hexplicit : (explicitIds ids).Nodup)
    (htaken : forall x, x ∈ explicitIds ids -> x ∈ taken) :
    (assignIds ids taken).Nodup := by
  induction ids generalizing taken with
  | nil => exact List.nodup_nil
  | cons p rest ih =>
      rcases p with ⟨id, title⟩
      cases id with
      | none =>
          have hrest : explicitIds rest = explicitIds ((none, title) :: rest) := by
            simp [explicitIds]
          rw [← hrest] at hexplicit htaken
          apply List.nodup_cons.mpr
          constructor
          · intro hmem
            rcases mem_assignIds hmem with h | h
            · exact uniqueSlugId_not_mem title taken (htaken _ h)
            · exact h List.mem_cons_self
          · exact ih hexplicit fun x hx => List.mem_cons_of_mem _ (htaken x hx)
      | some id =>
          have hcons : explicitIds ((some id, title) :: rest) =
              id.val :: explicitIds rest := by
            simp [explicitIds]
          rw [hcons] at hexplicit htaken
          rcases List.nodup_cons.mp hexplicit with ⟨hfresh, hrest⟩
          apply List.nodup_cons.mpr
          constructor
          · intro hmem
            rcases mem_assignIds hmem with h | h
            · exact hfresh h
            · exact h (htaken _ List.mem_cons_self)
          · exact ih hrest fun x hx => htaken x (List.mem_cons_of_mem _ hx)

theorem assignIds_ne_empty {x : String} (h : x ∈ assignIds ids taken) : x ≠ "" := by
  induction ids generalizing taken with
  | nil => cases h
  | cons p rest ih =>
      rcases p with ⟨id, title⟩
      cases id with
      | none =>
          simp only [assignIds, List.mem_cons] at h
          rcases h with rfl | h
          · exact uniqueSlugId_ne_empty title taken
          · exact ih h
      | some id =>
          simp only [assignIds, List.mem_cons] at h
          rcases h with rfl | h
          · exact id.property
          · exact ih h

/-- An explicit identifier keeps its position. -/
theorem idxOf_assignIds {x : String} (htaken : x ∈ taken) {k : Nat}
    (h : ids.findIdx? (fun p => p.1.map Subtype.val = some x) = some k) :
    (assignIds ids taken).idxOf x = k := by
  induction ids generalizing taken k with
  | nil => cases h
  | cons p rest ih =>
      rcases p with ⟨id, title⟩
      rw [List.findIdx?_cons] at h
      cases id with
      | none =>
          split at h
          · rename_i hhead
            simp at hhead
          · rcases Option.map_eq_some_iff.mp h with ⟨j, hj, rfl⟩
            have hne : uniqueSlugId title taken ≠ x := fun heq =>
              uniqueSlugId_not_mem title taken (heq ▸ htaken)
            have hrest := ih (List.mem_cons_of_mem (uniqueSlugId title taken) htaken) hj
            simp [assignIds, List.idxOf_cons_ne _ hne, hrest]
      | some id =>
          split at h
          · rename_i hhead
            have heq : id.val = x := by simpa using hhead
            cases h
            simp [assignIds, heq]
          · rename_i hhead
            have hne : id.val ≠ x := by simpa using hhead
            rcases Option.map_eq_some_iff.mp h with ⟨j, hj, rfl⟩
            simp [assignIds, List.idxOf_cons_ne _ hne, ih htaken hj]

/-!
## What validation accepts
-/

theorem firstDuplicate_none {seen ids : List String}
    (h : firstDuplicate seen ids = none) :
    ids.Nodup ∧ forall x, x ∈ ids -> x ∉ seen := by
  induction ids generalizing seen with
  | nil => exact ⟨List.nodup_nil, by simp⟩
  | cons id rest ih =>
      unfold firstDuplicate at h
      split at h
      · cases h
      · rename_i hnew
        rcases ih h with ⟨hrest, hseen⟩
        constructor
        · exact List.nodup_cons.mpr ⟨fun hmem => hseen id hmem List.mem_cons_self, hrest⟩
        · intro x hx
          rcases List.mem_cons.mp hx with rfl | hx
          · exact hnew
          · exact fun hmem => hseen x hx (List.mem_cons_of_mem _ hmem)

/-- The four checks that an accepted draft passed. -/
structure DraftValid (draft : InitiativePlanDraft) : Prop where
  phaseIds : (explicitIds draft.phaseKeys).Nodup
  itemIds : (explicitIds draft.itemKeys).Nodup
  references : forall item, item ∈ draft.items -> referenceError draft item = none
  acyclic : assertAcyclicItems (draft.items.map fun d =>
    ((d.id.map Subtype.val).getD "", d.dependsOn)) = .ok ()

theorem draftValid_of_validatePlanDraft {draft : InitiativePlanDraft}
    (h : validatePlanDraft draft = .ok ()) : DraftValid draft := by
  unfold validatePlanDraft at h
  cases hphase : firstDuplicate [] (explicitIds draft.phaseKeys) with
  | some id =>
      rw [hphase] at h
      cases h
  | none =>
      rw [hphase] at h
      cases hitem : firstDuplicate [] (explicitIds draft.itemKeys) with
      | some id =>
          rw [hitem] at h
          cases h
      | none =>
          rw [hitem] at h
          cases hreference : draft.items.findSome? (referenceError draft) with
          | some error =>
              rw [hreference] at h
              cases h
          | none =>
              rw [hreference] at h
              exact
                { phaseIds := (firstDuplicate_none hphase).left
                  itemIds := (firstDuplicate_none hitem).left
                  references := List.findSome?_eq_none_iff.mp hreference
                  acyclic := h }

/-- The edges an acyclicity check walks. -/
def itemEdges (items : List (String × List String)) (id : String) : List String :=
  ((byId Prod.fst items id).map Prod.snd).getD []

theorem assertAcyclicItems_sound {items : List (String × List String)}
    (h : assertAcyclicItems items = .ok ()) :
    exists rank : String -> Nat,
      RanksOn (itemEdges items) ((items.map Prod.fst).filter fun id => id ≠ "") rank := by
  unfold assertAcyclicItems at h
  simp only at h
  split at h
  · cases h
  · rename_i finished hvisit
    exact visitAll_sound hvisit

/-- The check refuses no ranked graph, so its fuel is never what ends it. -/
theorem assertAcyclicItems_complete {items : List (String × List String)}
    {rank : String -> Nat}
    (hrank : forall id, forall d, d ∈ itemEdges items id -> rank d < rank id) :
    assertAcyclicItems items = .ok () := by
  have hkeys : forall id, itemEdges items id ≠ [] -> id ∈ items.map Prod.fst := by
    intro id hne
    unfold itemEdges at hne
    cases hfind : byId Prod.fst items id with
    | none =>
        rw [hfind] at hne
        exact absurd rfl hne
    | some x =>
        rcases byId_some hfind with ⟨hx, hkey⟩
        exact List.mem_map.mpr ⟨x, hx, hkey⟩
  have hok := visitAll_complete hkeys hrank
    ((items.map Prod.fst).filter fun id => id ≠ "")
  rw [List.length_map] at hok
  unfold assertAcyclicItems
  simp only
  split
  · rename_i id herror
    have hedges : (fun id => ((byId Prod.fst items id).map Prod.snd).getD []) =
        itemEdges items := rfl
    rw [hedges] at herror
    rw [herror] at hok
    cases hok
  · rfl

/-!
## The folded plan
-/

theorem draftPhaseIds_length (draft : InitiativePlanDraft) :
    (draftPhaseIds draft).length = draft.phases.length := by
  simp [draftPhaseIds, InitiativePlanDraft.phaseKeys]

theorem draftItemIds_length (draft : InitiativePlanDraft) :
    (draftItemIds draft).length = draft.items.length := by
  simp [draftItemIds, InitiativePlanDraft.itemKeys]

theorem draftPhases_ids (initiative : Initiative) (draft : InitiativePlanDraft) :
    (draftPhases initiative draft).map InitiativePhase.id = draftPhaseIds draft := by
  apply keys_zipWith
  · intro p id
    rfl
  · exact draftPhaseIds_length draft

theorem draftItems_ids (initiative : Initiative) (draft : InitiativePlanDraft) :
    (draftItems initiative draft).map InitiativeItem.id = draftItemIds draft := by
  apply keys_zipWith
  · intro d id
    rfl
  · exact draftItemIds_length draft

/-- Where an item of the folded plan comes from. -/
theorem mem_draftItems {initiative : Initiative} {draft : InitiativePlanDraft}
    {item : InitiativeItem} (h : item ∈ draftItems initiative draft) :
    exists d, d ∈ draft.items ∧ item = draftItem initiative d item.id ∧
      item.id ∈ draftItemIds draft ∧
      (d.id.map Subtype.val = some item.id ∨
        item.id ∉ explicitIds draft.itemKeys) := by
  have hid : item.id ∈ draftItemIds draft := by
    rw [← draftItems_ids initiative draft]
    exact List.mem_map.mpr ⟨item, h, rfl⟩
  unfold draftItems at h
  rw [← List.map_uncurry_zip_eq_zipWith] at h
  rcases List.mem_map.mp h with ⟨⟨d, id⟩, hpair, rfl⟩
  have hkeys : ((d.id, d.title), id) ∈ draft.itemKeys.zip (draftItemIds draft) := by
    unfold InitiativePlanDraft.itemKeys
    rw [List.zip_map_left]
    exact List.mem_map.mpr ⟨(d, id), hpair, rfl⟩
  refine ⟨d, (List.of_mem_zip hpair).left, rfl, hid, ?_⟩
  rcases assignIds_zip hkeys with hexplicit | ⟨_, hfree⟩
  · exact Or.inl hexplicit
  · exact Or.inr hfree

theorem mem_preserved {initiative : Initiative} {draft : InitiativePlanDraft}
    {item : InitiativeItem} (h : item ∈ preserved initiative draft) :
    item ∈ initiative.items ∧ item.id ∉ draftItemIds draft := by
  rcases List.mem_filter.mp h with ⟨hmem, hkeep⟩
  exact ⟨hmem, (of_decide_eq_true hkeep).left⟩

/-!
## Settled items stay settled
-/

theorem isActive_not_terminal {status : InitiativeItemStatus}
    (h : status.isActive = true) : status.isTerminal = false := by
  cases status <;> simp_all [InitiativeItemStatus.isActive, InitiativeItemStatus.isTerminal]

theorem reconcileItem_settled {item : InitiativeItem} (block : Option TaskBlock)
    (h : item.status.isTerminal = true) : reconcileItem item block = item := by
  have hactive : item.status.isActive = false := by
    cases hactive : item.status.isActive with
    | false => rfl
    | true =>
        rw [isActive_not_terminal hactive] at h
        cases h
  simp [reconcileItem, hactive]

/-- What reconciliation never touches. -/
theorem reconcileItem_plan (item : InitiativeItem) (block : Option TaskBlock) :
    (reconcileItem item block).id = item.id ∧
      (reconcileItem item block).phaseId = item.phaseId ∧
      (reconcileItem item block).dependsOn = item.dependsOn := by
  unfold reconcileItem
  split
  · exact ⟨rfl, rfl, rfl⟩
  · split
    · exact ⟨rfl, rfl, rfl⟩
    · simp only
      split <;> exact ⟨rfl, rfl, rfl⟩

/-!
## What a successful edit did
-/

theorem assertCurationAllowed_ok {initiative : Initiative}
    (h : assertCurationAllowed initiative = .ok ()) : initiative.status = .executing := by
  unfold assertCurationAllowed at h
  split at h
  · cases h
  · rename_i hstatus
    simpa using hstatus

theorem unknownDependency_none {initiative : Initiative} {dependsOn : List String}
    (h : unknownDependency initiative dependsOn = none) :
    forall dep, dep ∈ dependsOn -> dep ∈ initiative.items.map InitiativeItem.id := by
  intro dep hdep
  have hcheck := List.findSome?_eq_none_iff.mp h dep hdep
  by_contra hunknown
  simp only [hunknown, not_false_eq_true, if_true, reduceCtorEq] at hcheck

theorem applyPromoteFollowUp_ok {followUpId : String} {input : PromoteInitiativeFollowUpInput}
    (h : applyPromoteFollowUp initiative followUpId input = .ok result) :
    initiative.status = .executing ∧
      exists followUp,
        (initiative.followUps.find? fun f => f.id = followUpId) = some followUp ∧
        ((followUp.status ≠ .open ∧ result = initiative) ∨
          (followUp.status = .open ∧
            input.phaseId ∈ initiative.phases.map InitiativePhase.id ∧
            result =
              { initiative with
                items := initiative.items ++ [promotedItem initiative followUp input]
                followUps := initiative.followUps.map fun f =>
                  if f.id = followUpId then
                    { f with
                      status := .promoted
                      promotedItemId := some (promotedItemId initiative followUp input) }
                  else f })) := by
  unfold applyPromoteFollowUp at h
  split at h
  · cases h
  · rename_i hallowed
    refine ⟨assertCurationAllowed_ok hallowed, ?_⟩
    split at h
    · cases h
    · rename_i followUp hfind
      refine ⟨followUp, hfind, ?_⟩
      split at h
      · rename_i hsettled
        cases h
        exact Or.inl ⟨hsettled, rfl⟩
      · rename_i hopen
        split at h
        · cases h
        · rename_i hphase
          split at h
          · cases h
          · cases h
            exact Or.inr ⟨by simpa using hopen, by simpa using hphase, rfl⟩

theorem applyPromoteFollowUp_dependencies {followUpId : String}
    {input : PromoteInitiativeFollowUpInput} {followUp : InitiativeFollowUp}
    (h : applyPromoteFollowUp initiative followUpId input = .ok result)
    (hfind : (initiative.followUps.find? fun f => f.id = followUpId) = some followUp)
    (hopen : followUp.status = .open) :
    forall dep, dep ∈ input.dependsOn.getD [] ->
      dep ∈ initiative.items.map InitiativeItem.id := by
  unfold applyPromoteFollowUp at h
  split at h
  · cases h
  · rw [hfind] at h
    simp only [hopen, ne_eq, not_true_eq_false, if_false] at h
    split at h
    · cases h
    · split at h
      · cases h
      · rename_i hknown
        exact unknownDependency_none hknown

/-- A dismissal changes follow-ups only. -/
theorem applyDismissFollowUp_ok {followUpId : String}
    (h : applyDismissFollowUp initiative followUpId = .ok result) :
    exists followUps, result = { initiative with followUps := followUps } := by
  unfold applyDismissFollowUp at h
  split at h
  · cases h
  · split at h
    · cases h
    · split at h
      · cases h
        exact ⟨initiative.followUps, rfl⟩
      · cases h
        exact ⟨_, rfl⟩

theorem applyPolicyEdit_ok {policy : InitiativeExecutionPolicy}
    (h : applyPolicyEdit initiative policy = .ok result) :
    result = { initiative with policy := some policy } := by
  unfold applyPolicyEdit at h
  split at h
  · cases h
  · cases h
    rfl

/-- The three ways an accepted edit leaves an item's status. -/
inductive EditedStatus (item : InitiativeItem) (action : Option ItemAction)
    (next : InitiativeItem) : Prop where
  | kept : action = none -> next.status = item.status ->
      next.blockId = item.blockId -> EditedStatus item action next
  | skipped : action = some .skip -> item.isEditable = true ->
      next.status = .skipped -> next.blockId = item.blockId ->
      EditedStatus item action next
  | retried : action = some .retry -> item.status = .blocked ->
      next.status = .pending -> next.blockId = none -> EditedStatus item action next

structure EditedItem (item : InitiativeItem) (input : UpdateInitiativeItemInput)
    (next : InitiativeItem) : Prop where
  id : next.id = item.id
  phaseId : next.phaseId = item.phaseId
  dependsOn : next.dependsOn = input.dependsOn.getD item.dependsOn
  status : EditedStatus item input.action next

theorem editedItem_ok {item next : InitiativeItem} {itemId : String}
    {input : UpdateInitiativeItemInput} (h : editedItem item itemId input = .ok next) :
    EditedItem item input next := by
  unfold editedItem at h
  simp only at h
  split at h
  · rename_i haction
    split at h
    · cases h
    · rename_i heditable
      cases h
      exact ⟨rfl, rfl, rfl, .skipped haction (by simpa using heditable) rfl rfl⟩
  · rename_i haction
    split at h
    · cases h
    · rename_i hblocked
      cases h
      exact ⟨rfl, rfl, rfl, .retried haction (by simpa using hblocked) rfl rfl⟩
  · rename_i haction
    cases h
    exact ⟨rfl, rfl, rfl, .kept haction rfl rfl⟩

theorem applyItemEdit_ok {itemId : String} {input : UpdateInitiativeItemInput}
    (h : applyItemEdit initiative itemId input = .ok result) :
    initiative.status = .executing ∧
      exists item next, item ∈ initiative.items ∧ item.id = itemId ∧
        EditedItem item input next ∧
        (input.hasContentEdit = true -> item.isEditable = true) ∧
        result = { initiative with items := replaceItem initiative itemId next } ∧
        (input.dependsOn ≠ none ->
          assertAcyclicItems (result.items.map fun i => (i.id, i.dependsOn)) = .ok ()) := by
  unfold applyItemEdit at h
  split at h
  · cases h
  · rename_i hallowed
    refine ⟨assertCurationAllowed_ok hallowed, ?_⟩
    split at h
    · cases h
    · rename_i item hfind
      have hmem := List.mem_of_find?_eq_some hfind
      have hid := List.find?_some hfind
      split at h
      · cases h
      · rename_i heditable
        split at h
        · cases h
        · split at h
          · cases h
          · rename_i next hnext
            have hedit : input.hasContentEdit = true -> item.isEditable = true := by
              intro hcontent
              simpa [hcontent] using heditable
            refine ⟨item, next, hmem, by simpa using hid, editedItem_ok hnext, hedit, ?_⟩
            simp only at h
            split at h
            · rename_i hdeps
              cases h
              exact ⟨rfl, fun hne => absurd hdeps hne⟩
            · split at h
              · cases h
              · rename_i hacyclic
                cases h
                exact ⟨rfl, fun _ => hacyclic⟩

/-!
## What a harvest notes
-/

/-- The item whose task settled. -/
def harvestOwner (initiative : Initiative) (harvest : InitiativeRunHarvest) :
    Option InitiativeItem :=
  initiative.items.find? fun i => i.blockId = some harvest.childBlockId

/-- An item with the failure noted, if it is the owner of a failed run; what the owner
has noted already is not noted again. -/
def notedItem (owner : Option InitiativeItem) (failure : Option RunFailureCause)
    (item : InitiativeItem) : InitiativeItem :=
  match owner, failure with
  | some owner, some failure =>
      if owner.note ≠ some (failureNote failure) ∧ item.id = owner.id then
        { item with note := some (failureNote failure) }
      else item
  | _, _ => item

/-- Nothing but the note of an item changes. -/
theorem notedItem_eq (owner : Option InitiativeItem) (failure : Option RunFailureCause)
    (item : InitiativeItem) :
    notedItem owner failure item = { item with note := (notedItem owner failure item).note } := by
  unfold notedItem
  split
  · split
    · rfl
    · rfl
  · rfl

theorem applyRunHarvest_items (initiative : Initiative) (harvest : InitiativeRunHarvest)
    (now : Nat) :
    (applyRunHarvest initiative harvest now).items =
      initiative.items.map (notedItem (harvestOwner initiative harvest) harvest.failure) := by
  unfold applyRunHarvest harvestOwner
  simp only
  cases initiative.items.find? fun i => i.blockId = some harvest.childBlockId with
  | none =>
      have hsame : notedItem none harvest.failure = id := rfl
      rw [hsame, List.map_id]
  | some owner =>
      cases harvest.failure with
      | none =>
          have hsame : notedItem (some owner) none = id := rfl
          rw [hsame, List.map_id]
      | some failure =>
          simp only
          split
          · rename_i hnew
            apply List.map_congr_left
            intro item _
            simp only [notedItem, ne_eq, hnew, not_false_eq_true, true_and]
          · rename_i hnoted
            have hsame : notedItem (some owner) (some failure) = id := by
              funext item
              simp only [notedItem, not_not.mp hnoted, ne_eq, not_true_eq_false, false_and,
                if_false, id]
            rw [hsame, List.map_id]

end Initiatives
end CatFactory
