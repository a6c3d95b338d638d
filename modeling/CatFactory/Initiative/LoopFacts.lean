import CatFactory.Initiative.Facts
import CatFactory.Initiative.Loop

/-!
# What one write of the loop can do

Every write goes through the same guarded loop, so it is enough to know what
each transform does to the items, and that a write that lands was computed
from the row it replaces.
-/

namespace CatFactory
namespace Initiatives

open Foundation

variable {current next : Initiative}

def Initiative.ids (initiative : Initiative) : List String :=
  initiative.items.map InitiativeItem.id

/-!
## Moves of an item
-/

/-- The item's place in the loop is untouched. -/
def Kept (x y : InitiativeItem) : Prop :=
  y.status = x.status ∧ y.blockId = x.blockId

def Edit.isRetry : Edit -> Bool
  | .updateItem _ input => input.action = some .retry
  | _ => false

def knownBlock (blocks : List TaskBlock) (blockId : String) : Prop :=
  blockId ∈ blocks.map TaskBlock.id

/-- How a transform may move an item's status and link. -/
def Task.itemMove (x y : InitiativeItem) : Task -> Prop
  | .edit op =>
      Kept x y ∨ (y.status = .skipped ∧ y.blockId = x.blockId) ∨
        (op.isRetry = true ∧ x.status = .blocked ∧ y.status = .pending ∧
          y.blockId = none)
  | .reconcile blocks =>
      Kept x y ∨
        (x.status.isActive = true ∧ exists blockId, x.blockId = some blockId ∧
          ((knownBlock blocks blockId ∧ y.blockId = some blockId ∧ y.status ≠ .pending) ∨
            (¬ knownBlock blocks blockId ∧ y.status = .pending ∧ y.blockId = none)))
  | .pauseAtCheckpoint _ => Kept x y
  | .complete => Kept x y
  | .claim _ item blockId =>
      (x.id = item.id ∧ x.status = .pending ∧ y.status = .inProgress ∧
        y.blockId = some blockId) ∨
      (¬ (x.id = item.id ∧ x.status = .pending) ∧ Kept x y)
  | .blockItem _ item _ =>
      (x.id = item.id ∧ y.status = .blocked ∧ y.blockId = none) ∨
        (x.id ≠ item.id ∧ Kept x y)
  | .revert _ item blockId =>
      (x.id = item.id ∧ x.blockId = some blockId ∧ x.status = .inProgress ∧
        y.status = .pending ∧ y.blockId = none) ∨ Kept x y

/-- A fresh item, as the plan and a promotion add them. -/
def Added (current : Initiative) (y : InitiativeItem) : Prop :=
  y.status = .pending ∧ y.blockId = none ∧ y.id ∉ current.ids

/-- What a transform does to the items. -/
structure Writes (task : Task) (current next : Initiative) : Prop where
  distinct : next.ids.Nodup
  moves : forall y, y ∈ next.items ->
    Added current y ∨ exists x, x ∈ current.items ∧ x.id = y.id ∧ task.itemMove x y
  keeps : forall x, x ∈ current.items -> (x.blockId ≠ none ∨ x.status ≠ .pending) ->
    exists y, y ∈ next.items ∧ y.id = x.id

theorem writes_of_map {task : Task} (hdistinct : current.ids.Nodup)
    {f : InitiativeItem -> InitiativeItem} (hitems : next.items = current.items.map f)
    (hid : forall x, x ∈ current.items -> (f x).id = x.id)
    (hmove : forall x, x ∈ current.items -> task.itemMove x (f x)) :
    Writes task current next := by
  constructor
  · have hids : next.ids = current.ids := by
      unfold Initiative.ids
      rw [hitems, List.map_map]
      exact List.map_congr_left hid
    rw [hids]
    exact hdistinct
  · intro y hy
    rw [hitems] at hy
    rcases List.mem_map.mp hy with ⟨x, hx, rfl⟩
    exact Or.inr ⟨x, hx, (hid x hx).symm, hmove x hx⟩
  · intro x hx _
    refine ⟨f x, ?_, hid x hx⟩
    rw [hitems]
    exact List.mem_map.mpr ⟨x, hx, rfl⟩

theorem writes_of_same {task : Task} (hdistinct : current.ids.Nodup)
    (hitems : next.items = current.items)
    (hmove : forall x, task.itemMove x x) : Writes task current next :=
  writes_of_map hdistinct (hitems.trans (List.map_id _).symm) (fun _ _ => rfl)
    fun x _ => hmove x

/-!
## The edits
-/

theorem ingestPlan_writes {draft : InitiativePlanDraft} {now : Nat}
    (hdistinct : current.ids.Nodup) (h : ingestPlan current draft now = .ok next) :
    Writes (.edit (.ingestPlan draft)) current next := by
  unfold ingestPlan at h
  split at h
  · cases h
  · rename_i hvalid
    cases h
    have hvalid := draftValid_of_validatePlanDraft hvalid
    constructor
    · unfold Initiative.ids applyPlanDraft
      rw [List.map_append, draftItems_ids, List.nodup_append]
      refine ⟨assignIds_nodup hvalid.itemIds fun _ hx => hx, ?_, ?_⟩
      · exact hdistinct.sublist (List.filter_sublist.map _)
      · intro a ha b hb heq
        rcases List.mem_map.mp hb with ⟨item, hitem, rfl⟩
        exact (mem_preserved hitem).right (heq ▸ ha)
    · intro y hy
      rcases List.mem_append.mp hy with hnew | hold
      · rcases mem_draftItems hnew with ⟨d, _, heq, _, _⟩
        cases hprior : byId InitiativeItem.id current.items y.id with
        | none =>
            apply Or.inl
            rw [heq]
            refine ⟨by simp [draftItem, hprior], by simp [draftItem, hprior], ?_⟩
            intro hmem
            rcases List.mem_map.mp hmem with ⟨x, hx, hxId⟩
            have hnone := List.find?_eq_none.mp hprior x (by simpa using hx)
            exact hnone (by simpa [draftItem] using hxId)
        | some x =>
            rcases byId_some hprior with ⟨hx, hxId⟩
            refine Or.inr ⟨x, hx, hxId, Or.inl ?_⟩
            rw [heq]
            exact ⟨by simp [draftItem, hprior], by simp [draftItem, hprior]⟩
      · exact Or.inr ⟨y, (mem_preserved hold).left, rfl, Or.inl ⟨rfl, rfl⟩⟩
    · intro x hx hspawned
      by_cases hdraft : x.id ∈ draftItemIds draft
      · rw [← draftItems_ids current draft] at hdraft
        rcases List.mem_map.mp hdraft with ⟨y, hy, hid⟩
        exact ⟨y, List.mem_append_left _ hy, hid⟩
      · refine ⟨x, List.mem_append_right _ ?_, rfl⟩
        exact List.mem_filter.mpr ⟨hx, by simpa using ⟨hdraft, hspawned⟩⟩

theorem promoteFollowUp_writes {followUpId : String} {input : PromoteInitiativeFollowUpInput}
    (hdistinct : current.ids.Nodup)
    (h : applyPromoteFollowUp current followUpId input = .ok next) :
    Writes (.edit (.promoteFollowUp followUpId input)) current next := by
  rcases applyPromoteFollowUp_ok h with ⟨_, followUp, _, ⟨_, rfl⟩ | ⟨_, _, rfl⟩⟩
  · exact writes_of_same hdistinct rfl fun _ => Or.inl ⟨rfl, rfl⟩
  · have hfresh : promotedItemId current followUp input ∉ current.ids :=
      uniqueSlugId_not_mem _ _
    constructor
    · unfold Initiative.ids
      rw [List.map_append, List.nodup_append]
      refine ⟨hdistinct, by simp, ?_⟩
      intro a ha b hb heq
      have hb : b = promotedItemId current followUp input := by
        simpa [promotedItem] using hb
      exact hfresh (hb ▸ heq ▸ ha)
    · intro y hy
      rcases List.mem_append.mp hy with hold | hnew
      · exact Or.inr ⟨y, hold, rfl, Or.inl ⟨rfl, rfl⟩⟩
      · have heq : y = promotedItem current followUp input := by simpa using hnew
        rw [heq]
        exact Or.inl ⟨rfl, rfl, hfresh⟩
    · intro x hx _
      exact ⟨x, List.mem_append_left _ hx, rfl⟩

theorem updateItem_writes {itemId : String} {input : UpdateInitiativeItemInput}
    (hdistinct : current.ids.Nodup) (h : applyItemEdit current itemId input = .ok next) :
    Writes (.edit (.updateItem itemId input)) current next := by
  rcases applyItemEdit_ok h with ⟨_, item, edited, hmem, hid, hedited, _, rfl, _⟩
  apply writes_of_map hdistinct rfl
  · intro x hx
    split
    · rename_i hxId
      rw [hedited.id, hid, hxId]
    · rfl
  · intro x hx
    split
    · rename_i hxId
      have hx : x = item := eq_of_key_eq hdistinct hx hmem (hxId.trans hid.symm)
      rw [hx]
      cases hedited.status with
      | kept _ hstatus hblock => exact Or.inl ⟨hstatus, hblock⟩
      | skipped _ _ hstatus hblock => exact Or.inr (Or.inl ⟨hstatus, hblock⟩)
      | retried haction hblocked hstatus hblock =>
          exact Or.inr (Or.inr ⟨by simp [Edit.isRetry, haction], hblocked, hstatus, hblock⟩)
    · exact Or.inl ⟨rfl, rfl⟩

theorem resume_items (current : Initiative) (now : Nat) :
    (resume current now).items = current.items := by
  unfold resume
  split
  · rfl
  · split <;> rfl

theorem runHarvest_writes {current : Initiative} (hdistinct : current.ids.Nodup)
    (harvest : InitiativeRunHarvest) (now : Nat) :
    Writes (.edit (.runHarvest harvest)) current (applyRunHarvest current harvest now) := by
  apply writes_of_map hdistinct (applyRunHarvest_items current harvest now)
  · intro x _
    rw [notedItem_eq]
  · intro x _
    rw [notedItem_eq]
    exact Or.inl ⟨rfl, rfl⟩

theorem edit_writes {op : Edit} {now : Nat} (hdistinct : current.ids.Nodup)
    (h : op.transform now current = .ok next) :
    Writes (.edit op) current next := by
  have hkept : forall x, Task.itemMove x x (.edit op) := fun _ => Or.inl ⟨rfl, rfl⟩
  cases op with
  | ingestPlan draft => exact ingestPlan_writes hdistinct h
  | markExecuting doc =>
      cases h
      exact writes_of_same hdistinct rfl hkept
  | pause =>
      cases h
      refine writes_of_same hdistinct ?_ hkept
      unfold pause
      split <;> rfl
  | resume =>
      cases h
      exact writes_of_same hdistinct (resume_items current now) hkept
  | cancel =>
      cases h
      refine writes_of_same hdistinct ?_ hkept
      unfold cancel
      split <;> rfl
  | promoteFollowUp followUpId input => exact promoteFollowUp_writes hdistinct h
  | dismissFollowUp followUpId =>
      rcases applyDismissFollowUp_ok h with ⟨followUps, rfl⟩
      exact writes_of_same hdistinct rfl hkept
  | updateItem itemId input => exact updateItem_writes hdistinct h
  | updatePolicy policy =>
      rw [applyPolicyEdit_ok h]
      exact writes_of_same hdistinct rfl hkept
  | runHarvest harvest =>
      cases h
      exact runHarvest_writes hdistinct harvest now

/-!
## The loop's own transforms
-/

theorem reconcileWith_id (blocks : List TaskBlock) (item : InitiativeItem) :
    (reconcileWith blocks item).id = item.id := by
  unfold reconcileWith
  split
  · exact (reconcileItem_plan item _).left
  · rfl

theorem reconcileWith_move (blocks : List TaskBlock) (x : InitiativeItem) :
    Task.itemMove x (reconcileWith blocks x) (.reconcile blocks) := by
  unfold reconcileWith
  split
  · rename_i blockId hlink
    have hblock : x.blockId = some blockId := by
      unfold truthy at hlink
      exact (Option.filter_eq_some_iff.mp hlink).left
    cases hactive : x.status.isActive with
    | false => exact Or.inl (by simp [reconcileItem, hactive, Kept])
    | true =>
        refine Or.inr ⟨hactive, blockId, hblock, ?_⟩
        cases hfind : blocks.find? fun b => b.id = blockId with
        | none =>
            apply Or.inr
            refine ⟨?_, by simp [reconcileItem, hactive], by simp [reconcileItem, hactive]⟩
            intro hknown
            rcases List.mem_map.mp hknown with ⟨b, hb, hid⟩
            have hnone := List.find?_eq_none.mp hfind b hb
            exact hnone (by simpa using hid)
        | some b =>
            have hid := List.find?_some hfind
            have hmem := List.mem_of_find?_eq_some hfind
            apply Or.inl
            refine ⟨List.mem_map.mpr ⟨b, hmem, by simpa using hid⟩, ?_, ?_⟩
            · unfold reconcileItem
              simp only [hactive, Bool.not_true, Bool.false_eq_true, if_false]
              split <;> exact hblock
            · unfold reconcileItem
              simp only [hactive, Bool.not_true, Bool.false_eq_true, if_false]
              split <;> simp
  · exact Or.inl ⟨rfl, rfl⟩

theorem transform_writes {task : Task} {io : Io} (hdistinct : current.ids.Nodup)
    (h : task.transform io current = .ok next) :
    Writes task current next := by
  cases task with
  | edit op => exact edit_writes hdistinct h
  | reconcile blocks =>
      cases h
      exact writes_of_map hdistinct rfl (fun x _ => reconcileWith_id blocks x)
        fun x _ => reconcileWith_move blocks x
  | pauseAtCheckpoint phaseId =>
      cases h
      refine writes_of_same hdistinct ?_ fun _ => ⟨rfl, rfl⟩
      unfold pauseAtCheckpoint
      split
      · rfl
      · split
        · split <;> rfl
        · rfl
  | complete =>
      cases h
      refine writes_of_same hdistinct ?_ fun _ => ⟨rfl, rfl⟩
      unfold complete
      split <;> rfl
  | claim pass item blockId =>
      cases h
      apply writes_of_map hdistinct rfl
      · intro x _
        split <;> rfl
      · intro x _
        split
        · rename_i hclaim
          exact Or.inl ⟨hclaim.left, hclaim.right, rfl, rfl⟩
        · rename_i hother
          exact Or.inr ⟨hother, rfl, rfl⟩
  | blockItem pass item note =>
      cases h
      apply writes_of_map hdistinct rfl
      · intro x _
        split <;> rfl
      · intro x _
        split
        · rename_i hid
          exact Or.inl ⟨hid, rfl, rfl⟩
        · rename_i hid
          exact Or.inr ⟨hid, rfl, rfl⟩
  | revert pass item blockId =>
      cases h
      apply writes_of_map hdistinct rfl
      · intro x _
        split <;> rfl
      · intro x _
        split
        · rename_i hown
          exact Or.inl ⟨hown.left, hown.right.right, hown.right.left, rfl, rfl⟩
        · exact Or.inr ⟨rfl, rfl⟩

/-!
## A round of the guarded write
-/

/-- The row as a write that lands persists it. -/
def persisted (io : Io) (current next : Initiative) : Initiative :=
  { next with rev := current.rev + 1, updatedAt := io.now }

theorem Writes.persisted {task : Task} (h : Writes task current next) (io : Io)
    (seen : Initiative) :
    Writes task current (Initiatives.persisted io seen next) :=
  ⟨h.distinct, h.moves, h.keeps⟩

/-- A write that lands, told by the process that makes it. -/
structure Lands (s : Shared) (io : Io) (task : Task) (current next : Initiative) :
    Prop where
  transform : task.transform io current = .ok next
  unmoved : current.rev = s.row.rev

inductive Attempted (s : Shared) (io : Io) (task : Task) (attempt : Nat)
    (current : Initiative) : Shared × Option Pc -> Prop where
  | gaveUp : Attempted s io task attempt current (s, none)
  | unchanged : Attempted s io task attempt current (s, task.finish current)
  | again : Attempted s io task attempt current
      (s, some (.updating task (attempt + 1) none))
  | landed {next : Initiative} : Lands s io task current next ->
      Attempted s io task attempt current
        ({ s with row := persisted io current next },
          task.finish (persisted io current next))

theorem attemptWrite_attempted (s : Shared) (io : Io) (task : Task) (attempt : Nat)
    (current : Initiative) :
    Attempted s io task attempt current (attemptWrite s io task attempt current) := by
  unfold attemptWrite
  split
  · exact Attempted.gaveUp
  · rename_i next htransform
    split
    · exact Attempted.unchanged
    · split
      · rename_i row hcas
        unfold compareAndSwap at hcas
        simp only at hcas
        split at hcas
        · rename_i hrev
          cases hcas
          exact Attempted.landed ⟨htransform, hrev.symm⟩
        · cases hcas
      · split
        · exact Attempted.again
        · exact Attempted.gaveUp

theorem Lands.current_eq {s : Shared} {io : Io} {task : Task} (h : Lands s io task current next)
    (hseen : Snapshot Initiative.rev s.row current) : current = s.row :=
  hseen.same_of_rev h.unmoved

theorem snapshot_persisted {s : Shared} {io : Io} {task : Task}
    {current next seen : Initiative} (h : Lands s io task current next)
    (hseen : Snapshot Initiative.rev s.row seen) :
    Snapshot Initiative.rev (Initiatives.persisted io current next) seen := by
  apply hseen.moved
  have hrev : (Initiatives.persisted io current next).rev = current.rev + 1 := rfl
  rw [hrev, h.unmoved]
  exact Nat.lt_succ_self _

theorem chooseItem_row {s s' : Shared} {io : Io} {pass : Pass} {next : Option Pc}
    (h : chooseItem s io pass = some (s', next)) : s'.row = s.row ∧ s'.board = s.board := by
  unfold chooseItem at h
  split at h
  · cases h
    exact ⟨rfl, rfl⟩
  · split at h
    · cases h
      exact ⟨rfl, rfl⟩
    · simp only at h
      split at h
      · cases h
        exact ⟨rfl, rfl⟩
      · split at h
        · cases h
          exact ⟨rfl, rfl⟩
        · split at h
          · cases h
          · cases h
            exact ⟨rfl, rfl⟩

/-- Only a guarded write that lands moves the row. -/
theorem advance_row {s s' : Shared} {io : Io} {pc : Pc} {next : Option Pc}
    (h : advance s io pc = some (s', next)) :
    s'.row = s.row ∨
      exists task attempt current written,
        pc = .updating task attempt (some current) ∧
        Lands s io task current written ∧
        s'.row = persisted io current written := by
  cases pc with
  | opening =>
      simp only [advance] at h
      split at h <;> cases h <;> exact Or.inl rfl
  | reading initiative =>
      simp only [advance] at h
      split at h <;> cases h <;> exact Or.inl rfl
  | updating task attempt current =>
      cases current with
      | none =>
          cases h
          exact Or.inl rfl
      | some current =>
          have hattempted := attemptWrite_attempted s io task attempt current
          rw [Option.some.inj h] at hattempted
          cases hattempted with
          | gaveUp => exact Or.inl rfl
          | unchanged => exact Or.inl rfl
          | again => exact Or.inl rfl
          | landed hlands => exact Or.inr ⟨task, attempt, current, _, rfl, hlands, rfl⟩
  | preparing pass =>
      simp only [advance] at h
      split at h <;> cases h <;> exact Or.inl rfl
  | choosing pass => exact Or.inl (chooseItem_row h).left
  | inserting pass item blockId =>
      simp only [advance] at h
      split at h <;> cases h <;> exact Or.inl rfl
  | starting pass item blockId =>
      simp only [advance] at h
      split at h <;> cases h <;> exact Or.inl rfl
  | rollingBack pass item blockId failure =>
      cases h
      exact Or.inl rfl

/-!
## Processes
-/

theorem procAt_mem {procs : List (Nat × Pc)} {p : Nat} {pc : Pc}
    (h : procAt procs p = some pc) : (p, pc) ∈ procs := by
  unfold procAt at h
  rcases Option.map_eq_some_iff.mp h with ⟨entry, hfind, rfl⟩
  have hid := List.find?_some hfind
  have hmem := List.mem_of_find?_eq_some hfind
  have hp : entry.1 = p := by simpa using hid
  rw [← hp]
  exact hmem

theorem mem_setProc {procs : List (Nat × Pc)} {p q : Nat} {next : Option Pc} {pc : Pc}
    (h : (q, pc) ∈ setProc procs p next) :
    (q = p ∧ next = some pc) ∨ (q ≠ p ∧ (q, pc) ∈ procs) := by
  unfold setProc at h
  simp only at h
  split at h
  · rename_i pc'
    rcases List.mem_cons.mp h with heq | hold
    · cases heq
      exact Or.inl ⟨rfl, rfl⟩
    · rcases List.mem_filter.mp hold with ⟨hmem, hne⟩
      exact Or.inr ⟨by simpa using hne, hmem⟩
  · rcases List.mem_filter.mp h with ⟨hmem, hne⟩
    exact Or.inr ⟨by simpa using hne, hmem⟩

/-- An invariant of the shared state and of each process on its own: it is
enough that the acting process keeps its own part and disturbs no other. -/
structure LocalInvariant (R : Shared -> Prop) (P : Shared -> Pc -> Prop) : Prop where
  opening : forall s, P s .opening
  edit : forall s op, P s (.updating (.edit op) 0 none)
  board : forall s board, R s -> R { s with board := board }
  boardProc : forall s board pc, P s pc -> P { s with board := board } pc
  acts : forall s io pc s' next, R s -> P s pc -> advance s io pc = some (s', next) ->
    R s' ∧ (forall pc', next = some pc' -> P s' pc') ∧ forall other, P s other -> P s' other

def World.Holds (R : Shared -> Prop) (P : Shared -> Pc -> Prop) (w : World) : Prop :=
  R w.shared ∧ forall p pc, (p, pc) ∈ w.procs -> P w.shared pc

theorem LocalInvariant.step {R : Shared -> Prop} {P : Shared -> Pc -> Prop}
    (h : LocalInvariant R P) {w w' : World} {a : Action} (hw : w.Holds R P)
    (hstep : step w a = some w') : w'.Holds R P := by
  have hopen : forall p pc, P w.shared pc -> openProc w p pc = some w' -> w'.Holds R P := by
    intro p pc hpc hopened
    unfold openProc at hopened
    split at hopened
    · cases hopened
    · cases hopened
      refine ⟨hw.left, ?_⟩
      intro q other (hother : (q, other) ∈ setProc w.procs p (some pc))
      rcases mem_setProc hother with ⟨_, heq⟩ | ⟨_, hold⟩
      · cases heq
        exact hpc
      · exact hw.right q other hold
  cases a with
  | openTick p => exact hopen p _ (h.opening _) hstep
  | openEdit p op => exact hopen p _ (h.edit _ op) hstep
  | advance p io =>
      simp only [Initiatives.step] at hstep
      split at hstep
      · cases hstep
      · rename_i pc hproc
        split at hstep
        · cases hstep
        · rename_i shared next hadvance
          cases hstep
          have hpc := hw.right p pc (procAt_mem hproc)
          rcases h.acts _ _ _ _ _ hw.left hpc hadvance with ⟨hR, hnext, hothers⟩
          refine ⟨hR, ?_⟩
          intro q other hother
          rcases mem_setProc hother with ⟨_, heq⟩ | ⟨_, hold⟩
          · exact hnext other heq
          · exact hothers other (hw.right q other hold)
  | crash p =>
      cases hstep
      refine ⟨hw.left, ?_⟩
      intro q other (hother : (q, other) ∈ setProc w.procs p none)
      rcases mem_setProc hother with ⟨_, heq⟩ | ⟨_, hold⟩
      · cases heq
      · exact hw.right q other hold
  | moveBlock id status pullRequest =>
      cases hstep
      exact ⟨h.board _ _ hw.left, fun p pc hpc => h.boardProc _ _ _ (hw.right p pc hpc)⟩
  | deleteBlock id =>
      cases hstep
      exact ⟨h.board _ _ hw.left, fun p pc hpc => h.boardProc _ _ _ (hw.right p pc hpc)⟩

end Initiatives
end CatFactory
