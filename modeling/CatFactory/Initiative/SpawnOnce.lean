import CatFactory.Initiative.SpawnGuard

/-!
# At most one spawned task per item

A spawned task is on the board from its insert on, and its item is linked to
it from the claim before.  Reconciliation unlinks an item whose block it does
not know, so what has to be kept out is a block map older than an insert, and
an insert that a reconciliation overtakes.
-/

namespace CatFactory
namespace Initiatives

open Foundation

variable {blockId : String} {attempt : Nat} {s : Shared} {io : Io}

/-!
## Links and holders
-/

/-- The item is linked to the block and cannot be claimed again. -/
def Linked (row : Initiative) (itemId blockId : String) : Prop :=
  exists item, item ∈ row.items ∧ item.id = itemId ∧ item.blockId = some blockId ∧
    item.status ≠ .pending

def Unlinked (row : Initiative) (blockId : String) : Prop :=
  forall item, item ∈ row.items -> item.blockId ≠ some blockId

def OnBoard (s : Shared) (blockId : String) : Prop :=
  blockId ∈ s.board.map fun t => t.block.id

instance (s : Shared) (blockId : String) : Decidable (OnBoard s blockId) :=
  inferInstanceAs (Decidable (_ ∈ _))

/-- The block identifier that a write or a process has minted for itself. -/
def Task.heldBlock : Task -> Option String
  | .claim _ _ blockId => some blockId
  | .revert _ _ blockId => some blockId
  | _ => none

def Pc.heldBlock : Pc -> Option String
  | .updating task _ _ => task.heldBlock
  | .inserting _ _ blockId => some blockId
  | .starting _ _ blockId => some blockId
  | .rollingBack _ _ blockId _ => some blockId
  | _ => none

/-!
## Steps that disturb no spawned task
-/

/-- No human retry and no deletion of a block. -/
def SpawnDomain : Action -> Bool
  | .openEdit _ op => !op.isRetry
  | .deleteBlock _ => false
  | _ => true

/-- What an action asks of the shared state: a reconciliation that lands knows
every block on the board that an active item links, the item that a landing
`blockItem` gives up has no task on the board, and an inserted block is rolled
back with success. -/
def StepSafe (s : Shared) (io : Io) : Pc -> Prop
  | .updating (.reconcile blocks) _ (some current) =>
      current.rev = s.row.rev ->
        forall item, item ∈ s.row.items -> item.status.isActive = true ->
          forall blockId, blockId ∈ item.blockId -> OnBoard s blockId ->
            knownBlock blocks blockId
  | .updating (.blockItem _ item _) _ (some current) =>
      current.rev = s.row.rev -> forall t, t ∈ s.board -> t.itemId ≠ item.id
  | .rollingBack _ _ blockId _ => OnBoard s blockId -> io.rollbackOk = true
  | _ => True

/-- What an action asks of another process: no claim waits for its insert while
a reconciliation lands, nor while a `blockItem` lands on its item. -/
def SafeBeside (s : Shared) : Pc -> Pc -> Prop
  | .updating (.reconcile _) _ (some current), .inserting _ _ _ =>
      current.rev ≠ s.row.rev
  | .updating (.blockItem _ item _) _ (some current), .inserting _ other _ =>
      current.rev = s.row.rev -> other.id ≠ item.id
  | _, _ => True

def SpawnSafe (w : World) (a : Action) : Prop :=
  SpawnDomain a = true ∧
    match a with
    | .advance p io =>
        forall pc, pc ∈ procAt w.procs p ->
          StepSafe w.shared io pc ∧
            forall entry, entry ∈ w.procs -> SafeBeside w.shared pc entry.2
    | _ => True

instance (blocks : List TaskBlock) (blockId : String) :
    Decidable (knownBlock blocks blockId) :=
  inferInstanceAs (Decidable (_ ∈ _))

instance (s : Shared) (io : Io) (pc : Pc) : Decidable (StepSafe s io pc) := by
  unfold StepSafe
  split <;> infer_instance

instance (s : Shared) (pc other : Pc) : Decidable (SafeBeside s pc other) := by
  unfold SafeBeside
  split <;> infer_instance

instance (w : World) (a : Action) : Decidable (SpawnSafe w a) := by
  cases a <;> unfold SpawnSafe <;> infer_instance

/-!
## The invariant
-/

structure SharedOnce (s : Shared) : Prop where
  boardDistinct : (s.board.map fun t => t.block.id).Nodup
  boardMinted : forall blockId, OnBoard s blockId -> blockId ∈ s.minted
  linkMinted : forall item, item ∈ s.row.items ->
    forall blockId, item.blockId = some blockId -> blockId ∈ s.minted
  linked : forall t, t ∈ s.board -> Linked s.row t.itemId t.block.id

def PcOnce (s : Shared) : Pc -> Prop
  | .updating (.edit op) _ _ => op.isRetry = false
  | .updating (.claim _ _ blockId) _ current =>
      blockId ∈ s.minted ∧ ¬ OnBoard s blockId ∧ Unlinked s.row blockId ∧
        forall e, current = some e -> Unlinked e blockId
  | .updating (.revert _ _ blockId) _ _ => blockId ∈ s.minted ∧ ¬ OnBoard s blockId
  | .inserting _ item blockId =>
      blockId ∈ s.minted ∧ ¬ OnBoard s blockId ∧ Linked s.row item.id blockId
  | .starting _ _ blockId => blockId ∈ s.minted
  | .rollingBack _ _ blockId _ => blockId ∈ s.minted
  | _ => True

/-- No two processes hold one block identifier. -/
def Apart (a b : Pc) : Prop :=
  forall blockId, a.heldBlock = some blockId -> b.heldBlock ≠ some blockId

structure SpawnOnce (w : World) : Prop where
  shared : SharedOnce w.shared
  proc : forall p pc, (p, pc) ∈ w.procs -> PcOnce w.shared pc
  apart : forall p q pc other, (p, pc) ∈ w.procs -> (q, other) ∈ w.procs -> p ≠ q ->
    Apart pc other

variable {next : Option Pc}

theorem PcOnce.minted {pc : Pc} (h : PcOnce s pc)
    (hheld : pc.heldBlock = some blockId) : blockId ∈ s.minted := by
  cases pc with
  | updating task attempt current =>
      cases task with
      | claim pass item held =>
          cases hheld
          exact h.left
      | revert pass item held =>
          cases hheld
          exact h.left
      | edit op => cases hheld
      | reconcile blocks => cases hheld
      | pauseAtCheckpoint phaseId => cases hheld
      | complete => cases hheld
      | blockItem pass item note => cases hheld
  | inserting pass item held =>
      cases hheld
      exact h.left
  | starting pass item held =>
      cases hheld
      exact h
  | rollingBack pass item held failure =>
      cases hheld
      exact h
  | opening => cases hheld
  | reading initiative => cases hheld
  | preparing pass => cases hheld
  | choosing pass => cases hheld

/-!
## What a landing write leaves linked
-/

/-- A link survives a write that moves its item to no other place. -/
theorem Linked.writes {task : Task} {row next : Initiative} {itemId blockId : String}
    (h : Linked row itemId blockId) (hdistinct : row.ids.Nodup)
    (hwrites : Writes task row next)
    (hmove : forall x y, x ∈ row.items -> x.id = itemId -> x.blockId = some blockId ->
      x.status ≠ .pending -> task.itemMove x y ->
        y.blockId = some blockId ∧ y.status ≠ .pending) : Linked next itemId blockId := by
  rcases h with ⟨x, hx, hid, hlink, hstatus⟩
  rcases hwrites.keeps x hx (Or.inr hstatus) with ⟨y, hy, hyId⟩
  rcases hwrites.moves y hy with ⟨_, _, hnew⟩ | ⟨x', hx', hx'Id, hmoved⟩
  · exact absurd (List.mem_map.mpr ⟨x, hx, hyId.symm⟩) hnew
  · have heq : x' = x := eq_of_key_eq hdistinct hx' hx (hx'Id.trans hyId)
    rw [heq] at hmoved
    rcases hmove x y hx hid hlink hstatus hmoved with ⟨hyLink, hyStatus⟩
    exact ⟨y, hy, hyId.trans hid, hyLink, hyStatus⟩

/-- A link after a write was there before, unless the write is its claim. -/
theorem link_of_writes {task : Task} {row next : Initiative} (hwrites : Writes task row next)
    {y : InitiativeItem} (hy : y ∈ next.items) (hlink : y.blockId = some blockId) :
    (exists x, x ∈ row.items ∧ x.blockId = some blockId) ∨
      exists pass item, task = .claim pass item blockId ∧ y.status = .inProgress := by
  rcases hwrites.moves y hy with ⟨_, hnone, _⟩ | ⟨x, hx, _, hmove⟩
  · rw [hnone] at hlink
    cases hlink
  · have hkept : Kept x y -> exists x, x ∈ row.items ∧ x.blockId = some blockId :=
      fun hkept => ⟨x, hx, hkept.right.symm.trans hlink⟩
    have hdropped : y.blockId ≠ none := by
      rw [hlink]
      simp
    cases task with
    | edit op =>
        rcases hmove with h | ⟨_, hblock⟩ | ⟨_, _, _, hblock⟩
        · exact Or.inl (hkept h)
        · exact Or.inl ⟨x, hx, hblock.symm.trans hlink⟩
        · exact absurd hblock hdropped
    | reconcile blocks =>
        rcases hmove with h | ⟨_, held, hx', ⟨_, hblock, _⟩ | ⟨_, _, hblock⟩⟩
        · exact Or.inl (hkept h)
        · exact Or.inl ⟨x, hx, hx'.trans (hblock.symm.trans hlink)⟩
        · exact absurd hblock hdropped
    | pauseAtCheckpoint phaseId => exact Or.inl (hkept hmove)
    | complete => exact Or.inl (hkept hmove)
    | claim pass item held =>
        rcases hmove with ⟨_, _, hstatus, hblock⟩ | ⟨_, h⟩
        · rw [hblock] at hlink
          cases hlink
          exact Or.inr ⟨pass, item, rfl, hstatus⟩
        · exact Or.inl (hkept h)
    | blockItem pass item note =>
        rcases hmove with ⟨_, _, hblock⟩ | ⟨_, h⟩
        · exact absurd hblock hdropped
        · exact Or.inl (hkept h)
    | revert pass item held =>
        rcases hmove with ⟨_, _, _, _, hblock⟩ | h
        · exact absurd hblock hdropped
        · exact Or.inl (hkept h)

/-- What a task must not do to a link that has to stay. -/
def Spares (s : Shared) (itemId blockId : String) : Task -> Prop
  | .edit op => op.isRetry = false
  | .reconcile blocks =>
      (forall item, item ∈ s.row.items -> item.status.isActive = true ->
        item.blockId = some blockId -> knownBlock blocks blockId)
  | .blockItem _ item _ => itemId ≠ item.id
  | .revert _ _ held => held ≠ blockId
  | _ => True

theorem Spares.linked {task : Task} {next : Initiative} {itemId blockId : String}
    (hspares : Spares s itemId blockId task) (h : Linked s.row itemId blockId)
    (hdistinct : s.row.ids.Nodup)
    (hwrites : Writes task s.row next) : Linked next itemId blockId := by
  apply h.writes hdistinct hwrites
  intro x y hx hid hlink hstatus hmove
  have hkept : Kept x y -> y.blockId = some blockId ∧ y.status ≠ .pending := by
    intro hkept
    rw [hkept.left, hkept.right]
    exact ⟨hlink, hstatus⟩
  cases task with
  | edit op =>
      rcases hmove with h | ⟨hskipped, hblock⟩ | ⟨hretry, _⟩
      · exact hkept h
      · rw [hblock, hskipped]
        exact ⟨hlink, by simp⟩
      · have hno : op.isRetry = false := hspares
        rw [hno] at hretry
        cases hretry
  | reconcile blocks =>
      rcases hmove with h | ⟨hactive, held, hheld, ⟨_, hblock, hnext⟩ | ⟨hunknown, _⟩⟩
      · exact hkept h
      · rw [hblock, ← hheld]
        exact ⟨hlink, hnext⟩
      · rw [hlink] at hheld
        cases hheld
        exact absurd (hspares x hx hactive hlink) hunknown
  | pauseAtCheckpoint phaseId => exact hkept hmove
  | complete => exact hkept hmove
  | claim pass item held =>
      rcases hmove with ⟨_, hpending, _⟩ | ⟨_, h⟩
      · exact absurd hpending hstatus
      · exact hkept h
  | blockItem pass item note =>
      rcases hmove with ⟨hitem, _⟩ | ⟨_, h⟩
      · exact absurd (hid.symm.trans hitem) hspares
      · exact hkept h
  | revert pass item held =>
      rcases hmove with ⟨_, hown, _⟩ | h
      · rw [hlink] at hown
        cases hown
        exact absurd rfl hspares
      · exact hkept h

/-!
## A write that lands
-/

theorem landed_shared {task : Task} {current next : Initiative} (hs : SharedOnce s)
    (hrow : RowSound s) (hpc : PcOnce s (.updating task attempt (some current)))
    (hlands : Lands s io task current next) (hwrites : Writes task s.row next)
    (hsafe : StepSafe s io (.updating task attempt (some current))) :
    SharedOnce { s with row := persisted io current next } where
  boardDistinct := hs.boardDistinct
  boardMinted := hs.boardMinted
  linkMinted := by
    intro y hy blockId hlink
    rcases link_of_writes hwrites hy hlink with ⟨x, hx, hx'⟩ | ⟨pass, item, rfl, _⟩
    · exact hs.linkMinted x hx blockId hx'
    · exact hpc.left
  linked := by
    intro t ht
    have hspares : Spares s t.itemId t.block.id task := by
      have hboard : OnBoard s t.block.id := List.mem_map.mpr ⟨t, ht, rfl⟩
      cases task with
      | edit op => exact hpc
      | reconcile blocks =>
          intro item hitem hactive hlink
          exact hsafe hlands.unmoved item hitem hactive t.block.id hlink hboard
      | pauseAtCheckpoint phaseId => trivial
      | complete => trivial
      | claim pass item held => trivial
      | blockItem pass item note => exact hsafe hlands.unmoved t ht
      | revert pass item held =>
          intro heq
          exact hpc.right (heq ▸ hboard)
    exact hspares.linked (hs.linked t ht) hrow (hwrites.persisted io current)

theorem landed_other {task : Task} {current next : Initiative} (hrow : RowSound s)
    (hpc : PcOnce s (.updating task attempt (some current)))
    (hlands : Lands s io task current next) (hwrites : Writes task s.row next) {other : Pc}
    (hother : PcOnce s other) (hapart : Apart (.updating task attempt (some current)) other)
    (hbeside : SafeBeside s (.updating task attempt (some current)) other) :
    PcOnce { s with row := persisted io current next } other := by
  cases other with
  | updating task' attempt' current' =>
      cases task' with
      | claim pass' item' held' =>
          rcases hother with ⟨hminted, hboard, hunlinked, hseen⟩
          refine ⟨hminted, hboard, ?_, hseen⟩
          intro y hy hlink
          rcases link_of_writes hwrites hy hlink with ⟨x, hx, hx'⟩ | ⟨pass, item, rfl, _⟩
          · exact hunlinked x hx hx'
          · exact hapart held' rfl rfl
      | edit op => exact hother
      | reconcile blocks => exact hother
      | pauseAtCheckpoint phaseId => exact hother
      | complete => exact hother
      | blockItem pass' item' note => exact hother
      | revert pass' item' held' => exact hother
  | inserting pass' item' held' =>
      rcases hother with ⟨hminted, hboard, hlinked⟩
      have hspares : Spares s item'.id held' task := by
        cases task with
        | edit op => exact hpc
        | reconcile blocks => exact absurd hlands.unmoved hbeside
        | pauseAtCheckpoint phaseId => trivial
        | complete => trivial
        | claim pass item held => trivial
        | blockItem pass item note => exact hbeside hlands.unmoved
        | revert pass item held =>
            intro heq
            exact hapart held rfl (congrArg some heq.symm)
      exact ⟨hminted, hboard, hspares.linked hlinked hrow (hwrites.persisted io current)⟩
  | opening => exact hother
  | reading initiative => exact hother
  | preparing pass => exact hother
  | choosing pass => exact hother
  | starting pass item blockId => exact hother
  | rollingBack pass item blockId failure => exact hother

theorem afterReconcile_once {initiative : Initiative} (s : Shared) {pc : Pc}
    (h : afterReconcile initiative = some pc) : PcOnce s pc ∧ pc.heldBlock = none := by
  unfold afterReconcile at h
  split at h
  · cases h
    exact ⟨trivial, rfl⟩
  · split at h
    · cases h
      exact ⟨trivial, rfl⟩
    · unfold spawn at h
      split at h
      · cases h
      · simp only at h
        split at h
        · cases h
        · split at h
          · cases h
          · cases h
            exact ⟨trivial, rfl⟩

theorem PcOnce.offBoard {task : Task} {current : Option Initiative}
    (h : PcOnce s (.updating task attempt current)) (hheld : task.heldBlock = some blockId) :
    blockId ∈ s.minted ∧ ¬ OnBoard s blockId := by
  cases task with
  | claim pass item held =>
      cases hheld
      exact ⟨h.left, h.right.left⟩
  | revert pass item held =>
      cases hheld
      exact h
  | edit op => cases hheld
  | reconcile blocks => cases hheld
  | pauseAtCheckpoint phaseId => cases hheld
  | complete => cases hheld
  | blockItem pass item note => cases hheld

/-- A process that finishes its write keeps at most the block it held; a claim
goes on to its insert only when the row it left behind is linked. -/
theorem finish_once {task : Task} {result : Initiative}
    (hheld : forall blockId, task.heldBlock = some blockId ->
      blockId ∈ s.minted ∧ ¬ OnBoard s blockId)
    (hresult : forall pass item blockId, task = .claim pass item blockId ->
      forall y, y ∈ result.items -> y.blockId = some blockId ->
        y.status ≠ .pending ∧ s.row = result) {pc : Pc} (h : task.finish result = some pc) :
    PcOnce s pc ∧ forall blockId, pc.heldBlock = some blockId ->
      task.heldBlock = some blockId := by
  cases task with
  | edit op => cases h
  | reconcile blocks =>
      rcases afterReconcile_once s h with ⟨honce, hnone⟩
      refine ⟨honce, ?_⟩
      intro blockId hheld
      rw [hnone] at hheld
      cases hheld
  | pauseAtCheckpoint phaseId => cases h
  | complete => cases h
  | claim pass item held =>
      simp only [Task.finish] at h
      split at h
      · cases h
        exact ⟨trivial, by simp [Pc.heldBlock]⟩
      · rename_i found hfind
        split at h
        · cases h
          exact ⟨trivial, by simp [Pc.heldBlock]⟩
        · rename_i hlink
          cases h
          have hid := List.find?_some hfind
          have hmem := List.mem_of_find?_eq_some hfind
          have hlink : found.blockId = some held := by simpa using hlink
          rcases hresult pass item held rfl found hmem hlink with ⟨hstatus, hrow⟩
          rcases hheld held rfl with ⟨hminted, hboard⟩
          refine ⟨⟨hminted, hboard, ?_⟩, fun _ hheld => hheld⟩
          rw [hrow]
          exact ⟨found, hmem, by simpa using hid, hlink, hstatus⟩
  | blockItem pass item note =>
      cases h
      exact ⟨trivial, by simp [Pc.heldBlock]⟩
  | revert pass item held => cases h

/-- A writer may drop what it has in hand, and read the row again. -/
theorem PcOnce.reread {task : Task} {attempt attempt' : Nat} {current seen : Option Initiative}
    (hpc : PcOnce s (.updating task attempt current))
    (hseen : forall e, seen = some e -> e = s.row) :
    PcOnce s (.updating task attempt' seen) := by
  cases task with
  | claim pass item held =>
      refine ⟨hpc.left, hpc.right.left, hpc.right.right.left, ?_⟩
      intro e he
      rw [hseen e he]
      exact hpc.right.right.left
  | edit op => exact hpc
  | reconcile blocks => trivial
  | pauseAtCheckpoint phaseId => trivial
  | complete => trivial
  | blockItem pass item note => trivial
  | revert pass item held => exact hpc

/-- What an action has to leave behind. -/
structure ActsOnce (s s' : Shared) (pc : Pc) (next : Option Pc) : Prop where
  shared : SharedOnce s'
  acting : forall pc', next = some pc' -> PcOnce s' pc'
  held : forall pc', next = some pc' -> forall blockId, pc'.heldBlock = some blockId ->
    pc.heldBlock = some blockId ∨ blockId ∉ s.minted
  other : forall other, PcOnce s other -> Apart pc other -> SafeBeside s pc other ->
    PcOnce s' other

theorem attemptWrite_once {s s' : Shared} {task : Task} {current : Initiative} (hrow : RowSound s) (hseen : Snapshot Initiative.rev s.row current)
    (hs : SharedOnce s) (hpc : PcOnce s (.updating task attempt (some current)))
    (hsafe : StepSafe s io (.updating task attempt (some current)))
    (h : attemptWrite s io task attempt current = (s', next)) :
    ActsOnce s s' (.updating task attempt (some current)) next := by
  have hattempted := attemptWrite_attempted s io task attempt current
  rw [h] at hattempted
  cases hattempted with
  | gaveUp => exact ⟨hs, by simp, by simp, fun _ hother _ _ => hother⟩
  | unchanged =>
      have hresult : forall pass item blockId, task = .claim pass item blockId ->
          forall y, y ∈ current.items -> y.blockId = some blockId ->
            y.status ≠ .pending ∧ s.row = current := by
        -- the entity in hand is older than the claim, so it cannot show the link
        intro pass item blockId htask y hy hlink
        subst htask
        exact absurd hlink (hpc.right.right.right current rfl y hy)
      have hfinish : forall pc', task.finish current = some pc' ->
          PcOnce s pc' ∧ forall blockId, pc'.heldBlock = some blockId ->
            task.heldBlock = some blockId :=
        fun _ => finish_once (fun _ => hpc.offBoard) hresult
      exact ⟨hs, fun pc' hpc' => (hfinish pc' hpc').left,
        fun pc' hpc' blockId hheld => Or.inl ((hfinish pc' hpc').right blockId hheld),
        fun _ hother _ _ => hother⟩
  | again =>
      refine ⟨hs, ?_, ?_, fun _ hother _ _ => hother⟩
      · intro pc' hpc'
        cases hpc'
        exact hpc.reread (by simp)
      · intro pc' hpc' blockId hheld
        cases hpc'
        exact Or.inl hheld
  | landed hlands =>
      rename_i written
      have hcurrent := hlands.current_eq hseen
      have hwrites : Writes task s.row written := by
        rw [← hcurrent]
        exact transform_writes (hcurrent ▸ hrow) hlands.transform
      have hresult : forall pass item blockId, task = .claim pass item blockId ->
          forall y, y ∈ (persisted io current written).items ->
            y.blockId = some blockId -> y.status ≠ .pending ∧
              persisted io current written = persisted io current written := by
        intro pass item blockId htask y hy hlink
        subst htask
        rcases link_of_writes hwrites hy hlink with ⟨x, hx, hx'⟩ | ⟨_, _, _, hstatus⟩
        · exact absurd hx' (hpc.right.right.left x hx)
        · exact ⟨by rw [hstatus]; simp, rfl⟩
      have hheld : forall blockId, task.heldBlock = some blockId ->
          blockId ∈ s.minted ∧
            ¬ OnBoard { s with row := persisted io current written } blockId :=
        fun _ => hpc.offBoard
      have hfinish : forall pc', task.finish (persisted io current written) = some pc' ->
          PcOnce { s with row := persisted io current written } pc' ∧
            forall blockId, pc'.heldBlock = some blockId ->
              task.heldBlock = some blockId :=
        fun _ => @finish_once { s with row := persisted io current written } _ _ hheld
          hresult _
      exact ⟨landed_shared hs hrow hpc hlands hwrites hsafe,
        fun pc' hpc' => (hfinish pc' hpc').left,
        fun pc' hpc' blockId hheld => Or.inl ((hfinish pc' hpc').right blockId hheld),
        fun _ hother hapart hbeside =>
          landed_other hrow hpc hlands hwrites hother hapart hbeside⟩

/-!
## Every action
-/

/-- More identifiers may have been minted; nothing else changed. -/
theorem PcOnce.mint {pc : Pc} (h : PcOnce s pc) (blockId : String) :
    PcOnce { s with minted := blockId :: s.minted } pc := by
  have hgrow : forall held, held ∈ s.minted -> held ∈ blockId :: s.minted :=
    fun _ hheld => List.mem_cons_of_mem _ hheld
  cases pc with
  | updating task attempt current =>
      cases task with
      | claim pass item held => exact ⟨hgrow _ h.left, h.right⟩
      | revert pass item held => exact ⟨hgrow _ h.left, h.right⟩
      | edit op => exact h
      | reconcile blocks => exact h
      | pauseAtCheckpoint phaseId => exact h
      | complete => exact h
      | blockItem pass item note => exact h
  | inserting pass item held => exact ⟨hgrow _ h.left, h.right⟩
  | starting pass item held => exact hgrow _ h
  | rollingBack pass item held failure => exact hgrow _ h
  | opening => exact h
  | reading initiative => exact h
  | preparing pass => exact h
  | choosing pass => exact h

/-- An action that leaves the shared state alone. -/
theorem actsOnce_same {pc : Pc} (hs : SharedOnce s)
    (hacting : forall pc', next = some pc' -> PcOnce s pc')
    (hheld : forall pc', next = some pc' -> forall blockId,
    pc'.heldBlock = some blockId -> pc.heldBlock = some blockId) :
    ActsOnce s s pc next :=
  ⟨hs, hacting, fun pc' hpc' blockId hb => Or.inl (hheld pc' hpc' blockId hb),
    fun _ hother _ _ => hother⟩

theorem actsOnce_goes {pc pc' : Pc} (hs : SharedOnce s) (hacting : PcOnce s pc')
    (hheld : forall blockId, pc'.heldBlock = some blockId -> pc.heldBlock = some blockId) :
    ActsOnce s s pc (some pc') := by
  apply actsOnce_same hs
  · intro next hnext
    cases hnext
    exact hacting
  · intro next hnext
    cases hnext
    exact hheld

theorem chooseItem_once {s s' : Shared} {pass : Pass} (hs : SharedOnce s)
    (h : chooseItem s io pass = some (s', next)) :
    ActsOnce s s' (.choosing pass) next := by
  unfold chooseItem at h
  split at h
  · cases h
    exact actsOnce_same hs (by simp) (by simp)
  · split at h
    · cases h
      exact actsOnce_same hs (by simp) (by simp)
    · simp only at h
      split at h
      · cases h
        exact actsOnce_goes hs trivial (by simp [Pc.heldBlock])
      · split at h
        · cases h
          exact actsOnce_goes hs trivial (by simp [Pc.heldBlock, Task.heldBlock])
        · split at h
          · cases h
          · rename_i hfresh
            cases h
            refine ⟨⟨hs.boardDistinct, ?_, ?_, hs.linked⟩, ?_, ?_, ?_⟩
            · exact fun blockId hb => List.mem_cons_of_mem _ (hs.boardMinted blockId hb)
            · exact fun item hitem blockId hb =>
                List.mem_cons_of_mem _ (hs.linkMinted item hitem blockId hb)
            · intro pc' hpc'
              cases hpc'
              exact ⟨List.mem_cons_self, fun hb => hfresh (hs.boardMinted _ hb),
                fun item hitem hlink => hfresh (hs.linkMinted item hitem _ hlink), by simp⟩
            · intro pc' hpc' blockId hheld
              cases hpc'
              cases hheld
              exact Or.inr hfresh
            · exact fun other hother _ _ => hother.mint _

theorem inserted_once {pass : Pass} {item : InitiativeItem} (hs : SharedOnce s)
    (hpc : PcOnce s (.inserting pass item blockId)) :
    ActsOnce s
      { s with
        board := s.board ++
          [{ block := { id := blockId, status := .planned, pullRequest := none }
             itemId := item.id }] }
      (.inserting pass item blockId) (some (.starting pass item blockId)) := by
  rcases hpc with ⟨hminted, hboard, hlinked⟩
  have hgrown : forall held, held ≠ blockId -> ¬ OnBoard s held ->
      ¬ OnBoard { s with
        board := s.board ++
          [{ block := { id := blockId, status := .planned, pullRequest := none }
             itemId := item.id }] } held := by
    intro held hne hoff hon
    unfold OnBoard at hon
    rw [List.map_append] at hon
    rcases List.mem_append.mp hon with hold | hnew
    · exact hoff hold
    · exact hne (by simpa using hnew)
  refine ⟨⟨?_, ?_, hs.linkMinted, ?_⟩, ?_, ?_, ?_⟩
  · rw [List.map_append, List.nodup_append]
    refine ⟨hs.boardDistinct, by simp, ?_⟩
    intro a ha b hb heq
    have hb : b = blockId := by simpa using hb
    exact hboard (hb ▸ heq ▸ ha)
  · intro held hheld
    unfold OnBoard at hheld
    rw [List.map_append] at hheld
    rcases List.mem_append.mp hheld with hold | hnew
    · exact hs.boardMinted held hold
    · have heq : held = blockId := by simpa using hnew
      rw [heq]
      exact hminted
  · intro t ht
    rcases List.mem_append.mp ht with hold | hnew
    · exact hs.linked t hold
    · have heq := List.mem_singleton.mp hnew
      rw [heq]
      exact hlinked
  · intro pc' hpc'
    cases hpc'
    exact hminted
  · intro pc' hpc' held hheld
    cases hpc'
    exact Or.inl hheld
  · intro other hother hapart _
    have hne : forall held, other.heldBlock = some held -> held ≠ blockId :=
      fun held hheld heq => hapart blockId rfl (heq ▸ hheld)
    cases other with
    | updating task attempt current =>
        cases task with
        | claim pass' item' held =>
            exact ⟨hother.left, hgrown held (hne held rfl) hother.right.left,
              hother.right.right⟩
        | revert pass' item' held =>
            exact ⟨hother.left, hgrown held (hne held rfl) hother.right⟩
        | edit op => exact hother
        | reconcile blocks => exact hother
        | pauseAtCheckpoint phaseId => exact hother
        | complete => exact hother
        | blockItem pass' item' note => exact hother
    | inserting pass' item' held =>
        exact ⟨hother.left, hgrown held (hne held rfl) hother.right.left,
          hother.right.right⟩
    | opening => exact hother
    | reading initiative => exact hother
    | preparing pass' => exact hother
    | choosing pass' => exact hother
    | starting pass' item' held => exact hother
    | rollingBack pass' item' held failure => exact hother

/-- A board with fewer tasks on it, the row and the identifiers as before. -/
theorem SharedOnce.shrink (hs : SharedOnce s) {keep : SpawnedTask -> Bool} :
    SharedOnce { s with board := s.board.filter keep } where
  boardDistinct := hs.boardDistinct.sublist (List.filter_sublist.map _)
  boardMinted := by
    intro blockId hon
    rcases List.mem_map.mp hon with ⟨t, ht, rfl⟩
    exact hs.boardMinted _ (List.mem_map.mpr ⟨t, List.mem_of_mem_filter ht, rfl⟩)
  linkMinted := hs.linkMinted
  linked := fun t ht => hs.linked t (List.mem_of_mem_filter ht)

/-- What a process holds stays off a board that shows no further block. -/
theorem PcOnce.ofBoard {board : List SpawnedTask} {pc : Pc} (h : PcOnce s pc)
    (hoff : forall held, OnBoard { s with board := board } held -> OnBoard s held) :
    PcOnce { s with board := board } pc := by
  cases pc with
  | updating task attempt current =>
      cases task with
      | claim pass item held => exact ⟨h.left, mt (hoff _) h.right.left, h.right.right⟩
      | revert pass item held => exact ⟨h.left, mt (hoff _) h.right⟩
      | edit op => exact h
      | reconcile blocks => exact h
      | pauseAtCheckpoint phaseId => exact h
      | complete => exact h
      | blockItem pass item note => exact h
  | inserting pass item held => exact ⟨h.left, mt (hoff _) h.right.left, h.right.right⟩
  | opening => exact h
  | reading initiative => exact h
  | preparing pass => exact h
  | choosing pass => exact h
  | starting pass item held => exact h
  | rollingBack pass item held failure => exact h

theorem PcOnce.shrink {keep : SpawnedTask -> Bool} {pc : Pc}
    (h : PcOnce s pc) : PcOnce { s with board := s.board.filter keep } pc := by
  apply h.ofBoard
  intro held hon
  rcases List.mem_map.mp hon with ⟨t, ht, rfl⟩
  exact List.mem_map.mpr ⟨t, List.mem_of_mem_filter ht, rfl⟩

theorem rollBack_once {pass : Pass} {item : InitiativeItem} {failure : SpawnFailure}
    (hs : SharedOnce s) (hpc : PcOnce s (.rollingBack pass item blockId failure))
    (hsafe : StepSafe s io (.rollingBack pass item blockId failure)) :
    ActsOnce s (rollBack s io pass item blockId failure).1
      (.rollingBack pass item blockId failure)
      (rollBack s io pass item blockId failure).2 := by
  have hboard : exists keep : SpawnedTask -> Bool,
      (rollBack s io pass item blockId failure).1 =
        { s with board := s.board.filter keep } := by
    by_cases hok : io.rollbackOk = true
    · exact ⟨fun t => t.block.id ≠ blockId, by simp [rollBack, hok]⟩
    · exact ⟨fun _ => true, by simp [rollBack, hok]⟩
  have hgone : ¬ OnBoard (rollBack s io pass item blockId failure).1 blockId := by
    intro hon
    by_cases hok : io.rollbackOk = true
    · rcases List.mem_map.mp hon with ⟨t, ht, heq⟩
      simp only [rollBack, hok, if_true] at ht
      exact absurd heq (of_decide_eq_true (List.mem_filter.mp ht).right)
    · have hsame : (rollBack s io pass item blockId failure).1.board = s.board := by
        simp [rollBack, hok]
      unfold OnBoard at hon
      rw [hsame] at hon
      exact hok (hsafe hon)
  have hminted : (rollBack s io pass item blockId failure).1.minted = s.minted := rfl
  refine ⟨?_, ?_, ?_, ?_⟩
  · rcases hboard with ⟨keep, hkeep⟩
    rw [hkeep]
    exact hs.shrink
  · intro pc' hpc'
    cases hpc'
    cases failure with
    | taskLimitReached => exact ⟨hpc, hgone⟩
    | other message => trivial
  · intro pc' hpc' held hheld
    cases hpc'
    cases failure with
    | taskLimitReached => exact Or.inl hheld
    | other message => cases hheld
  · intro other hother _ _
    rcases hboard with ⟨keep, hkeep⟩
    rw [hkeep]
    exact hother.shrink

theorem advance_once {s s' : Shared} {pc : Pc} (hrow : RowSound s) (hsound : PcSound s pc)
    (hs : SharedOnce s) (hpc : PcOnce s pc) (hsafe : StepSafe s io pc)
    (h : advance s io pc = some (s', next)) :
    ActsOnce s s' pc next := by
  cases pc with
  | opening =>
      simp only [advance] at h
      split at h
      · cases h
        exact actsOnce_same hs (by simp) (by simp)
      · cases h
        exact actsOnce_goes hs trivial (by simp [Pc.heldBlock])
  | reading initiative =>
      simp only [advance] at h
      split at h
      · cases h
        exact actsOnce_goes hs trivial (by simp [Pc.heldBlock, Task.heldBlock])
      · cases h
        refine actsOnce_same hs ?_ ?_
        · exact fun pc' hpc' => (afterReconcile_once s hpc').left
        · intro pc' hpc' blockId hheld
          rw [(afterReconcile_once s hpc').right] at hheld
          cases hheld
  | updating task attempt current =>
      cases current with
      | none =>
          cases h
          exact actsOnce_goes hs (hpc.reread fun _ he => (Option.some.inj he).symm) fun _ hheld => hheld
      | some current =>
          exact attemptWrite_once hrow (hsound.right current rfl).left hs hpc hsafe
            (Option.some.inj h)
  | preparing pass =>
      simp only [advance] at h
      split at h
      · cases h
        exact actsOnce_goes hs trivial (by simp [Pc.heldBlock])
      · cases h
        exact actsOnce_same hs (by simp) (by simp)
  | choosing pass => exact chooseItem_once hs h
  | inserting pass item blockId =>
      simp only [advance] at h
      split at h
      · cases h
        exact actsOnce_goes hs hpc.left fun _ hheld => hheld
      · cases h
        exact inserted_once hs hpc
  | starting pass item blockId =>
      simp only [advance] at h
      split at h
      · cases h
        exact actsOnce_goes hs hpc fun _ hheld => hheld
      · cases h
        exact actsOnce_goes hs trivial (by simp [Pc.heldBlock])
  | rollingBack pass item blockId failure =>
      cases h
      exact rollBack_once hs hpc hsafe

/-!
## Every step
-/

theorem openProc_once {w w' : World} {p : Nat} {pc : Pc} (h : SpawnOnce w)
    (hpc : PcOnce w.shared pc) (hheld : pc.heldBlock = none)
    (hopen : openProc w p pc = some w') : SpawnOnce w' := by
  unfold openProc at hopen
  split at hopen
  · cases hopen
  · cases hopen
    refine ⟨h.shared, ?_, ?_⟩
    · intro q other (hother : (q, other) ∈ setProc w.procs p (some pc))
      rcases mem_setProc hother with ⟨_, heq⟩ | ⟨_, hold⟩
      · cases heq
        exact hpc
      · exact h.proc q other hold
    · intro q r a b (ha : (q, a) ∈ setProc w.procs p (some pc))
        (hb : (r, b) ∈ setProc w.procs p (some pc)) hne blockId hblock
      rcases mem_setProc ha with ⟨_, heq⟩ | ⟨_, haOld⟩
      · cases heq
        rw [hheld] at hblock
        cases hblock
      · rcases mem_setProc hb with ⟨_, heq⟩ | ⟨_, hbOld⟩
        · cases heq
          rw [hheld]
          simp
        · exact h.apart q r a b haOld hbOld hne blockId hblock

theorem acts_once {w : World} {p : Nat} {pc : Pc} {s' : Shared} (h : SpawnOnce w)
    (hpc : (p, pc) ∈ w.procs)
    (hbeside : forall entry, entry ∈ w.procs -> SafeBeside w.shared pc entry.2)
    (hacts : ActsOnce w.shared s' pc next) :
    SpawnOnce { shared := s', procs := setProc w.procs p next } := by
  have hclash : forall q other pc', (q, other) ∈ w.procs -> q ≠ p -> next = some pc' ->
      Apart pc' other := by
    intro q other pc' hother hne hnext blockId hheld
    rcases hacts.held pc' hnext blockId hheld with hkept | hfresh
    · exact h.apart p q pc other hpc hother (Ne.symm hne) blockId hkept
    · exact fun hotherHeld => hfresh ((h.proc q other hother).minted hotherHeld)
  refine ⟨hacts.shared, ?_, ?_⟩
  · intro q other (hother : (q, other) ∈ setProc w.procs p next)
    rcases mem_setProc hother with ⟨_, heq⟩ | ⟨hne, hold⟩
    · exact hacts.acting other heq
    · exact hacts.other other (h.proc q other hold)
        (h.apart p q pc other hpc hold (Ne.symm hne)) (hbeside (q, other) hold)
  · intro q r a b (ha : (q, a) ∈ setProc w.procs p next)
      (hb : (r, b) ∈ setProc w.procs p next) hne
    rcases mem_setProc ha with ⟨hq, haNext⟩ | ⟨hqNe, haOld⟩
    · rcases mem_setProc hb with ⟨hr, _⟩ | ⟨hrNe, hbOld⟩
      · exact absurd (hq.trans hr.symm) hne
      · exact hclash r b a hbOld hrNe haNext
    · rcases mem_setProc hb with ⟨_, hbNext⟩ | ⟨_, hbOld⟩
      · intro blockId haHeld hbHeld
        exact hclash q a b haOld hqNe hbNext blockId hbHeld haHeld
      · exact h.apart q r a b haOld hbOld hne

theorem moveTask_ids (id : String) (status : BlockStatus)
    (pullRequest : Option PullRequestRef) (t : SpawnedTask) :
    (moveTask id status pullRequest t).block.id = t.block.id ∧
      (moveTask id status pullRequest t).itemId = t.itemId := by
  unfold moveTask
  split <;> exact ⟨rfl, rfl⟩

theorem moveBlock_once {w : World} (h : SpawnOnce w) (id : String) (status : BlockStatus)
    (pullRequest : Option PullRequestRef) :
    SpawnOnce { w with
      shared := { w.shared with
        board := w.shared.board.map (moveTask id status pullRequest) } } := by
  have hids : (w.shared.board.map (moveTask id status pullRequest)).map
      (fun t => t.block.id) = w.shared.board.map fun t => t.block.id := by
    rw [List.map_map]
    exact List.map_congr_left fun t _ => (moveTask_ids id status pullRequest t).left
  have hon : forall blockId,
      OnBoard { w.shared with board := w.shared.board.map (moveTask id status pullRequest) }
        blockId = OnBoard w.shared blockId := by
    intro blockId
    unfold OnBoard
    simp only [hids]
  refine ⟨⟨?_, ?_, h.shared.linkMinted, ?_⟩, ?_, h.apart⟩
  · simp only [hids]
    exact h.shared.boardDistinct
  · intro blockId hb
    rw [hon] at hb
    exact h.shared.boardMinted blockId hb
  · intro t ht
    rcases List.mem_map.mp ht with ⟨u, hu, rfl⟩
    rcases moveTask_ids id status pullRequest u with ⟨hblock, hitem⟩
    rw [hblock, hitem]
    exact h.shared.linked u hu
  · intro p pc hpc
    apply (h.proc p pc hpc).ofBoard
    intro blockId hb
    rw [hon] at hb
    exact hb

theorem step_once {w w' : World} {a : Action} (hw : w.Holds RowSound PcSound)
    (h : SpawnOnce w) (hsafe : SpawnSafe w a) (hstep : step w a = some w') :
    SpawnOnce w' := by
  rcases hsafe with ⟨hdomain, hadvance⟩
  cases a with
  | openTick p =>
      have hopen : openProc w p .opening = some w' := hstep
      refine openProc_once h ?_ rfl hopen
      trivial
  | openEdit p op =>
      have hretry : op.isRetry = false := by simpa [SpawnDomain] using hdomain
      have hopen : openProc w p (.updating (.edit op) 0 none) = some w' := hstep
      refine openProc_once h ?_ rfl hopen
      exact hretry
  | advance p io =>
      simp only [Initiatives.step] at hstep
      split at hstep
      · cases hstep
      · rename_i pc hproc
        have hmem := procAt_mem hproc
        rcases hadvance pc hproc with ⟨hpcSafe, hbeside⟩
        split at hstep
        · cases hstep
        · rename_i s' next hnext
          cases hstep
          exact acts_once h hmem hbeside
            (advance_once hw.left (hw.right p pc hmem) h.shared (h.proc p pc hmem)
              hpcSafe hnext)
  | crash p =>
      cases hstep
      refine ⟨h.shared, ?_, ?_⟩
      · intro q other (hother : (q, other) ∈ setProc w.procs p none)
        rcases mem_setProc hother with ⟨_, heq⟩ | ⟨_, hold⟩
        · cases heq
        · exact h.proc q other hold
      · intro q r a b (ha : (q, a) ∈ setProc w.procs p none)
          (hb : (r, b) ∈ setProc w.procs p none) hne
        rcases mem_setProc ha with ⟨_, heq⟩ | ⟨_, haOld⟩
        · cases heq
        · rcases mem_setProc hb with ⟨_, heq⟩ | ⟨_, hbOld⟩
          · cases heq
          · exact h.apart q r a b haOld hbOld hne
  | moveBlock id status pullRequest =>
      cases hstep
      exact moveBlock_once h id status pullRequest
  | deleteBlock id => cases hdomain

theorem startWorld_once (goal : String) (now : Nat) : SpawnOnce (startWorld goal now) where
  shared :=
    { boardDistinct := List.nodup_nil
      boardMinted := by
        intro blockId hon
        cases hon
      linkMinted := by
        intro item hitem
        cases hitem
      linked := by
        intro t ht
        cases ht }
  proc := by
    intro p pc hpc
    cases hpc
  apart := by
    intro p q pc other hpc
    cases hpc

/-- In every run of safe steps each spawned task's item is linked to it and
not up for another claim, so no item has two tasks on the board. -/
theorem spawned_once (goal : String) (now : Nat) (trace : List Action) (w : World)
    (hrun : RunWhere step SpawnSafe (startWorld goal now) trace w) :
    (forall t, t ∈ w.shared.board -> Linked w.shared.row t.itemId t.block.id) ∧
    forall t u, t ∈ w.shared.board -> u ∈ w.shared.board -> t.itemId = u.itemId ->
      t = u := by
  have hinvariant : w.Holds RowSound PcSound ∧ SpawnOnce w := by
    apply RunWhere.invariant _ _ hrun
    · exact ⟨run_sound RunWhere.nil, startWorld_once goal now⟩
    · intro s a t hs hsafe hstep
      exact ⟨loop_localInvariant.step hs.left hstep, step_once hs.left hs.right hsafe hstep⟩
  rcases hinvariant with ⟨hw, honce⟩
  refine ⟨honce.shared.linked, ?_⟩
  intro t u ht hu hitem
  rcases honce.shared.linked t ht with ⟨x, hx, hxId, hxLink, _⟩
  rcases honce.shared.linked u hu with ⟨y, hy, hyId, hyLink, _⟩
  have hsame : x = y :=
    eq_of_key_eq hw.left hx hy (hxId.trans (hitem.trans hyId.symm))
  rw [hsame, hyLink] at hxLink
  exact eq_of_key_eq honce.shared.boardDistinct ht hu (Option.some.inj hxLink).symm

/-- Two ticks turn by turn: both choose the one item, and one of the claims loses its race. -/
def overlappingActions : List Action :=
  executingActions ++ [.openTick 1, .openTick 2] ++
    (List.replicate 9 [Action.advance 1 (calmIo "blk_1"), .advance 2 (calmIo "blk_2")]).flatten

def afterOverlapping : World :=
  endOf step (startWorld "" 0) overlappingActions

theorem spawned_once_overlapping :
    Linked afterOverlapping.shared.row "api" "blk_1" ∧
      forall t u, t ∈ afterOverlapping.shared.board -> u ∈ afterOverlapping.shared.board ->
        t.itemId = u.itemId -> t = u := by
  have honce := spawned_once "" 0 overlappingActions afterOverlapping
    (runWhere_endOf (fun s a (h : decide (SpawnSafe s a) = true) => of_decide_eq_true h)
      (by decide +kernel))
  refine ⟨?_, honce.right⟩
  exact honce.left
    { block := { id := "blk_1", status := .planned, pullRequest := none }, itemId := "api" }
    (by decide +kernel)

/-- A tick that reads an item's claim before the task is inserted, and lands
its reconciliation after: it frees the item, and spawns it a second time. -/
def overtakenActions : List Action :=
  executingActions ++ tickActions 1 "blk_1" ++
    [.advance 1 (calmIo ""), .advance 1 (calmIo ""),
      .openTick 2, .advance 2 (calmIo ""), .advance 2 (calmIo ""),
      .advance 1 (calmIo ""), .advance 1 (calmIo ""),
      .advance 2 (calmIo ""), .advance 2 (calmIo ""),
      .advance 2 (calmIo ""), .advance 2 (calmIo "blk_2"),
      .advance 2 (calmIo ""), .advance 2 (calmIo ""), .advance 2 (calmIo "")]

theorem spawned_twice_overtaken :
    exists w,
      RunWhere step (fun _ a => SpawnDomain a = true) (startWorld "" 0)
        overtakenActions w ∧
      w.shared.board.map (fun t => (t.itemId, t.block.id)) =
        [("api", "blk_1"), ("api", "blk_2")] ∧
      ¬ Linked w.shared.row "api" "blk_1" := by
  refine ⟨endOf step (startWorld "" 0) overtakenActions,
    runWhere_endOf (fun _ _ h => h) (by decide), by decide, ?_⟩
  unfold Linked
  decide

end Initiatives
end CatFactory
