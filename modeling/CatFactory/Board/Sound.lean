import CatFactory.Board.Service

/-!
# What holds between any two turns

A block keeps its level for ever, and an id is never given twice.  So what a
call has read of a level stays true however long the call waits, and every row
and every block that a call holds stands where it may stand and waits only for
tasks.
-/

namespace CatFactory
namespace Board

open Foundation
open Execution (BlockLevel)

variable {id : String} {h h' : Home}

/-- The id was given, here or elsewhere, to a block of this level. -/
def Home.LevelOf (h : Home) (id : String) (level : BlockLevel) : Prop :=
  (id, level) ∈ h.issued ∨ h.abroad id = some level

/-- A block of the level may stand where its parent id says. -/
def Home.Placed (h : Home) (level : BlockLevel) (parentId : Option String) : Prop :=
  forall p, parentId = some p -> exists upper, h.LevelOf p upper ∧ canReparent level upper = true

structure BlockSound (h : Home) (b : Block) : Prop where
  level : h.LevelOf b.id b.level
  placed : h.Placed b.level b.parentId
  waits : forall s, s ∈ b.dependsOn -> b.level = .task ∧ h.LevelOf s .task

/-- The target may be made to wait for the source, as far as levels go. -/
structure Joins (h : Home) (target : Block) (sourceId : String) : Prop where
  sound : BlockSound h target
  task : target.level = .task
  source : h.LevelOf sourceId .task
  absent : sourceId ∉ target.dependsOn
  apart : target.id ≠ sourceId

structure Movable (h : Home) (block parent : Block) : Prop where
  sound : BlockSound h block
  holder : BlockSound h parent
  may : canReparent block.level parent.level = true

def CallSound (h : Home) : Call -> Prop
  | .listForTask container _ => BlockSound h container ∧ canReparent .task container.level = true
  | .insertRow draft => h.Placed draft.level draft.parentId ∧ draft.dependsOn = []
  | .insertModules service _ => BlockSound h service ∧ service.level = .frame
  | .resolveParent block _ => BlockSound h block
  | .leave block => BlockSound h block
  | .listForMove block parent => Movable h block parent
  | .writeMove block parent _ => Movable h block parent
  | .removeListed _ blocks => forall b, b ∈ blocks -> BlockSound h b
  | .deleteRows blocks _ => forall b, b ∈ blocks -> BlockSound h b
  | .pruneEdges survivors _ => forall b, b ∈ survivors -> BlockSound h b
  | .resolveSource target sourceId =>
      BlockSound h target ∧ sourceId ∉ target.dependsOn ∧ target.id ≠ sourceId
  | .checkCycle target sourceId => Joins h target sourceId
  | .writeEdge target sourceId => Joins h target sourceId
  | .recheckCycle target sourceId => Joins h target sourceId
  | .rollBack target sourceId => Joins h target sourceId
  | .dropEdge target _ => BlockSound h target
  | _ => True

def WriteSound (h : Home) : Write -> Prop
  | .insert b => h.unused b.id = true ∧ h.Placed b.level b.parentId ∧ b.dependsOn = []
  | .update id patch => forall level, h.LevelOf id level ->
      (forall parentId, patch.parentId = some parentId -> h.Placed level parentId) ∧
        forall next, patch.dependsOn = some next -> forall s, s ∈ next ->
          level = .task ∧ h.LevelOf s .task
  | _ => True

structure Sound (h : Home) : Prop where
  unique : (h.rows.map Block.id).Nodup
  oneLevel : (h.issued.map Prod.fst).Nodup
  homed : forall id, id ∈ h.issued.map Prod.fst -> h.abroad id = none ∧ id ≠ ""
  rows : forall b, b ∈ h.rows -> BlockSound h b
  calls : forall c, c ∈ h.calls -> CallSound h c

/-! ## The log only grows -/

structure Grown (h h' : Home) : Prop where
  abroad : h'.abroad = h.abroad
  issued : forall entry, entry ∈ h.issued -> entry ∈ h'.issued

theorem Home.LevelOf.grown {level : BlockLevel} (hl : h.LevelOf id level)
    (hg : Grown h h') : h'.LevelOf id level := by
  rcases hl with hissued | habroad
  · exact Or.inl (hg.issued _ hissued)
  · right
    rw [hg.abroad]
    exact habroad

theorem Home.Placed.grown {level : BlockLevel} {parentId : Option String}
    (hp : h.Placed level parentId) (hg : Grown h h') : h'.Placed level parentId := by
  intro p heq
  rcases hp p heq with ⟨upper, hlevel, hmay⟩
  exact ⟨upper, hlevel.grown hg, hmay⟩

theorem BlockSound.grown {b : Block} (hb : BlockSound h b) (hg : Grown h h') :
    BlockSound h' b where
  level := hb.level.grown hg
  placed := hb.placed.grown hg
  waits := fun s hs => ⟨(hb.waits s hs).left, (hb.waits s hs).right.grown hg⟩

theorem Joins.grown {target : Block} {sourceId : String} (hj : Joins h target sourceId)
    (hg : Grown h h') : Joins h' target sourceId where
  sound := hj.sound.grown hg
  task := hj.task
  source := hj.source.grown hg
  absent := hj.absent
  apart := hj.apart

theorem Movable.grown {block parent : Block} (hm : Movable h block parent)
    (hg : Grown h h') : Movable h' block parent where
  sound := hm.sound.grown hg
  holder := hm.holder.grown hg
  may := hm.may

theorem CallSound.grown {c : Call} (hc : CallSound h c) (hg : Grown h h') :
    CallSound h' c := by
  cases c with
  | listForTask | insertRow | insertModules => exact ⟨hc.left.grown hg, hc.right⟩
  | resolveParent | leave => exact BlockSound.grown hc hg
  | listForMove | writeMove => exact Movable.grown hc hg
  | removeListed id blocks => exact fun b hb => (hc b hb).grown hg
  | deleteRows blocks doomed => exact fun b hb => (hc b hb).grown hg
  | pruneEdges survivors removed => exact fun b hb => (hc b hb).grown hg
  | resolveSource target sourceId => exact ⟨hc.left.grown hg, hc.right⟩
  | checkCycle | writeEdge | recheckCycle | rollBack => exact Joins.grown hc hg
  | dropEdge target sourceId => exact BlockSound.grown hc hg
  | asked | resolveEpic | writeEpic | elsewhere | finished | refused | cutOff => trivial

/-! ## Lookups -/

theorem levelOf_some {h : Home} {level : BlockLevel}
    (hl : h.levelOf id = some level) : h.LevelOf id level := by
  unfold Home.levelOf at hl
  rcases Option.or_eq_some_iff.mp hl with habroad | ⟨_, hissued⟩
  · exact Or.inr habroad
  · rcases Option.map_eq_some_iff.mp hissued with ⟨entry, hentry, hlevel⟩
    left
    rw [← hlevel, ← show entry.1 = id by simpa using List.find?_some hentry]
    exact List.mem_of_find?_eq_some hentry

theorem resolveBlock_here {h : Home} {mounted : Bool} {b : Block}
    (hf : h.resolveBlock mounted id = some (.here b)) : b ∈ h.rows ∧ b.id = id := by
  unfold Home.resolveBlock at hf
  split at hf
  · rename_i block hblock
    cases hf
    exact lookup_some hblock
  · split at hf
    · rcases Option.map_eq_some_iff.mp hf with ⟨level, _, hcon⟩
      cases hcon
    · cases hf

theorem resolveBlock_level {h : Home} {mounted : Bool} {found : Found} (hs : Sound h)
    (hf : h.resolveBlock mounted id = some found) :
    h.LevelOf id found.level := by
  cases found with
  | here b =>
      rcases resolveBlock_here hf with ⟨hb, hid⟩
      rw [← hid]
      exact (hs.rows b hb).level
  | abroad level =>
      unfold Home.resolveBlock at hf
      split at hf
      · cases hf
      · split at hf
        · rcases Option.map_eq_some_iff.mp hf with ⟨found, hfound, hcon⟩
          cases hcon
          exact levelOf_some hfound
        · cases hf

/-- An id has one level, wherever it was read. -/
theorem Home.LevelOf.unique {h : Home} {level level' : BlockLevel} (hs : Sound h)
    (hl : h.LevelOf id level) (hl' : h.LevelOf id level') : level = level' := by
  have hhome : forall level, (id, level) ∈ h.issued -> h.abroad id = none :=
    fun level hmem => (hs.homed id (List.mem_map.mpr ⟨_, hmem, rfl⟩)).left
  rcases hl with hissued | habroad
  · rcases hl' with hissued' | habroad'
    · exact congrArg Prod.snd (eq_of_key hs.oneLevel hissued hissued' rfl)
    · rw [hhome level hissued] at habroad'
      cases habroad'
  · rcases hl' with hissued' | habroad'
    · rw [hhome level' hissued'] at habroad
      cases habroad
    · rw [habroad] at habroad'
      exact Option.some.inj habroad'

/-! ## What the calls go on with -/

/-- A turn that writes nothing, and after which the call has no edge. -/
structure Quiet (h : Home) (outcome : Call × Write) : Prop where
  call : CallSound h outcome.1
  write : outcome.2 = .nothing
  edge : outcome.1.edge = none

theorem quiet_refuse (h : Home) (message : String) : Quiet h (Call.refuse message) :=
  ⟨trivial, rfl, rfl⟩

section Turns

variable {h : Home} {mounted : Bool}

theorem quiet_addTask (hs : Sound h) (containerId : String) (input : AddTaskInput) :
    Quiet h (addTask h mounted containerId input) := by
  unfold addTask
  split
  · exact ⟨trivial, rfl, rfl⟩
  · exact ⟨trivial, rfl, rfl⟩
  · rename_i container hfound
    split
    · exact quiet_refuse h _
    · split
      · rename_i hmay
        exact ⟨⟨hs.rows _ (resolveBlock_here hfound).left, hmay⟩, rfl, rfl⟩
      · exact quiet_refuse h _

theorem quiet_addModules (hs : Sound h) (serviceId : String) (names : List String) :
    Quiet h (addModules h mounted serviceId names) := by
  unfold addModules
  split
  · exact ⟨trivial, rfl, rfl⟩
  · split
    · exact ⟨trivial, rfl, rfl⟩
    · exact ⟨trivial, rfl, rfl⟩
    · rename_i service hfound
      split
      · rename_i hframe
        exact ⟨⟨hs.rows _ (resolveBlock_here hfound).left, hframe⟩, rfl, rfl⟩
      · exact quiet_refuse h _

theorem quiet_addEpic (hs : Sound h) (title : String) (parentId : Option String) :
    Quiet h (addEpic h mounted title parentId) := by
  unfold addEpic
  split
  · refine ⟨⟨?_, rfl⟩, rfl, rfl⟩
    intro p hp
    cases hp
  · rename_i p hparent
    split
    · exact ⟨trivial, rfl, rfl⟩
    · rename_i found hfound
      have hlevel := resolveBlock_level hs hfound
      split
      · rename_i hmay
        refine ⟨⟨?_, rfl⟩, rfl, rfl⟩
        intro q hq
        cases hq
        exact ⟨found.level, hlevel, hmay⟩
      · exact quiet_refuse h _

theorem quiet_assignToEpic (taskId : String) (epicId : Option String) :
    Quiet h (assignToEpic h mounted taskId epicId) := by
  unfold assignToEpic
  split
  · exact ⟨trivial, rfl, rfl⟩
  · exact ⟨trivial, rfl, rfl⟩
  · split
    · exact quiet_refuse h _
    · split
      · exact ⟨trivial, rfl, rfl⟩
      · exact ⟨trivial, rfl, rfl⟩

theorem quiet_resolveEpic (taskId epicId : String) :
    Quiet h (resolveEpic h mounted taskId epicId) := by
  unfold resolveEpic
  split
  · exact ⟨trivial, rfl, rfl⟩
  · split
    · exact ⟨trivial, rfl, rfl⟩
    · exact quiet_refuse h _

theorem quiet_reparent (hs : Sound h) (id parentId : String) :
    Quiet h (reparent h mounted id parentId) := by
  unfold reparent
  split
  · exact ⟨trivial, rfl, rfl⟩
  · exact ⟨trivial, rfl, rfl⟩
  · rename_i block hfound
    split
    · exact quiet_refuse h _
    · exact ⟨hs.rows _ (resolveBlock_here hfound).left, rfl, rfl⟩

theorem quiet_resolveParent (hs : Sound h) {block : Block} (hb : BlockSound h block)
    (parentId : String) : Quiet h (resolveParent h mounted block parentId) := by
  unfold resolveParent
  split
  · exact ⟨trivial, rfl, rfl⟩
  · rename_i found hfound
    split
    · rename_i hmay
      cases found with
      | here parent =>
          exact ⟨⟨hb, hs.rows _ (resolveBlock_here hfound).left, hmay⟩, rfl, rfl⟩
      | abroad level => exact ⟨hb, rfl, rfl⟩
    · exact quiet_refuse h _

theorem quiet_removeListed {blocks : List Block}
    (hb : forall b, b ∈ blocks -> BlockSound h b) : Quiet h (removeListed id blocks) := by
  unfold removeListed
  split
  · exact ⟨trivial, rfl, rfl⟩
  · exact ⟨hb, rfl, rfl⟩

theorem quiet_writeDependency (hs : Sound h) (targetId sourceId : String)
    (mode : DependencyMode) : Quiet h (writeDependency h mounted targetId sourceId mode) := by
  unfold writeDependency
  split
  · exact quiet_refuse h _
  · rename_i hapart
    split
    · exact ⟨trivial, rfl, rfl⟩
    · exact ⟨trivial, rfl, rfl⟩
    · rename_i target hfound
      rcases resolveBlock_here hfound with ⟨hmem, hid⟩
      split
      · exact ⟨trivial, rfl, rfl⟩
      · split
        · exact ⟨hs.rows _ hmem, rfl, rfl⟩
        · rename_i habsent
          rw [← hid] at hapart
          exact ⟨⟨hs.rows _ hmem, habsent, hapart⟩, rfl, rfl⟩

theorem quiet_resolveSource (hs : Sound h) {target : Block} {sourceId : String}
    (ht : CallSound h (.resolveSource target sourceId)) :
    Quiet h (resolveSource h mounted target sourceId) := by
  rcases ht with ⟨hsound, habsent, hapart⟩
  unfold resolveSource
  split
  · exact ⟨trivial, rfl, rfl⟩
  · rename_i found hfound
    have hlevel := resolveBlock_level hs hfound
    split
    · exact quiet_refuse h _
    · rename_i hlevels
      push Not at hlevels
      have hsource : found.level = .task := hlevels.right
      rw [hsource] at hlevel
      exact ⟨⟨hsound, hlevels.left, hlevel, habsent, hapart⟩, rfl, rfl⟩

end Turns

end Board
end CatFactory
