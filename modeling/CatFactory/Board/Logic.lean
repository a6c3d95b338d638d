import CatFactory.Execution.RunTransitions
import CatFactory.Foundation.Graph
import CatFactory.Foundation.Keyed
import CatFactory.Initiative.Model

/-!
# The blocks of a board

Frames hold modules and tasks, modules hold tasks, epics and initiatives group
tasks without holding them, and tasks wait for one another.  The computations
on a plain list of blocks are those that the board and the engine share.
-/

namespace CatFactory
namespace Board

open Foundation
open Execution (BlockLevel)
open Initiatives (BlockStatus)

inductive BlockType where
  | frontend
  | service
  | library
  | document
  | api
  | database
  | queue
  | integration
  | external
  | environment
deriving DecidableEq

structure ServiceConnection where
  serviceBlockId : String
  description : Option String := none
deriving DecidableEq

structure Block where
  id : String
  title : String
  type : BlockType
  status : BlockStatus := .planned
  level : BlockLevel
  parentId : Option String := none
  dependsOn : List String := []
  epicId : Option String := none
  initiativeId : Option String := none
  taskType : Option String := none
  moduleName : Option String := none
  serviceConnections : List ServiceConnection := []
  involvedServiceIds : List String := []
deriving DecidableEq

/-- `new Map(blocks.map((b) => [b.id, b]))`: of two blocks with one id the later is kept. -/
def byId (blocks : List Block) (id : String) : Option Block :=
  lookup Block.id blocks.reverse id

/-- A missing or empty parent id names no parent. -/
def Block.parent (b : Block) : Option String :=
  b.parentId.filter fun p => p ≠ ""

/-! ## Containment -/

/-- The service around a block; `none` when the climb has not come to an end. -/
def serviceOf (blocks : List Block) : Nat -> Option Block -> Option (Option Block)
  | 0, _ => none
  | _ + 1, none => some none
  | fuel + 1, some cur =>
      if cur.level = .frame then some (some cur)
      else serviceOf blocks fuel (cur.parent.bind (byId blocks))

/-- The links by which a delete goes down. -/
def childLinks (blocks : List Block) : List (String × String) :=
  blocks.filterMap fun b => b.parent.map fun p => (p, b.id)

/-- Every block under the root, and the root. -/
def descendantIds (blocks : List Block) (rootId : String) : List String :=
  (Graph.close (childLinks blocks) (Graph.closeBound (childLinks blocks)) [rootId]).getD [rootId]

def unfinishedTasksUnder (blocks : List Block) (rootId : String) : List Block :=
  blocks.filter fun b =>
    b.id ∈ descendantIds blocks rootId ∧ b.level = .task ∧ b.status ≠ .done

/-- A task that still has work to do. -/
def Unfinished (b : Block) : Prop :=
  b.level = .task ∧ b.status ≠ .done

instance : DecidablePred Unfinished :=
  fun b => inferInstanceAs (Decidable (b.level = .task ∧ b.status ≠ .done))

/-- Whether a block of the one level may stand inside a block of the other. -/
def canReparent (childLevel : BlockLevel) (parent : BlockLevel) : Bool :=
  match childLevel with
  | .task => parent = .frame ∨ parent = .module
  | .module => parent = .frame
  | .epic => parent = .frame ∨ parent = .module
  | .initiative => parent = .frame
  | .frame => false

/-! ## The frame around a block, read row by row -/

/-- The climb of at most so many hops. -/
def climb (get : String -> Option Block) : Nat -> Option Block -> Option Block
  | 0, current => current
  | _ + 1, none => none
  | hops + 1, some current =>
      if current.level = .frame then some current
      else
        match current.parent with
        | none => some current
        | some p => climb get hops (get p)

def resolveServiceFrameBlock (get : String -> Option Block) (blockId : String)
    (start : Option Block) : Option Block :=
  climb get 8 (start.or (get blockId))

/-! ## Dependencies -/

/-- The ids that a block of the list waits for. -/
def dependsOnOf (blocks : List Block) (id : String) : List String :=
  match byId blocks id with
  | none => []
  | some b => b.dependsOn

/-- The source already waits for the target, so that the new edge closes a cycle. -/
def wouldCreateCycle (blocks : List Block) (targetId sourceId : String) : Bool :=
  if targetId = sourceId then false
  else
    (Graph.search (dependsOnOf blocks) targetId
      (Graph.searchBound (dependsOnOf blocks) (blocks.map Block.id)) [sourceId] []).getD false

def dependenciesMet (blocks : List Block) (taskId : String) : Bool :=
  match byId blocks taskId with
  | none => true
  | some task => task.dependsOn.all fun depId =>
      match byId blocks depId with
      | none => true
      | some dep => dep.status = .done

/-- The blockers of a task that are not done. -/
def unmetDependencies (blocks : List Block) (taskId : String) : List Block :=
  match byId blocks taskId with
  | none => []
  | some task => (task.dependsOn.filterMap (byId blocks)).filter fun b => b.status ≠ .done

/-- The list with the blockers that are homed on other boards and that the account knows. -/
def augmentWithCrossWorkspaceDeps (find : String -> Option Block) (blocks : List Block)
    (depIds : List String) : List Block :=
  blocks ++ (depIds.eraseDups.filter fun id => id ∉ blocks.map Block.id).filterMap find

/-- The blockers for which a task may not start. -/
def assertDependenciesMet (find : String -> Option Block) (blocks : List Block)
    (task : Block) : Except (List Block) Unit :=
  if task.level ≠ .task ∨ task.dependsOn = [] then .ok ()
  else if dependenciesMet (augmentWithCrossWorkspaceDeps find blocks task.dependsOn) task.id then
    .ok ()
  else
    .error (unmetDependencies (augmentWithCrossWorkspaceDeps find blocks task.dependsOn) task.id)

/--
The tasks that a merge starts: those that wait for the merged block, whose other
blockers are done, that have not been started, and that a run may be started for
without anybody at hand.
-/
def autoStartDependents (find : String -> Option Block) (startable : Block -> Bool)
    (blocks : List Block) (mergedBlockId : String) : List Block :=
  let dependents := blocks.filter fun b => b.level = .task ∧ mergedBlockId ∈ b.dependsOn
  let augmented := augmentWithCrossWorkspaceDeps find blocks (dependents.flatMap Block.dependsOn)
  dependents.filter fun d => dependenciesMet augmented d.id ∧
    (d.status = .planned ∨ d.status = .ready) ∧ startable d

/-! ## Lookups -/

variable {blocks : List Block}

theorem lookup_some {id : String} {b : Block}
    (h : lookup Block.id blocks id = some b) : b ∈ blocks ∧ b.id = id := by
  constructor
  · exact List.mem_of_find?_eq_some h
  · simpa using List.find?_some h

theorem byId_some {id : String} {b : Block}
    (h : byId blocks id = some b) : b ∈ blocks ∧ b.id = id := by
  rcases lookup_some h with ⟨hmem, hid⟩
  exact ⟨List.mem_reverse.mp hmem, hid⟩

/-- With one block an id, the map finds what the row lookup finds. -/
theorem byId_eq_lookup (hnodup : (blocks.map Block.id).Nodup)
    (id : String) : byId blocks id = lookup Block.id blocks id := by
  unfold byId
  apply lookup_congr
  · rw [List.map_reverse]
    exact List.nodup_reverse.mpr hnodup
  · exact hnodup
  · exact fun _ _ => List.mem_reverse

theorem byId_eq_some_iff (hnodup : (blocks.map Block.id).Nodup) {id : String}
    {b : Block} : byId blocks id = some b <-> b ∈ blocks ∧ b.id = id := by
  rw [byId_eq_lookup hnodup, lookup_eq_some_iff hnodup]

theorem lookup_of_mem (hnodup : (blocks.map Block.id).Nodup) {b : Block}
    (h : b ∈ blocks) : lookup Block.id blocks b.id = some b :=
  (lookup_eq_some_iff hnodup).mpr ⟨h, rfl⟩

/-! ## The searches are exact -/

theorem dependsOnOf_outside {id : String}
    (h : id ∉ blocks.map Block.id) : dependsOnOf blocks id = [] := by
  unfold dependsOnOf
  cases hb : byId blocks id with
  | none => rfl
  | some b =>
      rcases byId_some hb with ⟨hmem, hid⟩
      exact absurd (List.mem_map.mpr ⟨b, hmem, hid⟩) h

/-- The check says that a cycle would close exactly when the source reaches the target. -/
theorem wouldCreateCycle_iff {targetId sourceId : String} (hne : targetId ≠ sourceId) :
    wouldCreateCycle blocks targetId sourceId = true <->
      Relation.ReflTransGen (Graph.Link (dependsOnOf blocks)) sourceId targetId := by
  unfold wouldCreateCycle
  rw [if_neg hne]
  rcases Graph.search_exact (dependsOnOf blocks) (blocks.map Block.id)
    (fun _ h => dependsOnOf_outside h) sourceId targetId with ⟨found, hfound, hexact⟩
  rw [hfound]
  exact hexact

/-- A block of the list stands in the other. -/
def Inside (blocks : List Block) (upper lower : String) : Prop :=
  exists b, b ∈ blocks ∧ b.id = lower ∧ b.parent = some upper

theorem mem_childLinks {upper lower : String} :
    (upper, lower) ∈ childLinks blocks <-> Inside blocks upper lower := by
  unfold childLinks Inside
  rw [List.mem_filterMap]
  constructor
  · rintro ⟨b, hb, hlink⟩
    rcases Option.map_eq_some_iff.mp hlink with ⟨p, hp, hpair⟩
    cases hpair
    exact ⟨b, hb, rfl, hp⟩
  · rintro ⟨b, hb, hid, hp⟩
    refine ⟨b, hb, ?_⟩
    rw [hp, ← hid]
    rfl

/-- A delete takes exactly what stands in the root, however deep. -/
theorem mem_descendantIds {rootId id : String} :
    id ∈ descendantIds blocks rootId <->
      Relation.ReflTransGen (Inside blocks) rootId id := by
  rcases Graph.close_exact (childLinks blocks) rootId with ⟨closed, hclosed, hexact⟩
  unfold descendantIds
  rw [hclosed, Option.getD_some, hexact]
  have hsame : Graph.Listed (childLinks blocks) = Inside blocks := by
    funext upper lower
    exact propext mem_childLinks
  rw [hsame]

end Board
end CatFactory
