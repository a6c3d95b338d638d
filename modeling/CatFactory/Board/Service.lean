import CatFactory.Board.Logic
import CatFactory.Foundation.Runs

/-!
# Calls on one board

The blocks of one home workspace are rows that many calls read and write.  A
call goes from one await to the next, so between what it read and what it
writes any other call may have written.  A block may move to another home, and
one of another home may come here, with all that stands in it.  `issued` and
`unjudged` are kept for the proofs only: the level of every id that was ever
given to a block here, and the edges that no call judges: those that a write has
put back after they had been taken off the row, and those that a row had when it
came here.
-/

namespace CatFactory
namespace Board

open Foundation
open Execution (BlockLevel)
open Initiatives (BlockStatus)

/-! ## Rows -/

/-- The fields an update names; what is `none` stays. -/
structure BlockPatch where
  title : Option String := none
  type : Option BlockType := none
  status : Option BlockStatus := none
  parentId : Option (Option String) := none
  moduleName : Option String := none
  dependsOn : Option (List String) := none
  epicId : Option (Option String) := none
  initiativeId : Option (Option String) := none
  serviceConnections : Option (List ServiceConnection) := none
  involvedServiceIds : Option (List String) := none
deriving DecidableEq

/-- An empty module name clears the column. -/
def BlockPatch.apply (patch : BlockPatch) (b : Block) : Block :=
  { b with
    title := patch.title.getD b.title
    type := patch.type.getD b.type
    status := patch.status.getD b.status
    parentId := patch.parentId.getD b.parentId
    moduleName :=
      match patch.moduleName with
      | none => b.moduleName
      | some name => if name = "" then none else some name
    dependsOn := patch.dependsOn.getD b.dependsOn
    epicId := patch.epicId.getD b.epicId
    initiativeId := patch.initiativeId.getD b.initiativeId
    serviceConnections := patch.serviceConnections.getD b.serviceConnections
    involvedServiceIds := patch.involvedServiceIds.getD b.involvedServiceIds }

def update (rows : List Block) (id : String) (patch : BlockPatch) : List Block :=
  rows.map fun b => if b.id = id then patch.apply b else b

def deleteMany (rows : List Block) (ids : List String) : List Block :=
  rows.filter fun b => b.id ∉ ids

/-- What a survivor of a removal no longer refers to. -/
def danglingPatch (b : Block) (removed : List String) : BlockPatch :=
  let next := b.dependsOn.filter fun d => d ∉ removed
  let connections := b.serviceConnections.filter fun c => c.serviceBlockId ∉ removed
  let involved := b.involvedServiceIds.filter fun sid => sid ∉ removed
  let gone (link : Option String) : Bool := link.any fun id => id ≠ "" ∧ id ∈ removed
  { dependsOn := if next.length ≠ b.dependsOn.length then some next else none
    epicId := if gone b.epicId then some none else none
    initiativeId := if gone b.initiativeId then some none else none
    serviceConnections :=
      if connections.length ≠ b.serviceConnections.length then some connections else none
    involvedServiceIds :=
      if involved.length ≠ b.involvedServiceIds.length then some involved else none }

/-! ## Calls -/

inductive BoardError where
  | notFound (id : String)
  | validation (message : String)
  /-- The service still has work to do: `service_has_unfinished_tasks`. -/
  | unfinishedTasks (count : Nat)
deriving DecidableEq

structure AddTaskInput where
  title : String
  taskType : Option String := none
  epicId : Option String := none
deriving DecidableEq

inductive DependencyMode where
  | toggle
  | add
  | remove
deriving DecidableEq

/-- What a caller asks of the board. -/
inductive Request where
  | addFrame (title : String) (type : BlockType)
  | addTask (containerId : String) (input : AddTaskInput)
  | addModules (serviceId : String) (names : List String)
  | addEpic (title : String) (parentId : Option String)
  | assignToEpic (taskId : String) (epicId : Option String)
  | reparent (id parentId : String)
  | assertRemovable (id : String)
  | removeBlock (id : String)
  | writeDependency (targetId sourceId : String) (mode : DependencyMode)
deriving DecidableEq

/-- How an edge stands that a call has just written. -/
inductive Judgement where
  /-- Its second judgement is to come. -/
  | due
  /-- It was found to close a cycle, and is to be taken back. -/
  | cyclic
deriving DecidableEq

/-- Where a call stands, with all that it has read and still needs. -/
inductive Call where
  | asked (request : Request)
  | listForTask (container : Block) (input : AddTaskInput)
  | insertRow (draft : Block)
  | insertModules (service : Block) (names : List String)
  | resolveEpic (taskId epicId : String)
  | writeEpic (taskId : String) (epicId : Option String)
  | resolveParent (block : Block) (parentId : String)
  /-- The home of the new parent takes the block in; one that it does not take is cut off. -/
  | leave (block : Block)
  | listForMove (block parent : Block)
  | writeMove (block parent : Block) (destFrame : Option Block)
  | removeListed (id : String) (preloaded : List Block)
  | deleteRows (blocks : List Block) (doomed : List String)
  | pruneEdges (survivors : List Block) (removed : List String)
  | resolveSource (target : Block) (sourceId : String)
  | checkCycle (target : Block) (sourceId : String)
  | writeEdge (target : Block) (sourceId : String)
  | recheckCycle (target : Block) (sourceId : String)
  | rollBack (target : Block) (sourceId : String)
  | dropEdge (target : Block) (sourceId : String)
  /-- It goes on at the board that homes the block. -/
  | elsewhere
  | finished
  | refused (error : BoardError)
  /-- It died, and an edge that it had written stands as it stood then. -/
  | cutOff (edge : Option (Judgement × String × String))
deriving DecidableEq

/-- The edge that the call has written, until it keeps it or has taken it back. -/
def Call.edge : Call -> Option (Judgement × String × String)
  | .recheckCycle target sourceId => some (.due, target.id, sourceId)
  | .rollBack target sourceId => some (.cyclic, target.id, sourceId)
  | .cutOff edge => edge
  | _ => none

def Call.written (call : Call) : Option (String × String) :=
  call.edge.map Prod.snd

def Call.over : Call -> Bool
  | .elsewhere | .finished | .refused _ | .cutOff _ => true
  | _ => false

/-- One board, its calls, and the levels of the ids that the other boards give out. -/
structure Home where
  abroad : String -> Option BlockLevel
  rows : List Block := []
  calls : List Call := []
  issued : List (String × BlockLevel) := []
  unjudged : List (String × String) := []

def Home.start (abroad : String -> Option BlockLevel) : Home :=
  { abroad := abroad }

/-- A block that a board may act on, and where its home is. -/
inductive Found where
  | here (block : Block)
  | abroad (level : BlockLevel)
deriving DecidableEq

def Found.level : Found -> BlockLevel
  | .here block => block.level
  | .abroad level => level

/-- The level of the block that has or had the id, here or elsewhere. -/
def Home.levelOf (h : Home) (id : String) : Option BlockLevel :=
  (h.abroad id).or ((lookup Prod.fst h.issued id).map Prod.snd)

/-- A block homed elsewhere is found when its service is mounted on this board. -/
def Home.resolveBlock (h : Home) (mounted : Bool) (id : String) : Option Found :=
  match lookup Block.id h.rows id with
  | some block => some (.here block)
  | none => if mounted then (h.levelOf id).map Found.abroad else none

/-- An id that no block has had, here or elsewhere. -/
def Home.unused (h : Home) (id : String) : Bool :=
  id ≠ "" ∧ (h.abroad id).isNone ∧ id ∉ h.issued.map Prod.fst

def levelName : BlockLevel -> String
  | .frame => "frame"
  | .module => "module"
  | .task => "task"
  | .epic => "epic"
  | .initiative => "initiative"

/-- A document repository is authored, not implemented. -/
def taskTypeAllowed (frame : Option Block) (taskType : Option String) : Bool :=
  match frame with
  | none => true
  | some f => ¬ (f.type = .document ∧ taskType ≠ some "document" ∧ taskType ≠ some "spike")

def moduleNameInContainer (container : Block) : String :=
  if container.level = .module then container.title else ""

/-- Hops enough for a climb that does not go round. -/
def climbBound (blocks : List Block) : Nat :=
  blocks.length + 2

/-- The work in flight that a delete of a service frame would discard. -/
def unfinishedWork (blocks : List Block) (id : String) : Option BoardError :=
  match lookup Block.id blocks id with
  | none => none
  | some target =>
      if target.level ≠ .frame ∨ target.parentId ≠ none then none
      else if (unfinishedTasksUnder blocks id).length = 0 then none
      else some (.unfinishedTasks (unfinishedTasksUnder blocks id).length)

/-! ## From one await to the next -/

inductive Write where
  | nothing
  | insert (block : Block)
  | update (id : String) (patch : BlockPatch)
  | deleteMany (ids : List String)
deriving DecidableEq

def Call.refuse (message : String) : Call × Write :=
  (.refused (.validation message), .nothing)

def Call.goOn (call : Call) : Call × Write :=
  (call, .nothing)

section Turns

variable (h : Home) (mounted : Bool) (fresh : String)

def addTask (containerId : String) (input : AddTaskInput) : Call × Write :=
  match h.resolveBlock mounted containerId with
  | none => (.refused (.notFound containerId), .nothing)
  | some (.abroad _) => Call.goOn .elsewhere
  | some (.here container) =>
      if container.level = .task then Call.refuse "Tasks cannot contain other tasks"
      else if canReparent .task container.level then Call.goOn (.listForTask container input)
      else Call.refuse ("A task cannot be placed inside a " ++ levelName container.level)

def addModules (serviceId : String) (names : List String) : Call × Write :=
  if names = [] then Call.goOn .finished
  else
    match h.resolveBlock mounted serviceId with
    | none => (.refused (.notFound serviceId), .nothing)
    | some (.abroad _) => Call.goOn .elsewhere
    | some (.here service) =>
        if service.level = .frame then Call.goOn (.insertModules service names)
        else Call.refuse "Modules can only be added to a service frame"

def epicDraft (title : String) (parentId : Option String) : Block :=
  { id := "", title := title, type := .service, level := .epic, parentId := parentId }

def addEpic (title : String) (parentId : Option String) : Call × Write :=
  match parentId.filter fun p => p ≠ "" with
  | none => Call.goOn (.insertRow (epicDraft title none))
  | some p =>
      match h.resolveBlock mounted p with
      | none => (.refused (.notFound p), .nothing)
      | some found =>
              if canReparent .epic found.level then
            Call.goOn (.insertRow (epicDraft title (some p)))
          else Call.refuse ("An epic cannot be placed inside a " ++ levelName found.level)

def assignToEpic (taskId : String) (epicId : Option String) : Call × Write :=
  match h.resolveBlock mounted taskId with
  | none => (.refused (.notFound taskId), .nothing)
  | some (.abroad _) => Call.goOn .elsewhere
  | some (.here task) =>
      if task.level ≠ .task then Call.refuse "Only tasks can belong to an epic"
      else
        match epicId.filter fun e => e ≠ "" with
        | none => Call.goOn (.writeEpic taskId epicId)
        | some e => Call.goOn (.resolveEpic taskId e)

def resolveEpic (taskId epicId : String) : Call × Write :=
  match h.resolveBlock mounted epicId with
  | none => (.refused (.notFound epicId), .nothing)
  | some found =>
      if found.level = .epic then Call.goOn (.writeEpic taskId (some epicId))
      else Call.refuse "A task can only be assigned to an epic-level block"

def reparent (id parentId : String) : Call × Write :=
  match h.resolveBlock mounted id with
  | none => (.refused (.notFound id), .nothing)
  | some (.abroad _) => Call.goOn .elsewhere
  | some (.here block) =>
      if id = parentId then Call.refuse "A block cannot contain itself"
      else Call.goOn (.resolveParent block parentId)

def resolveParent (block : Block) (parentId : String) : Call × Write :=
  match h.resolveBlock mounted parentId with
  | none => (.refused (.notFound parentId), .nothing)
  | some found =>
      if canReparent block.level found.level then
        match found with
        | .here parent => Call.goOn (.listForMove block parent)
        | .abroad _ => Call.goOn (.leave block)
      else
        Call.refuse ("A " ++ levelName block.level ++ " cannot be placed inside a " ++
          levelName found.level)

def removeListed (id : String) (blocks : List Block) : Call × Write :=
  match unfinishedWork blocks id with
  | some error => (.refused error, .nothing)
  | none => Call.goOn (.deleteRows blocks (descendantIds blocks id))

def writeDependency (targetId sourceId : String) (mode : DependencyMode) : Call × Write :=
  if targetId = sourceId then Call.refuse "A block cannot depend on itself"
  else
    match h.resolveBlock mounted targetId with
    | none => (.refused (.notFound targetId), .nothing)
    | some (.abroad _) => Call.goOn .elsewhere
    | some (.here target) =>
        if mode = .add ∧ sourceId ∈ target.dependsOn ∨
            mode = .remove ∧ sourceId ∉ target.dependsOn then Call.goOn .finished
        else if sourceId ∈ target.dependsOn then Call.goOn (.dropEdge target sourceId)
        else Call.goOn (.resolveSource target sourceId)

def resolveSource (target : Block) (sourceId : String) : Call × Write :=
  match h.resolveBlock mounted sourceId with
  | none => (.refused (.notFound sourceId), .nothing)
  | some found =>
      if target.level ≠ .task ∨ found.level ≠ .task then
        Call.refuse "Only tasks can have dependency edges"
      else Call.goOn (.checkCycle target sourceId)

/-- The row of a new task; it has no id yet. -/
def taskDraft (container : Block) (service : Option Block) (input : AddTaskInput) : Block :=
  { id := ""
    title := input.title
    type := ((service.map Block.type).getD container.type)
    level := .task
    parentId := some container.id
    taskType := some (input.taskType.getD "feature")
    epicId := input.epicId.filter fun e => e ≠ "" }

def movePatch (block parent : Block) (destFrame : Option Block) : BlockPatch :=
  let movedType :=
    match destFrame with
    | some f => if block.level = .task then f.type else block.type
    | none => block.type
  let movedModule :=
    if block.level = .task then moduleNameInContainer parent else block.moduleName.getD ""
  { parentId := some (some parent.id)
    type := if movedType ≠ block.type then some movedType else none
    moduleName := if movedModule ≠ block.moduleName.getD "" then some movedModule else none }

/-- The call up to its next await; `none` for one that is over, or spins in a climb. -/
def Call.turn : Call -> Option (Call × Write)
  | .asked (.addFrame title type) =>
      some (.finished,
        .insert { id := fresh, title := title, type := type, level := .frame })
  | .asked (.addTask containerId input) => some (addTask h mounted containerId input)
  | .asked (.addModules serviceId names) => some (addModules h mounted serviceId names)
  | .asked (.addEpic title parentId) => some (addEpic h mounted title parentId)
  | .asked (.assignToEpic taskId epicId) => some (assignToEpic h mounted taskId epicId)
  | .asked (.reparent id parentId) => some (reparent h mounted id parentId)
  | .asked (.assertRemovable id) =>
      match unfinishedWork h.rows id with
      | some error => some (.refused error, .nothing)
      | none => some (Call.goOn (.removeListed id h.rows))
  | .asked (.removeBlock id) => some (Board.removeListed id h.rows)
  | .asked (.writeDependency targetId sourceId mode) =>
      some (writeDependency h mounted targetId sourceId mode)
  | .listForTask container input =>
      match serviceOf h.rows (climbBound h.rows) (some container) with
      | none => none
      | some service =>
          if taskTypeAllowed service (some (input.taskType.getD "feature")) then
            some (Call.goOn (.insertRow (taskDraft container service input)))
          else
            some (Call.refuse "A document repository only accepts document or spike tasks")
  | .insertRow draft => some (.finished, .insert { draft with id := fresh })
  | .insertModules _ [] => some (Call.goOn .finished)
  | .insertModules service (name :: names) =>
      some (.insertModules service names,
        .insert
          { id := fresh, title := name, type := service.type, level := .module
            parentId := some service.id })
  | .resolveEpic taskId epicId => some (Board.resolveEpic h mounted taskId epicId)
  | .writeEpic taskId epicId => some (.finished, .update taskId { epicId := some epicId })
  | .resolveParent block parentId => some (Board.resolveParent h mounted block parentId)
  | .leave block => some (Call.goOn (.deleteRows h.rows (descendantIds h.rows block.id)))
  | .listForMove block parent =>
      match serviceOf h.rows (climbBound h.rows) (some parent) with
      | none => none
      | some destFrame =>
          if block.level = .task ∧ taskTypeAllowed destFrame block.taskType = false then
            some (Call.refuse "A document repository only accepts document or spike tasks")
          else some (Call.goOn (.writeMove block parent destFrame))
  | .writeMove block parent destFrame =>
      some (.finished, .update block.id (movePatch block parent destFrame))
  | .removeListed id preloaded => some (Board.removeListed id preloaded)
  | .deleteRows blocks doomed => some (.pruneEdges blocks doomed, .deleteMany doomed)
  | .pruneEdges [] _ => some (Call.goOn .finished)
  | .pruneEdges (b :: survivors) removed =>
      if b.id ∈ removed then some (Call.goOn (.pruneEdges survivors removed))
      else some (.pruneEdges survivors removed, .update b.id (danglingPatch b removed))
  | .resolveSource target sourceId => some (Board.resolveSource h mounted target sourceId)
  | .checkCycle target sourceId =>
      if wouldCreateCycle h.rows target.id sourceId then
        some (Call.refuse "That dependency would create a cycle")
      else some (Call.goOn (.writeEdge target sourceId))
  | .writeEdge target sourceId =>
      some (.recheckCycle target sourceId,
        .update target.id { dependsOn := some (target.dependsOn ++ [sourceId]) })
  | .recheckCycle target sourceId =>
      if wouldCreateCycle h.rows target.id sourceId then
        some (Call.goOn (.rollBack target sourceId))
      else some (Call.goOn .finished)
  | .rollBack target _ =>
      some (.refused (.validation "That dependency would create a cycle"),
        .update target.id { dependsOn := some target.dependsOn })
  | .dropEdge target sourceId =>
      some (.finished,
        .update target.id
          { dependsOn := some (target.dependsOn.filter fun d => d ≠ sourceId) })
  | .elsewhere | .finished | .refused _ | .cutOff _ => none

end Turns

/-! ## Steps -/

def Write.apply (rows : List Block) : Write -> List Block
  | .nothing => rows
  | .insert block => rows ++ [block]
  | .update id patch => Board.update rows id patch
  | .deleteMany ids => Board.deleteMany rows ids

/-- The edges that a write puts on a row which lacks them, the writer's own new one apart. -/
def Write.revives (rows : List Block) (own : Option (String × String)) :
    Write -> List (String × String)
  | .update id patch =>
      match lookup Block.id rows id, patch.dependsOn with
      | some b, some next =>
          ((next.filter fun s => s ∉ b.dependsOn).map fun s => (id, s)).filter
            fun edge => some edge ≠ own
      | _, _ => []
  | _ => []

def Write.issues : Write -> List (String × BlockLevel)
  | .insert block => [(block.id, block.level)]
  | _ => []

/-- The row has the edge. -/
def hasEdge (rows : List Block) (edge : String × String) : Bool :=
  rows.any fun b => b.id = edge.1 ∧ edge.2 ∈ b.dependsOn

def Home.commit (h : Home) (k : Nat) (call : Call) (write : Write) : Home :=
  { h with
    rows := write.apply h.rows
    calls := h.calls.set k call
    issued := h.issued ++ write.issues
    unjudged := (h.unjudged ++ write.revives h.rows call.written).filter
      (hasEdge (write.apply h.rows)) }

/-- An update of fields that hold neither the tree nor its edges. -/
def BlockPatch.plain (patch : BlockPatch) : Bool :=
  patch.parentId.isNone ∧ patch.dependsOn.isNone

inductive Action where
  | ask (request : Request)
  /-- The call's next turn; `fresh` is what the id generator would give it. -/
  | advance (k : Nat) (mounted : Bool) (fresh : String)
  | cutOff (k : Nat)
  /-- The engine and the other writers of a row. -/
  | edit (id : String) (patch : BlockPatch)
  /-- A move from another home inserts a row here, with the edges that it has there. -/
  | arrive (block : Block)
deriving DecidableEq

/-- The other home holds its rows to the same rules, and a row is inserted once. -/
def Home.mayArrive (h : Home) (b : Block) : Bool :=
  b.id ∉ h.rows.map Block.id ∧ h.levelOf b.id = some b.level ∧
    (b.parentId.all fun p => (h.levelOf p).any (canReparent b.level)) ∧
    b.dependsOn.all fun s => b.level = .task ∧ h.levelOf s = some .task

def Home.step (h : Home) : Action -> Option Home
  | .ask request => some { h with calls := h.calls ++ [.asked request] }
  | .advance k mounted fresh =>
      if h.unused fresh then
        match h.calls[k]? with
        | none => none
        | some call =>
            match call.turn h mounted fresh with
            | none => none
            | some (next, write) => some (h.commit k next write)
      else none
  | .cutOff k =>
      match h.calls[k]? with
      | none => none
      | some call =>
          if call.over then none
          else some { h with calls := h.calls.set k (.cutOff call.edge) }
  | .edit id patch =>
      if patch.plain then some { h with rows := Board.update h.rows id patch } else none
  | .arrive block =>
      if h.mayArrive block then
        some { h with
          rows := h.rows ++ [block]
          unjudged := h.unjudged ++ block.dependsOn.map fun s => (block.id, s) }
      else none

end Board
end CatFactory
