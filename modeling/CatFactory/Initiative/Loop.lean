import CatFactory.Foundation.Versioned
import CatFactory.Initiative.Service

/-!
# The execution loop

Any number of processes work on one initiative: loop ticks, and writes that
somebody asked the service for.  They share the persisted row, the board with
the spawned tasks and the identifiers handed out so far.  A process stops
between any two of its reads and writes, and other processes run there.  It
may also die there.
-/

namespace CatFactory
namespace Initiatives

open Foundation

/-!
## What the loop computes
-/

/-- A spawned task on the board.  The item it was spawned for is history: the
block itself does not name it. -/
structure SpawnedTask where
  block : TaskBlock
  itemId : String
deriving DecidableEq

/-- Why a claimed item did not start. -/
inductive SpawnFailure where
  | taskLimitReached
  | other (message : String)
deriving DecidableEq

/-- The environment's answers to one action. -/
structure Io where
  now : Nat
  nextId : Nat -> String
  blockId : String
  hosted : Bool
  pipelineIds : List String
  insertError : Option String
  startError : Option SpawnFailure
  rollbackOk : Bool

/-- The blocks of the items, read in one batch. -/
def readSpawnedBlocks (board : List SpawnedTask) (initiative : Initiative) :
    List TaskBlock :=
  let ids := initiative.items.filterMap fun i => truthy i.blockId
  (board.map SpawnedTask.block).filter fun block => block.id ∈ ids

def hasActiveLink (initiative : Initiative) : Bool :=
  initiative.items.any fun i => (truthy i.blockId).isSome && i.status.isActive

def reconcileWith (blocks : List TaskBlock) (item : InitiativeItem) : InitiativeItem :=
  match truthy item.blockId with
  | some blockId => reconcileItem item (blocks.find? fun b => b.id = blockId)
  | none => item

def blockedDescription (item : InitiativeItem) : Utf16 :=
  match truthyText (item.note.map trimUnits) with
  | some cause => "Task for \"" ++ item.title ++ "\" was blocked: " ++ cause
  | none =>
      "Task for \"" ++ item.title ++
        "\" was blocked; the phase is halted until it is retried or skipped."

/-- One deviation for each item that this reconciliation blocked. -/
def newDeviations (io : Io) : List (InitiativeItem × InitiativeItem) -> Nat ->
    List InitiativeDeviation
  | [], _ => []
  | (before, after) :: rest, k =>
      if after.status = .blocked ∧ before.status ≠ .blocked then
        { id := io.nextId k
          createdAt := io.now
          itemId := some after.id
          description := blockedDescription after
          resolution := none } :: newDeviations io rest (k + 1)
      else newDeviations io rest k

def reconcile (io : Io) (blocks : List TaskBlock) (current : Initiative) : Initiative :=
  let items := current.items.map (reconcileWith blocks)
  { current with
    items := items
    deviations := current.deviations ++ newDeviations io (current.items.zip items) 0 }

/-- Pause at a checkpoint that is still the pending one. -/
def pauseAtCheckpoint (phaseId : String) (current : Initiative) : Initiative :=
  if current.status ≠ .executing then current
  else
    match pendingCheckpoint current with
    | some pending => if pending.id = phaseId then { current with status := .paused } else current
    | none => current

def complete (current : Initiative) : Initiative :=
  if allItemsSettled current = true ∧ current.status = .executing then
    { current with status := .done }
  else current

/-- Block an item that could not be spawned and drop its block link. -/
def blockItem (io : Io) (itemId note : String) (current : Initiative) : Initiative :=
  { current with
    items := current.items.map fun i =>
      if i.id = itemId then
        { i with status := .blocked, note := some note, blockId := none }
      else i
    deviations := current.deviations ++
      [{ id := io.nextId 0
         createdAt := io.now
         itemId := some itemId
         description := note
         resolution := none }] }

def missingPipelineNote (pipelineId : String) : String :=
  "Pipeline \"" ++ pipelineId ++
    "\" no longer exists — pick another in the initiative policy."

/-!
## Processes
-/

/-- The local variables of a spawn pass.  `initiative` is the entity the tick
decided on, `claims` records the items this pass has claimed. -/
structure Pass where
  initiative : Initiative
  phase : InitiativePhase
  entity : Initiative
  slots : Nat
  eligible : List InitiativeItem
  knownPipelineIds : List String
  spawned : Nat
  claims : List String

/-- The transform that a guarded write repeats until it lands. -/
inductive Task where
  | edit (op : Edit)
  | reconcile (blocks : List TaskBlock)
  | pauseAtCheckpoint (phaseId : String)
  | complete
  | claim (pass : Pass) (item : InitiativeItem) (blockId : String)
  | blockItem (pass : Pass) (item : InitiativeItem) (note : String)
  | revert (pass : Pass) (item : InitiativeItem) (blockId : String)

/-- Where a process stands. -/
inductive Pc where
  | opening
  | reading (initiative : Initiative)
  | updating (task : Task) (attempt : Nat) (current : Option Initiative)
  | preparing (pass : Pass)
  | choosing (pass : Pass)
  | inserting (pass : Pass) (item : InitiativeItem) (blockId : String)
  | starting (pass : Pass) (item : InitiativeItem) (blockId : String)
  | rollingBack (pass : Pass) (item : InitiativeItem) (blockId : String)
      (failure : SpawnFailure)

def Task.transform (io : Io) (current : Initiative) : Task -> Except DomainError Initiative
  | .edit op => op.transform io.now current
  | .reconcile blocks => .ok (Initiatives.reconcile io blocks current)
  | .pauseAtCheckpoint phaseId => .ok (Initiatives.pauseAtCheckpoint phaseId current)
  | .complete => .ok (Initiatives.complete current)
  | .claim _ item blockId => .ok (applySpawnClaim current item.id blockId)
  | .blockItem _ item note => .ok (Initiatives.blockItem io item.id note current)
  | .revert _ item blockId => .ok (applyRevertClaim current item.id blockId)

/-- The first part of a spawn pass: the phase, the free slots and the items. -/
def spawn (initiative : Initiative) : Option Pc :=
  match deriveCurrentPhase initiative with
  | none => none
  | some phase =>
      let slots := effectiveMaxConcurrent initiative (some phase) - activeItemCount initiative
      let eligible := eligibleItemsToSpawn initiative
      if slots = 0 then none
      else if eligible = [] then none
      else
        some (.preparing
          { initiative := initiative
            phase := phase
            entity := initiative
            slots := slots
            eligible := eligible
            knownPipelineIds := []
            spawned := 0
            claims := [] })

/-- A tick after its reconciliation: checkpoint, completion or spawning. -/
def afterReconcile (initiative : Initiative) : Option Pc :=
  match pendingCheckpoint initiative with
  | some phase => some (.updating (.pauseAtCheckpoint phase.id) 0 none)
  | none =>
      if allItemsSettled initiative then some (.updating .complete 0 none)
      else spawn initiative

/-- How a process goes on once its write returned an entity. -/
def Task.finish (result : Initiative) : Task -> Option Pc
  | .edit _ => none
  | .reconcile _ => afterReconcile result
  | .pauseAtCheckpoint _ => none
  | .complete => none
  | .claim pass item blockId =>
      match result.items.find? fun i => i.id = item.id with
      | none => some (.choosing { pass with entity := result })
      | some claimed =>
          -- another ticker's claim, or an item that moved on, is skipped
          if claimed.blockId ≠ some blockId then
            some (.choosing { pass with entity := result })
          else
            some (.inserting
              { pass with entity := result, claims := item.id :: pass.claims } item blockId)
  | .blockItem pass _ _ => some (.choosing { pass with entity := result })
  | .revert _ _ _ => none

structure Shared where
  row : Initiative
  board : List SpawnedTask
  minted : List String

/-- One round of a guarded write that has read `current`. -/
def attemptWrite (s : Shared) (io : Io) (task : Task) (attempt : Nat)
    (current : Initiative) : Shared × Option Pc :=
  match task.transform io current with
  | .error _ => (s, none)
  | .ok next =>
      if sameContent current next then (s, task.finish current)
      else
        match compareAndSwap Initiative.rev (some s.row)
            { next with rev := current.rev + 1, updatedAt := io.now } current.rev with
        | some persisted => ({ s with row := persisted }, task.finish persisted)
        | none =>
            if attempt + 1 < casAttempts then
              (s, some (.updating task (attempt + 1) none))
            else (s, none)

/-- The next item of a spawn pass: skip it, block it or claim it. -/
def chooseItem (s : Shared) (io : Io) (pass : Pass) : Option (Shared × Option Pc) :=
  if pass.slots = 0 then some (s, none)
  else
    match pass.eligible with
    | [] => some (s, none)
    | item :: rest =>
        let pass := { pass with eligible := rest }
        match pass.entity.policy with
        | none => some (s, some (.choosing pass))
        | some policy =>
            let pipelineId := selectInitiativePipeline item policy
            if pipelineId ∉ pass.knownPipelineIds then
              some (s, some (.updating
                (.blockItem pass item (missingPipelineNote pipelineId)) 0 none))
            else if io.blockId ∈ s.minted then none
            else
              some ({ s with minted := io.blockId :: s.minted },
                some (.updating (.claim pass item io.blockId) 0 none))

def rollBack (s : Shared) (io : Io) (pass : Pass) (item : InitiativeItem)
    (blockId : String) (failure : SpawnFailure) : Shared × Option Pc :=
  let board :=
    if io.rollbackOk then s.board.filter fun t => t.block.id ≠ blockId else s.board
  let next :=
    match failure with
    | .taskLimitReached => Task.revert pass item blockId
    | .other message => Task.blockItem pass item ("Could not start the task: " ++ message)
  ({ s with board := board }, some (.updating next 0 none))

/-- A process takes its next action. -/
def advance (s : Shared) (io : Io) : Pc -> Option (Shared × Option Pc)
  | .opening =>
      if s.row.status ≠ .executing then some (s, none)
      else some (s, some (.reading s.row))
  | .reading initiative =>
      let blocks := readSpawnedBlocks s.board initiative
      if hasActiveLink initiative then
        some (s, some (.updating (.reconcile blocks) 0 none))
      else some (s, afterReconcile initiative)
  | .updating task attempt none => some (s, some (.updating task attempt (some s.row)))
  | .updating task attempt (some current) => some (attemptWrite s io task attempt current)
  | .preparing pass =>
      if io.hosted then
        some (s, some (.choosing { pass with knownPipelineIds := io.pipelineIds }))
      else some (s, none)
  | .choosing pass => chooseItem s io pass
  | .inserting pass item blockId =>
      match io.insertError with
      | some message => some (s, some (.rollingBack pass item blockId (.other message)))
      | none =>
          some
            ({ s with
                board := s.board ++
                  [{ block := { id := blockId, status := .planned, pullRequest := none }
                     itemId := item.id }] },
              some (.starting pass item blockId))
  | .starting pass item blockId =>
      match io.startError with
      | some failure => some (s, some (.rollingBack pass item blockId failure))
      | none =>
          some (s, some (.choosing
            { pass with spawned := pass.spawned + 1, slots := pass.slots - 1 }))
  | .rollingBack pass item blockId failure => some (rollBack s io pass item blockId failure)

/-!
## The system
-/

structure World where
  shared : Shared
  procs : List (Nat × Pc)

inductive Action where
  | openTick (p : Nat)
  | openEdit (p : Nat) (op : Edit)
  | advance (p : Nat) (io : Io)
  | crash (p : Nat)
  | moveBlock (id : String) (status : BlockStatus) (pullRequest : Option PullRequestRef)
  | deleteBlock (id : String)

def procAt (procs : List (Nat × Pc)) (p : Nat) : Option Pc :=
  (procs.find? fun entry => entry.1 = p).map Prod.snd

def setProc (procs : List (Nat × Pc)) (p : Nat) (pc : Option Pc) : List (Nat × Pc) :=
  let others := procs.filter fun entry => entry.1 ≠ p
  match pc with
  | some pc => (p, pc) :: others
  | none => others

def openProc (w : World) (p : Nat) (pc : Pc) : Option World :=
  match procAt w.procs p with
  | some _ => none
  | none => some { w with procs := setProc w.procs p (some pc) }

def moveTask (id : String) (status : BlockStatus) (pullRequest : Option PullRequestRef)
    (t : SpawnedTask) : SpawnedTask :=
  if t.block.id = id then
    { t with block := { t.block with status := status, pullRequest := pullRequest } }
  else t

def step (w : World) : Action -> Option World
  | .openTick p => openProc w p .opening
  | .openEdit p op => openProc w p (.updating (.edit op) 0 none)
  | .advance p io =>
      match procAt w.procs p with
      | none => none
      | some pc =>
          match Initiatives.advance w.shared io pc with
          | none => none
          | some (shared, next) =>
              some { shared := shared, procs := setProc w.procs p next }
  | .crash p => some { w with procs := setProc w.procs p none }
  | .moveBlock id status pullRequest =>
      some { w with
        shared := { w.shared with board := w.shared.board.map (moveTask id status pullRequest) } }
  | .deleteBlock id =>
      some { w with
        shared := { w.shared with board := w.shared.board.filter fun t => t.block.id ≠ id } }

/-- A created initiative, with nothing spawned and nobody at work. -/
def startWorld (goal : String) (now : Nat) : World :=
  { shared := { row := create goal now, board := [], minted := [] }
    procs := [] }

end Initiatives
end CatFactory
