import CatFactory.Foundation.Text
import CatFactory.Foundation.Versioned

/-!
# Fix tasks for findings

People mark findings of an expedition to be addressed, and dismiss others.  A
marking claims its findings one after the other: the claim is written to the run
first, then the task is put on the board and its run started, and the claim is
settled last.  The calls that do so share the run, the board and the clock.
-/

namespace CatFactory
namespace Expedition

open Foundation

/-!
## Findings and their records
-/

inductive BugFishingSeverity where
  | critical
  | high
  | medium
  | low
deriving DecidableEq

inductive BugFishingFindingKind where
  | bug
  | logicGap
  | edgeCase
  | footgun
  | requirementGap
  | other
deriving DecidableEq

def BugFishingFindingKind.text : BugFishingFindingKind -> String
  | .bug => "bug"
  | .logicGap => "logic-gap"
  | .edgeCase => "edge-case"
  | .footgun => "footgun"
  | .requirementGap => "requirement-gap"
  | .other => "other"

inductive BugFishingConfidence where
  | high
  | medium
  | low
deriving DecidableEq

def BugFishingConfidence.text : BugFishingConfidence -> String
  | .high => "high"
  | .medium => "medium"
  | .low => "low"

inductive BugFishingSpawnStatus where
  | pending
  | spawned
  | failed
deriving DecidableEq

structure BugFishingSpawn where
  status : BugFishingSpawnStatus
  taskId : String
  executionId : Option String := none
  pipelineId : String
  requestedBy : Option String := none
  requestedAt : Int
  failureReason : Option String := none
deriving DecidableEq

structure BugFishingFinding where
  id : String
  path : String := ""
  line : Option Int := none
  severity : BugFishingSeverity := .medium
  kind : BugFishingFindingKind := .other
  confidence : BugFishingConfidence := .medium
  title : String := ""
  detail : String := ""
  failureScenario : Option String := none
  evidence : Option String := none
  suggestedFix : Option String := none
  spawn : Option BugFishingSpawn := none
  dismissed : Bool := false
deriving DecidableEq

inductive BugFishingStatus where
  | fishing
  | awaitingTriage
  | done
deriving DecidableEq

structure BugFishingStepState where
  status : BugFishingStatus
  findings : List BugFishingFinding
  defaultFixPipelineId : Option String := none
deriving DecidableEq

def bugFishingAcceptsCuration (status : BugFishingStatus) : Bool :=
  status ≠ .done

/-- `BUG_FISHING_SPAWN_CLAIM_TTL_MS`. -/
def spawnClaimTtlMs : Int := 5 * 60000

def bugFishingSpawnIsClaimable (spawn : Option BugFishingSpawn) (now : Int) : Bool :=
  match spawn with
  | none => true
  | some record =>
      match record.status with
      | .spawned => false
      | .failed => true
      | .pending => spawnClaimTtlMs ≤ now - record.requestedAt

/-!
## Claim, settle and dismiss
-/

/-- Change the findings with an id that a test accepts. -/
def BugFishingStepState.revise (findingId : String) (accepts : BugFishingFinding -> Bool)
    (change : BugFishingFinding -> BugFishingFinding) (state : BugFishingStepState) :
    BugFishingStepState :=
  { state with
    findings := state.findings.map fun f =>
      if f.id = findingId ∧ accepts f = true then change f else f }

def claimBugFishingSpawn (state : BugFishingStepState) (findingId : String)
    (claim : BugFishingSpawn) (now : Int) : BugFishingStepState :=
  state.revise findingId
    (fun f => !f.dismissed && bugFishingSpawnIsClaimable f.spawn now)
    fun f => { f with spawn := some claim }

inductive SpawnOutcome where
  | spawned (executionId : Option String)
  | failed (failureReason : String)
deriving DecidableEq

def SpawnOutcome.settle (record : BugFishingSpawn) : SpawnOutcome -> BugFishingSpawn
  | .spawned executionId => { record with status := .spawned, executionId := executionId }
  | .failed failureReason =>
      { record with status := .failed, failureReason := some failureReason }

def settleBugFishingSpawn (state : BugFishingStepState) (findingId taskId : String)
    (outcome : SpawnOutcome) : BugFishingStepState :=
  state.revise findingId
    (fun f => f.spawn.any fun record => record.taskId = taskId)
    fun f => { f with spawn := f.spawn.map fun record => outcome.settle record }

def dismissBugFishingFinding (state : BugFishingStepState) (findingId : String)
    (now : Int) : BugFishingStepState :=
  state.revise findingId
    (fun f => bugFishingSpawnIsClaimable f.spawn now)
    fun f => { f with dismissed := true }

/-!
## The task of a finding
-/

/-- The frame that holds the expedition, with its service row. -/
structure SpawnHost where
  frameId : String
  frameType : String
  serviceId : Option String
deriving DecidableEq

/-- The block of a fix task. -/
structure FixTask where
  id : String
  title : String
  type : String
  description : String
  parentId : String
  expeditionId : String
  severity : BugFishingSeverity
  stepsToReproduce : Option String
  pipelineId : String
  createdBy : Option String
  fragmentIds : List String
  serviceId : Option String
deriving DecidableEq

/-- What a text says, unless it is empty. -/
def nonEmpty (text : Option String) : Option String :=
  text.filter fun s => s ≠ ""

def whereLine (finding : BugFishingFinding) : List String :=
  if finding.path = "" then []
  else
    match finding.line with
    | none => ["", "Where: `" ++ finding.path ++ "`"]
    | some line =>
        ["", "Where: `" ++ finding.path ++ "`" ++
          (if line = 0 then "" else " line " ++ toString line)]

def renderFindingBrief (finding : BugFishingFinding) : String :=
  "\n".intercalate
    ([finding.detail] ++ whereLine finding ++
      ((nonEmpty finding.failureScenario).map fun s => ["", "How it fires: " ++ s]).getD [] ++
      ((nonEmpty finding.evidence).map fun s =>
        ["", "Evidence the bug-fishing expedition cited (verify it before relying on it):",
          s]).getD [] ++
      ((nonEmpty finding.suggestedFix).map fun s =>
        ["", "The expedition suggested: " ++ s]).getD [] ++
      ["", "Found by a bug-fishing expedition (" ++ finding.kind.text ++ ", " ++
        finding.confidence.text ++ " confidence)."])

/-!
## Marking findings
-/

structure AddressBugFishingFindingsInput where
  findingIds : List String
  pipelineId : Option String := none
deriving DecidableEq

/-- The run that is asked for and what a marking reads beside it: the pipelines of
the workspace and its setting, the frame above the expedition, and who asks. -/
structure Surroundings where
  executionId : String
  pipelineIds : List String
  configured : Option String := none
  expeditionBlockId : String
  host : Option SpawnHost
  initiatedBy : Option String := none
deriving DecidableEq

inductive CurationRefusal where
  | expeditionSettled
  | unknownFinding (findingIds : List String)
  | alreadyAddressed (findingIds : List String)
  | pipelineNotFound (pipelineId : String)
  | noHostFrame
deriving DecidableEq

/-- `TEST_VERIFIED_BUGFIX_PIPELINE_ID`. -/
def testVerifiedBugfixPipelineId : String := "pl_bugfix_tested"

def resolveDefaultFixPipelineId (configured : Option String) : String :=
  (nonEmpty (configured.map trim)).getD testVerifiedBugfixPipelineId

def resolveSpawnPipelineId (around : Surroundings) (override : Option String)
    (state : BugFishingStepState) : Except CurationRefusal String :=
  let wanted :=
    ((nonEmpty (override.map trim)).or (nonEmpty state.defaultFixPipelineId)).getD
      (resolveDefaultFixPipelineId around.configured)
  if wanted ∈ around.pipelineIds then .ok wanted else .error (.pipelineNotFound wanted)

/-- What the findings of one marking share. -/
structure SpawnBatch where
  executionId : String
  expeditionBlockId : String
  host : SpawnHost
  pipelineId : String
  initiatedBy : Option String
deriving DecidableEq

/-- The checks of `address` on the run it read, and the findings it goes on to. -/
def acceptMarking (state : BugFishingStepState) (around : Surroundings)
    (input : AddressBugFishingFindingsInput) (now : Int) :
    Except CurationRefusal (SpawnBatch × List BugFishingFinding) := do
  if bugFishingAcceptsCuration state.status = false then
    throw .expeditionSettled
  let requested := input.findingIds.eraseDups
  let targets := state.findings.filter fun f => f.id ∈ requested
  let missing := requested.filter fun id => targets.all fun f => f.id ≠ id
  if missing ≠ [] then
    throw (.unknownFinding missing)
  let already := targets.filter fun f => !bugFishingSpawnIsClaimable f.spawn now
  if already ≠ [] then
    throw (.alreadyAddressed (already.map BugFishingFinding.id))
  let pipelineId ← resolveSpawnPipelineId around input.pipelineId state
  match around.host with
  | none => throw .noHostFrame
  | some host =>
      return (
        { executionId := around.executionId
          expeditionBlockId := around.expeditionBlockId
          host := host
          pipelineId := pipelineId
          initiatedBy := around.initiatedBy }, targets)

/-- The checks of `dismissFinding` and its change. -/
def dismissFinding (state : BugFishingStepState) (findingId : String) (now : Int) :
    Except CurationRefusal BugFishingStepState := do
  if bugFishingAcceptsCuration state.status = false then
    throw .expeditionSettled
  match state.findings.find? fun f => f.id = findingId with
  | none => throw (.unknownFinding [findingId])
  | some finding =>
      if !finding.dismissed && !bugFishingSpawnIsClaimable finding.spawn now then
        throw (.alreadyAddressed [findingId])
      return dismissBugFishingFinding state findingId now

/-- One finding of a marking under way: the task minted for it, when its claim was
asked for, and the findings that wait behind it. -/
structure Spawning where
  batch : SpawnBatch
  finding : BugFishingFinding
  taskId : String
  requestedAt : Int
  rest : List BugFishingFinding
deriving DecidableEq

def Spawning.claim (s : Spawning) : BugFishingSpawn :=
  { status := .pending
    taskId := s.taskId
    pipelineId := s.batch.pipelineId
    requestedBy := s.batch.initiatedBy
    requestedAt := s.requestedAt }

/-- The block that `spawnFixTask` inserts. -/
def Spawning.block (s : Spawning) (fragmentIds : List String) : FixTask :=
  { id := s.taskId
    title := (nonEmpty (some s.finding.title)).getD "Bug-fishing finding"
    type := s.batch.host.frameType
    description := renderFindingBrief s.finding
    parentId := s.batch.host.frameId
    expeditionId := s.batch.expeditionBlockId
    severity := s.finding.severity
    stepsToReproduce := nonEmpty s.finding.failureScenario
    pipelineId := s.batch.pipelineId
    createdBy := s.batch.initiatedBy
    fragmentIds := fragmentIds
    serviceId := s.batch.host.serviceId }

/-- The writes of a marking to the run. -/
inductive SpawnWrite where
  | claim
  | settle (outcome : SpawnOutcome)
deriving DecidableEq

def Spawning.reduce (s : Spawning) (now : Int) (state : BugFishingStepState) :
    SpawnWrite -> BugFishingStepState
  | .claim => claimBugFishingSpawn state s.finding.id s.claim now
  | .settle outcome => settleBugFishingSpawn state s.finding.id s.taskId outcome

/-!
## Calls
-/

structure StoredExpedition where
  state : BugFishingStepState
  rev : Nat := 0
deriving DecidableEq

/-- The run as an attempt of `mutateInstance` read it, and when. -/
structure Reading where
  seen : StoredExpedition
  readAt : Int
deriving DecidableEq

/-- Where a call is.  A write that has no reading yet is about to load the run. -/
inductive CallPoint where
  | picking (batch : SpawnBatch) (targets : List BugFishingFinding)
  | writing (s : Spawning) (write : SpawnWrite) (attempt : Nat) (reading : Option Reading)
  | inserting (s : Spawning)
  | starting (s : Spawning)
  | rollingBack (s : Spawning) (failureReason : String)
  | dismissing (findingId : String) (attempt : Nat) (reading : Option Reading)
  | ended
deriving DecidableEq

/-- How a call to the store or to the board ends.  One that is not acknowledged
took effect, and fails all the same. -/
inductive CallOutcome where
  | ok
  | failed (message : String)
  | unacknowledged (message : String)
deriving DecidableEq

inductive StartOutcome where
  | started (executionId : Option String)
  | refused (message : String)
  /-- The run is under way, and the start fails. -/
  | unacknowledged (message : String)
deriving DecidableEq

/-- What a call meets when it goes on. -/
structure Io where
  call : CallOutcome := .ok
  start : StartOutcome := .started none
  taskId : String := ""
  fragmentIds : List String := []
deriving DecidableEq

/-- `MAX_MUTATE_ATTEMPTS`. -/
def maxMutateAttempts : Nat := 8

inductive SwapResult where
  | landed
  | contended
  | threw (message : String)
deriving DecidableEq

/-- The guarded write of an attempt. -/
def trySwap (stored seen : StoredExpedition) (next : BugFishingStepState) (call : CallOutcome) :
    StoredExpedition × SwapResult :=
  let swapped :=
    compareAndSwap StoredExpedition.rev (some stored) { state := next, rev := seen.rev + 1 }
      seen.rev
  match call with
  | .failed message => (stored, .threw message)
  | .unacknowledged message => (swapped.getD stored, .threw message)
  | .ok =>
      match swapped with
      | some row => (row, .landed)
      | none => (stored, .contended)

/-- How `spawnForFinding` goes on once a write of it was thrown out: a claim ends
the call, a failing settle releases the claim, a failing release ends the call. -/
def Spawning.afterThrow (s : Spawning) (message : String) : SpawnWrite -> CallPoint
  | .claim => .ended
  | .settle (.spawned _) => .writing s (.settle (.failed message)) 0 none
  | .settle (.failed _) => .ended

/-- How `spawnForFinding` goes on once a write of it landed. -/
def Spawning.afterWrite (s : Spawning) (next : BugFishingStepState) : SpawnWrite -> CallPoint
  | .claim =>
      -- another call's claim is on the finding unless the record names the minted task
      if ((next.findings.find? fun f => f.id = s.finding.id).bind
          BugFishingFinding.spawn).map BugFishingSpawn.taskId = some s.taskId then
        .inserting s
      else .ended
  | .settle (.spawned _) => .picking s.batch s.rest
  | .settle (.failed _) => .ended

/-- The text of the error that a spent retry budget raises. -/
def contendedMessage (executionId : String) : String :=
  "Execution '" ++ executionId ++ "' is being modified concurrently; retry"

def Spawning.afterSwap (s : Spawning) (write : SpawnWrite) (attempt : Nat)
    (next : BugFishingStepState) : SwapResult -> CallPoint
  | .landed => s.afterWrite next write
  | .contended =>
      if attempt + 1 < maxMutateAttempts then .writing s write (attempt + 1) none
      else s.afterThrow (contendedMessage s.batch.executionId) write
  | .threw message => s.afterThrow message write

/-!
## The system
-/

/-- A task whose run was started, and the finding it is to fix. -/
structure StartedTask where
  taskId : String
  findingId : String
deriving DecidableEq

/-- The stored expedition, the blocks of fix tasks on the board, the tasks whose
runs were started, the task ids with the calls that minted them, the clock, and
the calls. -/
structure FixSystem where
  stored : StoredExpedition
  board : List FixTask := []
  started : List StartedTask := []
  minted : List (String × Nat) := []
  now : Int
  calls : List CallPoint := []
deriving DecidableEq

def FixSystem.goto (w : FixSystem) (c : Nat) (point : CallPoint) : FixSystem :=
  { w with calls := w.calls.set c point }

def Spawning.startedTask (s : Spawning) : StartedTask :=
  { taskId := s.taskId, findingId := s.finding.id }

def FixSystem.advance (w : FixSystem) (c : Nat) (io : Io) : CallPoint -> Option FixSystem
  | .picking _ [] => some (w.goto c .ended)
  | .picking batch (finding :: rest) =>
      if io.taskId ∈ w.minted.map Prod.fst then none
      else
        let s : Spawning :=
          { batch := batch
            finding := finding
            taskId := io.taskId
            requestedAt := w.now
            rest := rest }
        some { w.goto c (.writing s .claim 0 none) with
          minted := (io.taskId, c) :: w.minted }
  | .writing s write attempt none =>
      match io.call with
      | .ok =>
          some (w.goto c (.writing s write attempt
            (some { seen := w.stored, readAt := w.now })))
      | .failed message => some (w.goto c (s.afterThrow message write))
      | .unacknowledged message => some (w.goto c (s.afterThrow message write))
  | .writing s write attempt (some reading) =>
      let next := s.reduce reading.readAt reading.seen.state write
      let swap := trySwap w.stored reading.seen next io.call
      some { w.goto c (s.afterSwap write attempt next swap.2) with stored := swap.1 }
  | .inserting s =>
      let board := w.board ++ [s.block io.fragmentIds]
      match io.call with
      | .ok => some { w.goto c (.starting s) with board := board }
      | .failed message => some (w.goto c (.writing s (.settle (.failed message)) 0 none))
      | .unacknowledged message =>
          some { w.goto c (.writing s (.settle (.failed message)) 0 none) with
            board := board }
  | .starting s =>
      match io.start with
      | .started executionId =>
          some { w.goto c (.writing s (.settle (.spawned executionId)) 0 none) with
            started := s.startedTask :: w.started }
      | .refused message => some (w.goto c (.rollingBack s message))
      | .unacknowledged message =>
          some { w.goto c (.rollingBack s message) with
            started := s.startedTask :: w.started }
  | .rollingBack s failureReason =>
      let released := w.goto c (.writing s (.settle (.failed failureReason)) 0 none)
      match io.call with
      | .failed _ => some released
      | _ => some { released with board := w.board.filter fun b => b.id ≠ s.taskId }
  | .dismissing findingId attempt none =>
      match io.call with
      | .ok =>
          some (w.goto c (.dismissing findingId attempt
            (some { seen := w.stored, readAt := w.now })))
      | _ => some (w.goto c .ended)
  | .dismissing findingId attempt (some reading) =>
      match dismissFinding reading.seen.state findingId reading.readAt with
      | .error _ => some (w.goto c .ended)
      | .ok next =>
          let swap := trySwap w.stored reading.seen next io.call
          let point :=
            if swap.2 = .contended ∧ attempt + 1 < maxMutateAttempts then
              CallPoint.dismissing findingId (attempt + 1) none
            else CallPoint.ended
          some { w.goto c point with stored := swap.1 }
  | .ended => none

inductive FixAction where
  | address (around : Surroundings) (input : AddressBugFishingFindingsInput)
  | dismiss (findingId : String)
  | advance (c : Nat) (io : Io)
  | tick (elapsed : Nat)
deriving DecidableEq

def BugFishingStepState.ids (state : BugFishingStepState) : List String :=
  state.findings.map BugFishingFinding.id

def fixAct (w : FixSystem) : FixAction -> Option FixSystem
  | .address around input =>
      (acceptMarking w.stored.state around input w.now).toOption.map fun accepted =>
        { w with calls := w.calls ++ [.picking accepted.1 accepted.2] }
  | .dismiss findingId =>
      some { w with calls := w.calls ++ [.dismissing findingId 0 none] }
  | .advance c io => w.calls[c]?.bind fun point => w.advance c io point
  | .tick elapsed => some { w with now := w.now + elapsed }

/-- An expedition before the first marking: its findings carry different ids, and
none of them has a record. -/
structure FreshExpedition where
  state : BugFishingStepState
  distinct : state.ids.Nodup
  unmarked : forall f, f ∈ state.findings -> f.spawn = none

def FreshExpedition.begin (expedition : FreshExpedition) (now : Int) : FixSystem :=
  { stored := { state := expedition.state }, now := now }

end Expedition
end CatFactory
