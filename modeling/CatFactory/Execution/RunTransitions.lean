import CatFactory.Foundation.Runs
import CatFactory.Initiative.Model
import CatFactory.Execution.StepGraph

/-!
# The transitions of a run and the status of its block

A run works on one block of the board, and most of the run's transitions write
the block's status as well as the run.  The merger and its like put the block
into a terminal status in the middle of a run, and later steps follow.
-/

namespace CatFactory
namespace Execution

open Foundation
open Initiatives (BlockStatus PullRequestRef)

/-!
## The block
-/

inductive BlockLevel where
  | frame
  | module
  | task
  | epic
  | initiative
deriving DecidableEq

structure PeerPullRequest where
  repo : String
  frameIds : List String := []
  ref : PullRequestRef
deriving DecidableEq

structure Block where
  id : String
  level : Option BlockLevel
  taskType : Option String := none
  status : BlockStatus
  progress : Rat := 0
  pullRequest : Option PullRequestRef := none
  peerPullRequests : List PeerPullRequest := []
deriving DecidableEq

/-- The block's own pull request and those of its peers. -/
def allPullRequests (block : Block) : List PullRequestRef :=
  block.pullRequest.toList ++ block.peerPullRequests.map PeerPullRequest.ref

/-- The task works on a pull request that somebody else opened. -/
def taskTypeAttachesPullRequest (taskType : Option String) : Bool :=
  taskType = some "resolve-conflicts"

def MERGER_AGENT_KIND : String := "merger"

def INITIATIVE_AGENT_KINDS : List String :=
  ["initiative-interviewer", "initiative-analyst", "initiative-planner",
    "initiative-committer"]

def isInitiativeAgentKind (kind : String) : Bool :=
  INITIATIVE_AGENT_KINDS.contains kind

def levelOf (block : Block) : BlockLevel :=
  block.level.getD BlockLevel.frame

def plansInitiative (run : ExecutionInstance) : Bool :=
  run.steps.any (fun step => isInitiativeAgentKind step.agentKind)

def mappingOnly (run : ExecutionInstance) : Bool :=
  run.steps.all (fun step => step.agentKind = "blueprints")

def hasMerger (run : ExecutionInstance) : Bool :=
  run.steps.any (fun step => step.agentKind = MERGER_AGENT_KIND)

/-!
## Block writes
-/

/-- A run with the block it works on, if the board still has it. -/
structure BoardRun where
  run : ExecutionInstance
  block : Option Block
deriving DecidableEq

def doneCount (steps : List PipelineStep) : Nat :=
  (steps.filter (fun s => s.state = AgentState.done)).length

def stepProgress (steps : List PipelineStep) : Rat :=
  min 1 (doneCount steps / max steps.length 1)

def updateBlock (change : Block -> Block) (s : BoardRun) : BoardRun :=
  { s with block := s.block.map change }

def updateBlockProgress (status : BlockStatus) (s : BoardRun) : BoardRun :=
  updateBlock
    (fun block => { block with status := status, progress := stepProgress s.run.steps })
    s

def refreshBlockProgress (s : BoardRun) : BoardRun :=
  updateBlock (fun block => { block with progress := stepProgress s.run.steps }) s

def blockStatus (s : BoardRun) : Option BlockStatus :=
  s.block.map Block.status

/-- The block holds a status that no later step may take back. -/
def blockIsTerminal (s : BoardRun) : Bool :=
  blockStatus s = some BlockStatus.done ∨ blockStatus s = some BlockStatus.prReady

/-- What the end of a pipeline makes of the block. -/
def finalizeBlock (s : BoardRun) : BoardRun :=
  match s.block with
  | none => s
  | some block =>
      if block.status = BlockStatus.done then s
      else if levelOf block ≠ BlockLevel.task then
        if plansInitiative s.run then
          updateBlock
            (fun b => { b with status := BlockStatus.inProgress, progress := 0 }) s
        else
          updateBlock
            (fun b =>
              { b with
                status := if mappingOnly s.run then BlockStatus.ready else BlockStatus.done
                progress := 1 })
            s
      else if hasMerger s.run then
        -- the merger has decided; only a missing decision is made up for
        if block.status ≠ BlockStatus.done ∧ block.status ≠ BlockStatus.prReady then
          updateBlock
            (fun b => { b with status := BlockStatus.prReady, progress := 1 }) s
        else s
      else if allPullRequests block = [] ∨
          taskTypeAttachesPullRequest block.taskType = true then
        updateBlock (fun b => { b with status := BlockStatus.done, progress := 1 }) s
      else
        updateBlock (fun b => { b with status := BlockStatus.prReady, progress := 1 }) s

/-!
## The transitions
-/

def settleStepAndAdvance (now : Nat) (isFinalStep resolverOwnsTerminalStatus : Bool)
    (s : BoardRun) : BoardRun :=
  if isFinalStep then
    finalizeBlock { s with run := { s.run with status := ExecutionStatus.done } }
  else
    let next := s.run.currentStep + 1
    let s :=
      { s with
        run := { s.run with
          currentStep := next
          steps := s.run.steps.modify next (startStep now) } }
    if resolverOwnsTerminalStatus || blockIsTerminal s then refreshBlockProgress s
    else updateBlockProgress BlockStatus.inProgress s

def isLastIndex (run : ExecutionInstance) (stepIndex : Nat) : Bool :=
  stepIndex + 1 = run.steps.length

/-- The in-memory half of a resolved gate: finish its step and move the cursor. -/
def advanceRunPastGate (now stepIndex : Nat) (s : BoardRun) : Option BoardRun :=
  s.run.steps[stepIndex]?.map fun step =>
    let steps := s.run.steps.set stepIndex { finishStep now step with progress := 1 }
    if isLastIndex s.run stepIndex then
      { s with run := { s.run with steps := steps, status := ExecutionStatus.done } }
    else
      { s with
        run := { s.run with
          steps := steps.modify (stepIndex + 1) (startStep now)
          currentStep := stepIndex + 1
          status :=
            if s.run.status = ExecutionStatus.blocked then ExecutionStatus.running
            else s.run.status } }

/-- The block writes that follow it; a gate without an approval throws. -/
def settleAdvancedGate (stepIndex : Nat) (s : BoardRun) : Option BoardRun :=
  match s.run.steps[stepIndex]?.bind PipelineStep.approval with
  | none => none
  | some _ =>
      if isLastIndex s.run stepIndex then some (finalizeBlock s)
      else if blockIsTerminal s then some (refreshBlockProgress s)
      else some (updateBlockProgress BlockStatus.inProgress s)

def openDecisionPark (now : Nat) (approvalId proposal : String)
    (step : PipelineStep) : PipelineStep :=
  pauseStepForInput now
    { step with
      approval := some
        { id := approvalId
          status := StepApprovalStatus.pending
          proposal := proposal } }

/-- The run as `parkStepOnDecision` persists it. -/
def parkedRun (now stepIndex : Nat) (approvalId proposal : String)
    (run : ExecutionInstance) : Option ExecutionInstance :=
  run.steps[stepIndex]?.map fun step =>
    { run with
      steps := run.steps.set stepIndex (openDecisionPark now approvalId proposal step)
      status := ExecutionStatus.blocked }

def parkStepOnDecision (now stepIndex : Nat) (approvalId proposal : String)
    (s : BoardRun) : Option BoardRun :=
  (parkedRun now stepIndex approvalId proposal s.run).map fun run =>
    updateBlockProgress BlockStatus.blocked { s with run := run }

/-- What the caller of `failRun` knows about the failure. -/
structure FailureCause where
  kind : String
  message : String
  detail : Option String
  hint : Option String
  reason : Option String
deriving DecidableEq

def agentFailureOf (run : ExecutionInstance) (cause : FailureCause) (now : Nat) :
    AgentFailure :=
  { kind := cause.kind
    message := cause.message
    detail := cause.detail
    hint := cause.hint
    reason := cause.reason
    occurredAt := now
    lastSubtasks := run.steps[run.currentStep]?.bind PipelineStep.subtasks
    stepIndex := some run.currentStep }

def isSettledRun (run : ExecutionInstance) : Bool :=
  run.status = ExecutionStatus.failed ∨ run.status = ExecutionStatus.done

/-- Record a terminal failure, unless the run has already failed or finished. -/
def failRun (now : Nat) (cause : FailureCause) (s : BoardRun) : BoardRun :=
  if isSettledRun s.run then s
  else
    let s :=
      { s with
        run := { s.run with
          status := ExecutionStatus.failed
          failure := some (agentFailureOf s.run cause now) } }
    updateBlock
      (fun block =>
        { block with
          status := BlockStatus.blocked
          progress :=
            if 0 < s.run.steps.length then doneCount s.run.steps / s.run.steps.length
            else 0 })
      s

inductive Transition where
  | settleStepAndAdvance (now : Nat) (isFinalStep resolverOwnsTerminalStatus : Bool)
  | advanceRunPastGate (now stepIndex : Nat)
  | settleAdvancedGate (stepIndex : Nat)
  | parkStepOnDecision (now stepIndex : Nat) (approvalId proposal : String)
  | failRun (now : Nat) (cause : FailureCause)
  | finalizeBlock
deriving DecidableEq

def BoardRun.step (s : BoardRun) : Transition -> Option BoardRun
  | .settleStepAndAdvance now isFinalStep resolverOwnsTerminalStatus =>
      some (Execution.settleStepAndAdvance now isFinalStep
        resolverOwnsTerminalStatus s)
  | .advanceRunPastGate now stepIndex => Execution.advanceRunPastGate now stepIndex s
  | .settleAdvancedGate stepIndex => Execution.settleAdvancedGate stepIndex s
  | .parkStepOnDecision now stepIndex approvalId proposal =>
      Execution.parkStepOnDecision now stepIndex approvalId proposal s
  | .failRun now cause => some (Execution.failRun now cause s)
  | .finalizeBlock => some (Execution.finalizeBlock s)

end Execution
end CatFactory
