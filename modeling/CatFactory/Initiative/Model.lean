import CatFactory.Foundation.CodeUnits
import CatFactory.Foundation.Text

/-!
# The initiative entity

An initiative is a body of work planned once and then executed as a loop of
ordinary tasks.  This module holds the persisted entity, the planner's draft
and the inputs of the human edits, with the fields that the logic reads or
writes.  Optional arrays of the wire format are lists here, empty when absent.
Texts that are cut to a length hold UTF-16 units.
-/

namespace CatFactory
namespace Initiatives

open Foundation (Utf16)

/-- An identifier the strict parse has found non-empty. -/
abbrev IdField := { text : String // text ≠ "" }

inductive InitiativeItemStatus where
  | pending
  | inProgress
  | prOpen
  | done
  | blocked
  | skipped
deriving DecidableEq

inductive InitiativeStatus where
  | planning
  | awaitingApproval
  | executing
  | paused
  | done
  | cancelled
deriving DecidableEq

/-- How messages spell a status. -/
def InitiativeItemStatus.text : InitiativeItemStatus -> String
  | pending => "pending"
  | inProgress => "in_progress"
  | prOpen => "pr_open"
  | done => "done"
  | blocked => "blocked"
  | skipped => "skipped"

def InitiativeStatus.text : InitiativeStatus -> String
  | planning => "planning"
  | awaitingApproval => "awaiting_approval"
  | executing => "executing"
  | paused => "paused"
  | done => "done"
  | cancelled => "cancelled"

/-!
## Policy and plan
-/

/-- Scores lie between zero and one and are only ever compared. -/
structure InitiativeEstimate where
  complexity : Rat
  risk : Rat
  impact : Rat
  rationale : String
deriving DecidableEq

structure InitiativePipelineRule where
  pipelineId : String
  minComplexity : Option Rat
  minRisk : Option Rat
  minImpact : Option Rat
deriving DecidableEq

inductive OnMissingEstimate where
  | default
  | strongest
deriving DecidableEq

structure InitiativeExecutionPolicy where
  maxConcurrent : Nat
  rules : List InitiativePipelineRule
  defaultPipelineId : String
  onMissingEstimate : OnMissingEstimate
deriving DecidableEq

structure InitiativePhase where
  id : String
  title : String
  goal : String
  maxConcurrent : Option Nat
  checkpoint : Bool
  checkpointClearedAt : Option Nat
deriving DecidableEq

/-- The decoration a preset puts on a spawned task; the loop reads the gates. -/
structure InitiativeItemSpawn where
  taskType : Option String
  taskTypeFields : Option (List (String × String))
  fragmentIds : Option (List String)
  agentConfig : Option (List (String × String))
  gates : Option (List Bool)
deriving DecidableEq

structure PullRequestRef where
  url : String
  number : Option Nat
deriving DecidableEq

structure InitiativeItem where
  id : String
  phaseId : String
  title : Utf16
  description : Utf16
  dependsOn : List String
  estimate : Option InitiativeEstimate
  pipelineId : Option String
  status : InitiativeItemStatus
  blockId : Option String
  pr : Option PullRequestRef
  note : Option Utf16
  spawn : Option InitiativeItemSpawn
deriving DecidableEq

/-!
## The tracker's records
-/

inductive DecisionSource where
  | planning
  | human
  | agent
deriving DecidableEq

structure InitiativeDecision where
  id : String
  createdAt : Nat
  title : String
  detail : String
  source : DecisionSource
deriving DecidableEq

structure InitiativeDeviation where
  id : String
  createdAt : Nat
  itemId : Option String
  description : Utf16
  resolution : Option String
deriving DecidableEq

inductive FollowUpStatus where
  | open
  | promoted
  | dismissed
deriving DecidableEq

structure InitiativeFollowUp where
  id : String
  createdAt : Nat
  sourceItemId : Option String
  title : Utf16
  detail : Utf16
  status : FollowUpStatus
  promotedItemId : Option String
deriving DecidableEq

structure TrackerDoc where
  version : Nat
  hash : String
  committedAt : Nat
deriving DecidableEq

structure Initiative where
  goal : String
  constraints : List String
  nonGoals : List String
  analysisSummary : String
  phases : List InitiativePhase
  items : List InitiativeItem
  policy : Option InitiativeExecutionPolicy
  decisions : List InitiativeDecision
  deviations : List InitiativeDeviation
  followUps : List InitiativeFollowUp
  caveats : List String
  status : InitiativeStatus
  doc : Option TrackerDoc
  rev : Nat
  updatedAt : Nat
deriving DecidableEq

/-!
## The planner's draft
-/

structure InitiativeDraftPhase where
  id : Option IdField
  title : String
  goal : String
  maxConcurrent : Option Nat
  checkpoint : Bool
deriving DecidableEq

structure InitiativeDraftItem where
  id : Option IdField
  phaseId : IdField
  title : String
  description : String
  dependsOn : List String
  estimate : Option InitiativeEstimate
  pipelineId : Option String
  spawn : Option InitiativeItemSpawn
deriving DecidableEq

structure InitiativeDraftDecision where
  title : String
  detail : String
deriving DecidableEq

structure InitiativePlanDraft where
  goal : String
  constraints : List String
  nonGoals : List String
  analysisSummary : String
  phases : List InitiativeDraftPhase
  items : List InitiativeDraftItem
  policy : InitiativeExecutionPolicy
  decisions : List InitiativeDraftDecision
  caveats : List String
deriving DecidableEq

/-!
## Inputs of the human edits
-/

structure PromoteInitiativeFollowUpInput where
  phaseId : String
  title : Option Utf16
  description : Option Utf16
  estimate : Option InitiativeEstimate
  pipelineId : Option String
  dependsOn : Option (List String)
deriving DecidableEq

inductive ItemAction where
  | retry
  | skip
deriving DecidableEq

structure UpdateInitiativeItemInput where
  title : Option Utf16
  description : Option Utf16
  estimate : Option InitiativeEstimate
  pipelineId : Option String
  dependsOn : Option (List String)
  action : Option ItemAction
deriving DecidableEq

/-!
## Boards and errors
-/

inductive BlockStatus where
  | planned
  | ready
  | inProgress
  | blocked
  | prReady
  | done
deriving DecidableEq

/-- A spawned task's row on the board, as far as the loop reads it. -/
structure TaskBlock where
  id : String
  status : BlockStatus
  pullRequest : Option PullRequestRef
deriving DecidableEq

/-- The two errors that the logic throws, with their messages. -/
inductive DomainError where
  | validation (message : String)
  | conflict (message : String)
deriving DecidableEq

end Initiatives
end CatFactory
