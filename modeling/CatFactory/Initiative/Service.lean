import CatFactory.Initiative.Logic

/-!
# The initiative service

Creation of the entity and the transforms that the service wraps in its
guarded write: the plan's ingest, the lifecycle controls and the curation.
The guarded write itself is a loop of reads and compare-and-swaps and belongs
to the transition system that interleaves it with others.
-/

namespace CatFactory
namespace Initiatives

/-- How often a guarded write is tried before it conflicts loudly. -/
def casAttempts : Nat := 3

/-- The entity as creation inserts it, its goal taken from the form. -/
def create (goal : String) (now : Nat) : Initiative :=
  { goal := goal
    constraints := []
    nonGoals := []
    analysisSummary := ""
    phases := []
    items := []
    policy := none
    decisions := []
    deviations := []
    followUps := []
    caveats := []
    status := .planning
    doc := none
    rev := 0
    updatedAt := now }

/-- Equal up to the bookkeeping of the write itself. -/
def sameContent (a b : Initiative) : Bool :=
  { a with rev := 0, updatedAt := 0 } = { b with rev := 0, updatedAt := 0 }

def ingestPlan (current : Initiative) (draft : InitiativePlanDraft) (now : Nat) :
    Except DomainError Initiative :=
  match validatePlanDraft draft with
  | .error e => .error e
  | .ok () => .ok (applyPlanDraft current draft now)

def markExecuting (current : Initiative) (doc : Option (Nat × String)) (now : Nat) :
    Initiative :=
  { current with
    status :=
      if current.status = .planning ∨ current.status = .awaitingApproval then .executing
      else current.status
    doc :=
      match doc with
      | some (version, hash) =>
          some { version := version, hash := hash, committedAt := now }
      | none => current.doc }

def pause (current : Initiative) : Initiative :=
  if current.status = .executing then { current with status := .paused } else current

/-- Resuming clears the checkpoint that is pending, whatever caused the pause. -/
def resume (current : Initiative) (now : Nat) : Initiative :=
  if current.status ≠ .paused then current
  else
    let cleared :=
      match pendingCheckpoint current with
      | some checkpoint => applyCheckpointCleared current checkpoint.id now
      | none => current
    { cleared with status := .executing }

def cancel (current : Initiative) : Initiative :=
  if current.status = .done ∨ current.status = .cancelled then current
  else { current with status := .cancelled }

/-- A write that somebody other than a loop tick asks for. -/
inductive Edit where
  | ingestPlan (draft : InitiativePlanDraft)
  | markExecuting (doc : Option (Nat × String))
  | pause
  | resume
  | cancel
  | promoteFollowUp (followUpId : String) (input : PromoteInitiativeFollowUpInput)
  | dismissFollowUp (followUpId : String)
  | updateItem (itemId : String) (input : UpdateInitiativeItemInput)
  | updatePolicy (policy : InitiativeExecutionPolicy)
  | runHarvest (harvest : InitiativeRunHarvest)
deriving DecidableEq

def Edit.transform (now : Nat) (current : Initiative) :
    Edit -> Except DomainError Initiative
  | .ingestPlan draft => Initiatives.ingestPlan current draft now
  | .markExecuting doc => .ok (Initiatives.markExecuting current doc now)
  | .pause => .ok (Initiatives.pause current)
  | .resume => .ok (Initiatives.resume current now)
  | .cancel => .ok (Initiatives.cancel current)
  | .promoteFollowUp followUpId input => applyPromoteFollowUp current followUpId input
  | .dismissFollowUp followUpId => applyDismissFollowUp current followUpId
  | .updateItem itemId input => applyItemEdit current itemId input
  | .updatePolicy policy => applyPolicyEdit current policy
  | .runHarvest harvest => .ok (applyRunHarvest current harvest now)

end Initiatives
end CatFactory
