import Mathlib.Data.List.Basic
import Mathlib.Logic.Function.Basic

/-!
# Approval checkpoints

A workspace sets the checkpoints of a pipeline apart from its structure, on a
built-in too.  A reseed of a built-in writes the catalog's definition with the
checkpoints of the stored row carried onto it, each to the step that has its
kind and its occurrence number.
-/

namespace CatFactory
namespace Pipelines
namespace Approvals

variable {value rest other : Type}

/-!
## What a step is stored with
-/

structure GateApproverPolicy where
  roles : Option (List String) := none
  userIds : Option (List String) := none
deriving DecidableEq

def hasApproverPolicy (policy : Option GateApproverPolicy) : Bool :=
  0 < ((policy.bind GateApproverPolicy.roles).map List.length).getD 0 ||
    0 < ((policy.bind GateApproverPolicy.userIds).map List.length).getD 0

structure StepGateConfig (value : Type) where
  approvers : Option GateApproverPolicy := none
  minApprovals : Option Nat := none
  fields : Option (List (String × value)) := none
deriving DecidableEq

/-- The options of a step: its gate configuration, and the others where it has any. -/
structure StepOptions (value rest : Type) where
  gateConfig : Option (StepGateConfig value) := none
  others : Option rest := none
deriving DecidableEq

structure ApprovalPolicy where
  approvers : Option GateApproverPolicy := none
  minApprovals : Option Nat := none
deriving DecidableEq

/-- The approval half of a step's gate configuration, none where it takes the defaults. -/
def approvalPolicyOf (options : Option (StepOptions value rest)) : Option ApprovalPolicy :=
  match options.bind StepOptions.gateConfig with
  | none => none
  | some config =>
      if config.approvers = none ∧ config.minApprovals = none then none
      else some { approvers := config.approvers, minApprovals := config.minApprovals }

/-- `Partial<StepGateConfig>`: a field that is absent, or there with a value or `undefined`. -/
structure GateConfigPatch (value : Type) where
  approvers : Option (Option GateApproverPolicy) := none
  minApprovals : Option (Option Nat) := none
  fields : Option (Option (List (String × value))) := none

def patchedGateConfig (options : Option (StepOptions value rest)) (patch : GateConfigPatch value) :
    Option (StepOptions value rest) :=
  let config := (options.bind StepOptions.gateConfig).getD {}
  let approvers := patch.approvers.getD config.approvers
  let minApprovals := patch.minApprovals.getD config.minApprovals
  let fields := patch.fields.getD config.fields
  let gateConfig : StepGateConfig value :=
    { approvers := if hasApproverPolicy approvers then approvers else none
      minApprovals := minApprovals.filter fun n => 1 < n
      fields := fields.filter fun entries => !entries.isEmpty }
  let next : StepOptions value rest :=
    { gateConfig :=
        if gateConfig.approvers.isSome || gateConfig.minApprovals.isSome ||
            gateConfig.fields.isSome then some gateConfig
        else none
      others := options.bind StepOptions.others }
  if next.gateConfig.isSome || next.others.isSome then some next else none

/-- Replace the approval half of a step's gate configuration. -/
def withApprovalPolicy (options : Option (StepOptions value rest))
    (policy : Option ApprovalPolicy) : Option (StepOptions value rest) :=
  patchedGateConfig options
    { approvers := some (policy.bind ApprovalPolicy.approvers)
      minApprovals := some (policy.bind ApprovalPolicy.minApprovals) }

/-!
## The rows
-/

structure Pipeline (value rest other : Type) where
  name : String
  builtin : Option Bool := none
  agentKinds : List String
  gates : Option (List Bool) := none
  stepOptions : Option (List (Option (StepOptions value rest))) := none
  others : other
deriving DecidableEq

namespace Pipeline

/-- `pipeline.gates?.[i] === true` -/
def gateAt (pipeline : Pipeline value rest other) (i : Nat) : Bool :=
  (pipeline.gates.bind fun gates => gates[i]?) = some true

/-- `pipeline.stepOptions?.[i] ?? null` -/
def optionsAt (pipeline : Pipeline value rest other) (i : Nat) : Option (StepOptions value rest) :=
  (pipeline.stepOptions.bind fun stepOptions => stepOptions[i]?).join

/-- `approvalPolicyOf(pipeline.stepOptions?.[i])` -/
def policyAt (pipeline : Pipeline value rest other) (i : Nat) : Option ApprovalPolicy :=
  approvalPolicyOf (pipeline.optionsAt i)

end Pipeline

structure CatalogApprovals where
  agentKinds : List String
  gates : List Bool
deriving DecidableEq

structure SetPipelineApprovalsInput where
  agentKinds : List String
  gates : List Bool
  policies : Option (List (Option ApprovalPolicy)) := none
deriving DecidableEq

inductive PipelineApprovalsRefusalReason where
  | approvals_chain_stale
  | approvals_builtin_checkpoint_locked
deriving DecidableEq

structure ValidationError where
  message : String
  reason : Option PipelineApprovalsRefusalReason := none
  steps : Option (List String) := none
deriving DecidableEq

/-!
## Locked checkpoints
-/

/-- `${kind}#${occurrence}` -/
def occurrenceKey (kind : String) (occurrence : Nat) : String :=
  kind ++ "#" ++ toString occurrence

/-- The keys of the steps after those that were seen. -/
def occurrenceKeysFrom (seen : String -> Nat) : List String -> List String
  | [] => []
  | kind :: kinds =>
      occurrenceKey kind (seen kind) ::
        occurrenceKeysFrom (Function.update seen kind (seen kind + 1)) kinds

def stepOccurrenceKeys (agentKinds : List String) : List String :=
  occurrenceKeysFrom (fun _ => 0) agentKinds

def catalogGatedSteps (agentKinds : List String) (catalog : Option CatalogApprovals) : List Bool :=
  match catalog with
  | none => agentKinds.map fun _ => false
  | some catalog =>
      let shipped := (stepOccurrenceKeys catalog.agentKinds).zipIdx.filterMap fun step =>
        if catalog.gates[step.2]? = some true then some step.1 else none
      (stepOccurrenceKeys agentKinds).map fun key => decide (key ∈ shipped)

def lockedCheckpoints (row : Pipeline value rest other) (catalog : Option CatalogApprovals) :
    List Bool :=
  (catalogGatedSteps row.agentKinds catalog).mapIdx fun i shipped => shipped && row.gateAt i

/-!
## Setting the checkpoints
-/

/-- `Pick<Pipeline, 'gates' | 'stepOptions'>` -/
structure AppliedApprovals (value rest : Type) where
  gates : Option (List Bool)
  stepOptions : Option (List (Option (StepOptions value rest)))
deriving DecidableEq

def Pipeline.applied (pipeline : Pipeline value rest other) (applied : AppliedApprovals value rest) :
    Pipeline value rest other :=
  { pipeline with gates := applied.gates, stepOptions := applied.stepOptions }

/-- `input.gates[i]` -/
def SetPipelineApprovalsInput.gateAt (input : SetPipelineApprovalsInput) (i : Nat) : Bool :=
  input.gates[i]? = some true

def chainStale (existing : Pipeline value rest other) : ValidationError :=
  { message :=
      s!"The approval checkpoints were set against a different version of '{existing.name}' " ++
        "than the one stored. Reload the pipeline and try again."
    reason := some PipelineApprovalsRefusalReason.approvals_chain_stale }

def lengthMismatched (named steps : Nat) : ValidationError :=
  { message :=
      s!"The approval checkpoints name {named} steps, but this pipeline has {steps}. " ++
        "Reload the pipeline and try again." }

def checkpointLocked (existing : Pipeline value rest other) (removed : List String) :
    ValidationError :=
  let kinds := ", ".intercalate (removed.map fun kind => "'" ++ kind ++ "'")
  { message :=
      s!"The checkpoint after {kinds} is part of the built-in pipeline '{existing.name}'. " ++
        "Clone the pipeline to remove it."
    reason := some PipelineApprovalsRefusalReason.approvals_builtin_checkpoint_locked
    steps := some removed }

/-- The lengths of the arrays of a request that are not the chain's. -/
def mismatchedLengths (input : SetPipelineApprovalsInput) (steps : Nat) : List Nat :=
  (input.gates.length :: (input.policies.map List.length).toList).filter fun n => n ≠ steps

/-- The steps of a built-in whose locked checkpoint a request switches off. -/
def removedCheckpoints (existing : Pipeline value rest other) (input : SetPipelineApprovalsInput)
    (catalog : Option CatalogApprovals) : List String :=
  let locked := lockedCheckpoints existing catalog
  existing.agentKinds.zipIdx.filterMap fun step =>
    if locked[step.2]? = some true ∧ input.gateAt step.2 = false then some step.1 else none

/-- The gates and the options that an accepted request leaves. -/
def appliedOnto (existing : Pipeline value rest other) (input : SetPipelineApprovalsInput) :
    AppliedApprovals value rest :=
  let stepOptions := existing.agentKinds.mapIdx fun i _ =>
    if input.gateAt i = false then withApprovalPolicy (existing.optionsAt i) none
    else
      match input.policies with
      | none => existing.optionsAt i
      | some policies => withApprovalPolicy (existing.optionsAt i) policies[i]?.join
  { gates := if input.gates.any id then some input.gates else none
    stepOptions := if stepOptions.any Option.isSome then some stepOptions else none }

def approvalsApplied (existing : Pipeline value rest other) (input : SetPipelineApprovalsInput)
    (catalog : Option CatalogApprovals) : Except ValidationError (AppliedApprovals value rest) :=
  if input.agentKinds ≠ existing.agentKinds then .error (chainStale existing)
  else
    match mismatchedLengths input existing.agentKinds.length with
    | named :: _ => .error (lengthMismatched named existing.agentKinds.length)
    | [] =>
        let removed := removedCheckpoints existing input catalog
        if existing.builtin = some true ∧ removed ≠ [] then
          .error (checkpointLocked existing removed)
        else .ok (appliedOnto existing input)

/-!
## Carrying them across a reseed
-/

structure CarriedApprovals (value rest other : Type) where
  pipeline : Pipeline value rest other
  dropped : List String := []
  droppedPolicies : List String := []
deriving DecidableEq

/-- The stored checkpoints by key, each with its policy. -/
def storedCheckpoints (existing : Pipeline value rest other) :
    List (String × Option ApprovalPolicy) :=
  (stepOccurrenceKeys existing.agentKinds).zipIdx.filterMap fun step =>
    if existing.gateAt step.2 then some (step.1, existing.policyAt step.2) else none

def withCheckpoint (pipeline : Pipeline value rest other) (i : Nat)
    (policy : Option ApprovalPolicy) : Except ValidationError (Pipeline value rest other) :=
  (approvalsApplied { pipeline with builtin := some false }
    { agentKinds := pipeline.agentKinds
      gates := pipeline.agentKinds.mapIdx fun j _ => decide (j = i) || pipeline.gateAt j
      policies := some (pipeline.agentKinds.mapIdx fun j _ =>
        if j = i then policy else pipeline.policyAt j) }
    none).map pipeline.applied

/-- One step of the seed. -/
def carryStep (seed : Pipeline value rest other)
    (stored : List (String × Option ApprovalPolicy)) (admits : Pipeline value rest other -> Bool)
    (carried : CarriedApprovals value rest other) (step : String × Nat) :
    Except ValidationError (CarriedApprovals value rest other) :=
  match stored.lookup step.1 with
  | none => .ok carried
  | some own => do
      let kind := seed.agentKinds.getD step.2 ""
      let policy := own.or (seed.policyAt step.2)
      let candidate <- withCheckpoint carried.pipeline step.2 policy
      if admits candidate then .ok { carried with pipeline := candidate }
      else if policy.isNone then .ok { carried with dropped := carried.dropped ++ [kind] }
      else
        let bare <- withCheckpoint carried.pipeline step.2 none
        if admits bare then
          .ok { carried with
            pipeline := bare
            droppedPolicies := carried.droppedPolicies ++ [kind] }
        else .ok { carried with dropped := carried.dropped ++ [kind] }

/-- The stored checkpoints whose step is not in the seed's chain. -/
def strayCheckpoints (seed existing : Pipeline value rest other) : List String :=
  (stepOccurrenceKeys existing.agentKinds).zipIdx.filterMap fun step =>
    if ((storedCheckpoints existing).lookup step.1).isSome ∧
        step.1 ∉ stepOccurrenceKeys seed.agentKinds then some (existing.agentKinds.getD step.2 "")
    else none

def carriedApprovals (seed existing : Pipeline value rest other)
    (admits : Pipeline value rest other -> Bool) :
    Except ValidationError (CarriedApprovals value rest other) := do
  let carried <- (stepOccurrenceKeys seed.agentKinds).zipIdx.foldlM
    (carryStep seed (storedCheckpoints existing) admits) { pipeline := seed }
  .ok { carried with dropped := carried.dropped ++ strayCheckpoints seed existing }

end Approvals
end Pipelines
end CatFactory
