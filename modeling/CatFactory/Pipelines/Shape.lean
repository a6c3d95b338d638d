import Mathlib.Order.Lattice
import CatFactory.Forms.Fields

/-!
# The shape of a pipeline

A saved pipeline is a row of agent kinds and, beside it, rows of per-step
settings that may be missing or short.  The builder and the run door refuse a
shape by the same rules, each of them over the steps that are not disabled.
-/

namespace CatFactory
namespace Pipelines

open Foundation (trim)
open Forms (NumberOps DescriptorField DescriptorFieldValues)

variable {num : Type}

/-!
## What a step may carry
-/

inductive OnMissingEstimate where
  | run
  | skip
deriving DecidableEq

structure StepGating (num : Type) where
  enabled : Bool
  minComplexity : Option num
  minRisk : Option num
  minImpact : Option num
  onMissingEstimate : OnMissingEstimate := OnMissingEstimate.run

structure TaskEstimate (num : Type) where
  complexity : num
  risk : num
  impact : num

inductive ServiceSide where
  | frontend
  | backend
deriving DecidableEq

structure StepRunCondition where
  serviceScope : ServiceSide
deriving DecidableEq

structure GateApproverPolicy where
  roles : List String
  userIds : List String
deriving DecidableEq

structure StepGateConfig (num : Type) where
  approvers : Option GateApproverPolicy
  minApprovals : Option Nat
  fields : DescriptorFieldValues num

structure BinaryOutputSize where
  width : Nat
  height : Nat
deriving DecidableEq

structure BinaryGenerationOptions where
  aspectRatio : Option String
  outputSize : Option BinaryOutputSize
  upscale : Option Nat
deriving DecidableEq

structure BinaryCandidateComparison where
  perGenerator : Option Nat
deriving DecidableEq

structure BinaryOutputConfig where
  storageServiceId : String
  generatorIds : List String
  generation : Option BinaryGenerationOptions
  comparison : Option BinaryCandidateComparison
deriving DecidableEq

structure StepOptions (num : Type) where
  skillId : Option String := none
  agentVariantId : Option String := none
  condition : Option StepRunCondition := none
  gateConfig : Option (StepGateConfig num) := none
  binaryOutput : Option BinaryOutputConfig := none

structure TesterQualityConfig (num : Type) where
  gating : Option (StepGating num)

/-!
## What a deployment registers
-/

structure CompanionDefinition where
  targets : List String
deriving DecidableEq

inductive AgentSurface where
  | inline
  | containerExplore
  | containerCoding
deriving DecidableEq

inductive CloneBranch where
  | base
  | pr
  | work
  | prOrWork
deriving DecidableEq

inductive PrHeadSource where
  | task
  | run
deriving DecidableEq

structure AgentCloneSpec where
  branch : CloneBranch
  prHead : Bool := false
  prHeadSource : PrHeadSource := PrHeadSource.task
  requirePr : Bool := false
deriving DecidableEq

structure AgentStepSpec where
  surface : AgentSurface
  clone : Option AgentCloneSpec
  opensPr : Bool := true
deriving DecidableEq

structure AgentVariant where
  baseKind : String
deriving DecidableEq

structure AgentKindRegistry where
  companionFor : String -> Option CompanionDefinition
  gatable : String -> Option Bool
  agentStep : String -> Option AgentStepSpec
  variant : String -> Option AgentVariant
  hasBinaryOutputTrait : String -> Bool

structure GateRegistry (num : Type) where
  has : String -> Bool
  configFields : String -> Option (List (DescriptorField num))

structure PipelineShape (num : Type) where
  agentKinds : List String
  enabled : Option (List Bool) := none
  gates : Option (List Bool) := none
  gating : Option (List (Option (StepGating num))) := none
  testerQuality : Option (List (Option (TesterQualityConfig num))) := none
  stepOptions : Option (List (Option (StepOptions num))) := none
  agentKindRegistry : Option AgentKindRegistry := none
  gateRegistry : Option (GateRegistry num) := none

/-!
## The built-in kinds
-/

def BUILTIN_BY_KIND (kind : String) : Option CompanionDefinition :=
  match kind with
  | "architect-companion" => some { targets := ["architect"] }
  | "spec-companion" => some { targets := ["spec-writer"] }
  | "reviewer" => some { targets := ["coder"] }
  | "doc-reviewer" => some { targets := ["doc-writer"] }
  | _ => none

def BUILTIN_GATABLE_KINDS : List String :=
  ["reviewer", "architect-companion", "spec-companion", "doc-reviewer", "architect",
    "researcher", "spec-writer", "mocker", "blueprints", "code-commenter", "tester-api",
    "tester-ui", "playwright", "repro-test", "integration-test", "documenter",
    "business-documenter", "task-reassessor", "requirements-review", "human-review",
    "human-test", "visual-confirmation"]

def ESTIMATE_PRODUCING_KINDS : List String :=
  ["task-estimator", "task-reassessor"]

def TESTER_KINDS : List String :=
  ["tester-api", "tester-ui"]

def SKILL_AGENT_KIND : String := "skill"

/-- The kinds whose prompt a service of the engine sends. -/
def INLINE_ENGINE_SYSTEM_PROMPTS : List String :=
  ["requirements-review", "requirements-rework", "requirements-writer", "clarity-review",
    "clarity-rework", "requirements-brainstorm", "requirements-brainstorm-rework",
    "architecture-brainstorm", "architecture-brainstorm-rework", "environment-investigator"]

def companionFor (kind : String) (registry : Option AgentKindRegistry) :
    Option CompanionDefinition :=
  (registry.bind fun registry => registry.companionFor kind).or (BUILTIN_BY_KIND kind)

def isCompanionKind (kind : String) (registry : Option AgentKindRegistry) : Bool :=
  (companionFor kind registry).isSome

def companionTargets (kind : String) (registry : Option AgentKindRegistry) : List String :=
  ((companionFor kind registry).map CompanionDefinition.targets).getD []

def isGatableKind (kind : String) (registry : Option AgentKindRegistry) : Bool :=
  (registry.bind fun registry => registry.gatable kind).getD
    (BUILTIN_GATABLE_KINDS.contains kind)

def producesTaskEstimate (kind : String) : Bool :=
  ESTIMATE_PRODUCING_KINDS.contains kind

def isTesterKind (kind : String) : Bool :=
  TESTER_KINDS.contains kind

/-!
## Reading the rows
-/

/-- `row?.[i]`. -/
def entry {value : Type} (row : Option (List value)) (i : Nat) : Option value :=
  row.bind fun values => values[i]?

namespace PipelineShape

def isEnabled (shape : PipelineShape num) (i : Nat) : Bool :=
  entry shape.enabled i ≠ some false

def gateOn (shape : PipelineShape num) (i : Nat) : Bool :=
  entry shape.gates i = some true

def gatingAt (shape : PipelineShape num) (i : Nat) : Option (StepGating num) :=
  (entry shape.gating i).join

def optionsAt (shape : PipelineShape num) (i : Nat) : Option (StepOptions num) :=
  (entry shape.stepOptions i).join

def conditionAt (shape : PipelineShape num) (i : Nat) : Option StepRunCondition :=
  (shape.optionsAt i).bind StepOptions.condition

/-- The nearest enabled step before `i`. -/
def enabledBefore (shape : PipelineShape num) : Nat -> Option Nat
  | 0 => none
  | i + 1 => if shape.isEnabled i then some i else shape.enabledBefore i

/-- The loop of every rule: the first refusal of an enabled step. -/
def forEachEnabled (shape : PipelineShape num) (rule : Nat -> String -> Except String Unit) :
    Except String Unit :=
  (List.range shape.agentKinds.length).forM fun i =>
    match shape.agentKinds[i]? with
    | none => Except.ok ()
    | some kind => if shape.isEnabled i then rule i kind else Except.ok ()

end PipelineShape

/-- `if (condition) throw new ValidationError(message)`. -/
def refuseIf (condition : Bool) (message : String) : Except String Unit :=
  if condition then Except.error message else Except.ok ()

/-!
## The rules
-/

/-- A companion runs right after a step that it can review. -/
def assertValidCompanionPlacement (shape : PipelineShape num) : Except String Unit :=
  shape.forEachEnabled fun i kind =>
    if isCompanionKind kind shape.agentKindRegistry then
      let targets := companionTargets kind shape.agentKindRegistry
      let predecessor := (shape.enabledBefore i).bind fun j => shape.agentKinds[j]?
      refuseIf (predecessor.all fun predecessor => !targets.contains predecessor)
        ("Companion '" ++ kind ++ "' must run immediately after an enabled step it can " ++
          "review (" ++ String.intercalate ", " targets ++ ").")
    else Except.ok ()

def hasEstimateProducerBefore (shape : PipelineShape num) (i : Nat) : Bool :=
  (List.range i).any fun j =>
    (shape.agentKinds[j]?).any producesTaskEstimate && shape.isEnabled j

def missingEstimateProducer (kind what : String) : String :=
  "Step '" ++ kind ++ "' " ++ what ++ " but no step that produces one runs before it. Add a " ++
    "task-estimator earlier in the pipeline (or a task-reassessor, which measures the estimate " ++
    "after the implementation lands)."

def checkpointOnEstimateGatedStep (kind : String) : String :=
  "Step '" ++ kind ++ "' carries a human approval gate, so it cannot also be estimate-gated: " ++
    "the estimate may add a human checkpoint but never remove one. Drop the approval gate to " ++
    "make the step conditional, or drop the estimate gate to keep it unconditional."

def checkpointOnConditionalStep (kind : String) : String :=
  "Step '" ++ kind ++ "' carries a human approval gate, so it cannot also carry a run " ++
    "condition: a condition may leave a checkpoint un-reached but never remove one the " ++
    "pipeline author asked for. Drop the approval gate to make the step conditional, or drop " ++
    "the condition to keep it unconditional."

def noThreshold (gating : StepGating num) : Bool :=
  gating.minComplexity.isNone && gating.minRisk.isNone && gating.minImpact.isNone

def assertValidGating (shape : PipelineShape num) : Except String Unit :=
  shape.forEachEnabled fun i kind =>
    match shape.gatingAt i with
    | none => Except.ok ()
    | some gating =>
        if gating.enabled then do
          refuseIf (!isGatableKind kind shape.agentKindRegistry)
            ("Step '" ++ kind ++ "' cannot be estimate-gated — its output is required by the " ++
              "rest of the run. Only a step whose result later steps read as context (a " ++
              "design, a review, an extra verification pass) may be skipped on the estimate.")
          refuseIf (shape.gateOn i) (checkpointOnEstimateGatedStep kind)
          refuseIf (noThreshold gating)
            ("Step '" ++ kind ++ "' is estimate-gated but sets no threshold — set at least " ++
              "one of complexity / risk / impact, or it would always be skipped.")
          refuseIf (!hasEstimateProducerBefore shape i)
            (missingEstimateProducer kind "is gated on the task estimate")
        else Except.ok ()

def assertValidRunConditions (shape : PipelineShape num) : Except String Unit :=
  shape.forEachEnabled fun i kind =>
    if (shape.conditionAt i).isSome then do
      refuseIf (!isGatableKind kind shape.agentKindRegistry)
        ("Step '" ++ kind ++ "' cannot carry a run condition — its output is required by the " ++
          "rest of the run, so a run outside the condition's scope would silently finish " ++
          "without it. Only a step whose result later steps read as context (a design, a " ++
          "review, an extra verification pass) may be skipped.")
      refuseIf (shape.gateOn i) (checkpointOnConditionalStep kind)
    else Except.ok ()

/-- A run may skip the step: it is estimate-gated or carries a run condition. -/
def stepMaySkip (shape : PipelineShape num) (i : Nat) : Bool :=
  (shape.gatingAt i).any StepGating.enabled || (shape.conditionAt i).isSome

/-- The step whose skip would cancel a checkpoint on step `i`. -/
def checkpointSkippedBy (shape : PipelineShape num) (i : Nat) : Option Nat :=
  if stepMaySkip shape i then some i
  else if (shape.agentKinds[i]?).all fun kind =>
      !isCompanionKind kind shape.agentKindRegistry then none
  else (shape.enabledBefore i).filter fun producer => stepMaySkip shape producer

def assertCompanionCheckpointsReachable (shape : PipelineShape num) : Except String Unit :=
  shape.forEachEnabled fun i kind =>
    if shape.gateOn i && isCompanionKind kind shape.agentKindRegistry then
      match checkpointSkippedBy shape i with
      | none => Except.ok ()
      | some producer =>
          if producer = i then Except.ok ()
          else
            let producerKind := (shape.agentKinds[producer]?).getD "undefined"
            Except.error
              ("Step '" ++ kind ++ "' carries a human approval gate, but it reviews '" ++
                producerKind ++ "', which the task estimate or a run condition may skip, and " ++
                "the review is skipped with it. The checkpoint would then never be reached. " ++
                "Make '" ++ producerKind ++ "' unconditional to keep the checkpoint, or drop it.")
    else Except.ok ()

def assertValidTesterQualityGating (shape : PipelineShape num) : Except String Unit :=
  shape.forEachEnabled fun i kind =>
    match (entry shape.testerQuality i).join.bind TesterQualityConfig.gating with
    | none => Except.ok ()
    | some gating =>
        if gating.enabled && isTesterKind kind then do
          refuseIf (noThreshold gating)
            ("Step '" ++ kind ++ "' has an estimate-gated test quality companion but sets no " ++
              "threshold — set at least one of complexity / risk / impact, or the gate would " ++
              "always skip the review.")
          refuseIf (!hasEstimateProducerBefore shape i)
            (missingEstimateProducer kind "has a test quality companion gated on the task estimate")
        else Except.ok ()

def assertValidSkillSteps (shape : PipelineShape num) : Except String Unit :=
  shape.forEachEnabled fun i kind =>
    if kind = SKILL_AGENT_KIND then
      refuseIf (((shape.optionsAt i).bind StepOptions.skillId).all fun skillId => trim skillId = "")
        ("A '" ++ SKILL_AGENT_KIND ++ "' step must select a skill — set its skill in the step " ++
          "options.")
    else Except.ok ()

def assertValidAgentVariants (shape : PipelineShape num) : Except String Unit :=
  match shape.agentKindRegistry with
  | none => Except.ok ()
  | some registry =>
      shape.forEachEnabled fun i kind =>
        let variantId := ((shape.optionsAt i).bind StepOptions.agentVariantId).getD ""
        if variantId = "" then Except.ok ()
        else
          match registry.variant variantId with
          | none =>
              Except.error
                ("Step '" ++ kind ++ "' selects the agent variant '" ++ variantId ++
                  "', which this deployment does not register.")
          | some variant => do
              refuseIf (variant.baseKind ≠ kind)
                ("Agent variant '" ++ variantId ++ "' varies '" ++ variant.baseKind ++
                  "', so it cannot be selected on a '" ++ kind ++ "' step.")
              refuseIf (INLINE_ENGINE_SYSTEM_PROMPTS.contains kind)
                ("Agent variant '" ++ variantId ++ "' cannot be selected on a '" ++ kind ++
                  "' step: that step runs inline in the engine, which composes its prompt " ++
                  "without a step, so the variant would never reach the model. Edit the " ++
                  "agent's prompt for this workspace instead.")

def assertComparableCandidates (kind : String) (config : BinaryOutputConfig) :
    Except String Unit :=
  match config.comparison with
  | none => Except.ok ()
  | some comparison =>
      refuseIf (comparison.perGenerator.getD 1 ≤ 1 && config.generatorIds.length < 2)
        ("Step '" ++ kind ++ "' is configured to compare generated candidates, but it can only " ++
          "produce one per subject: select a second generative integration, or raise the " ++
          "candidates-per-integration count. With one candidate there is nothing to choose " ++
          "between, so the run would keep it without asking.")

/-- The other statements of the delivered dimensions, as the refusal names them. -/
def conflictingOutputSizeOptions (options : BinaryGenerationOptions) : List String :=
  (match options.aspectRatio with
    | none => []
    | some ratio => if ratio = "" then [] else ["an aspect ratio of " ++ ratio]) ++
  (match options.upscale with
    | none => []
    | some factor => ["an upscale of " ++ toString factor ++ "x"])

def assertUnambiguousOutputSize (kind : String) (config : BinaryOutputConfig) :
    Except String Unit :=
  match config.generation with
  | none => Except.ok ()
  | some generation =>
      match generation.outputSize with
      | none => Except.ok ()
      | some size =>
          let conflicts := conflictingOutputSizeOptions generation
          refuseIf (!conflicts.isEmpty)
            ("Step '" ++ kind ++ "' asks for an exact output size of " ++ toString size.width ++
              "x" ++ toString size.height ++ " and also states " ++
              String.intercalate " and " conflicts ++ ", which describe the delivered " ++
              "dimensions a second time and can disagree with it. Keep whichever one is the " ++
              "requirement and remove the other: with both, the agent writing the generation " ++
              "call is the one left to decide which the step meant.")

def assertValidBinaryOutputSteps (shape : PipelineShape num) : Except String Unit :=
  match shape.agentKindRegistry with
  | none => Except.ok ()
  | some registry =>
      shape.forEachEnabled fun i kind =>
        if registry.hasBinaryOutputTrait kind then
          let missing : Except String Unit := Except.error
            ("Step '" ++ kind ++ "' generates binary outputs but selects no storage service — " ++
              "pick the foundational service it stores them through in the step's options.")
          match (shape.optionsAt i).bind StepOptions.binaryOutput with
          | none => missing
          | some config =>
              if trim config.storageServiceId = "" then missing
              else do
                assertComparableCandidates kind config
                assertUnambiguousOutputSize kind config
        else Except.ok ()

def hasApproverPolicy (policy : Option GateApproverPolicy) : Bool :=
  policy.any fun policy => !policy.roles.isEmpty || !policy.userIds.isEmpty

def requiredGateApprovals (config : StepGateConfig num) : Nat :=
  max (config.minApprovals.getD 1) 1

def assertSatisfiableQuorum (kind : String) (config : StepGateConfig num) :
    Except String Unit :=
  let required := requiredGateApprovals config
  let named := (config.approvers.map fun policy => policy.userIds.length).getD 0
  let byRole := config.approvers.any fun policy => !policy.roles.isEmpty
  if required ≤ 1 || byRole || named = 0 then Except.ok ()
  else
    refuseIf (named < required)
      ("Step '" ++ kind ++ "' asks for " ++ toString required ++ " approvals but names only " ++
        toString named ++ " approver(s), so the gate could never be cleared. Name more " ++
        "approvers, allow a role, or lower the required approvals.")

def assertValidApprovalPolicies (shape : PipelineShape num) : Except String Unit :=
  shape.forEachEnabled fun i kind =>
    match (shape.optionsAt i).bind StepOptions.gateConfig with
    | none => Except.ok ()
    | some config => do
        refuseIf ((hasApproverPolicy config.approvers || config.minApprovals.isSome) &&
            !shape.gateOn i)
          ("Step '" ++ kind ++ "' configures an approval gate (approvers / required approvals) " ++
            "but carries no approval gate. Turn the step's approval gate on, or drop the " ++
            "configuration.")
        assertSatisfiableQuorum kind config

section GateConfig

variable [DecidableEq num] (ops : NumberOps num)

/-- The gate's own defaults over what the author left unanswered. -/
def effectiveGateConfigFields (declared : List (DescriptorField num))
    (fields : DescriptorFieldValues num) : DescriptorFieldValues num :=
  let answers (entry : String × Forms.DescriptorFieldValue num) : Bool :=
    match declared.find? (fun field => field.key = entry.1) with
    | none => true
    | some field => Forms.isDescriptorFieldAnswer field (some entry.2)
  Forms.withDescriptorFieldDefaults ops declared
    ((fields.own.filter answers).foldl
      (fun answered entry => answered.set ops entry.1 entry.2) {})

def assertValidGateConfig (shape : PipelineShape num) : Except String Unit := do
  assertValidApprovalPolicies shape
  match shape.gateRegistry with
  | none => Except.ok ()
  | some gateRegistry =>
      shape.forEachEnabled fun i kind =>
        let supplied :=
          (((shape.optionsAt i).bind StepOptions.gateConfig).map StepGateConfig.fields).getD {}
        if gateRegistry.has kind then
          let declared := (gateRegistry.configFields kind).getD []
          let problems := Forms.validateDescriptorFields ops declared
            (effectiveGateConfigFields ops declared supplied)
          refuseIf (!problems.isEmpty)
            ("Step '" ++ kind ++ "' has invalid gate parameters: " ++
              String.intercalate " " problems)
        else
          refuseIf (!supplied.keys.isEmpty)
            ("Step '" ++ kind ++ "' carries gate parameters, but this deployment registers no " ++
              "gate for that step kind.")

/-- The kind branches off base onto the work branch and opens the pull request. -/
def opensPullRequest (kind : String) (registry : AgentKindRegistry) : Bool :=
  match registry.agentStep kind with
  | none => false
  | some spec =>
      let branch := spec.clone.map AgentCloneSpec.branch
      spec.surface = AgentSurface.containerCoding &&
        (branch = some CloneBranch.work || branch = some CloneBranch.prOrWork) && spec.opensPr

/-- The kind reads a pull request that it declares it cannot work without. -/
def readsRequiredPullRequest (kind : String) (registry : AgentKindRegistry) : Bool :=
  ((registry.agentStep kind).bind AgentStepSpec.clone).any fun clone =>
    clone.prHead && clone.requirePr

def assertValidPullRequestReaders (shape : PipelineShape num) : Except String Unit :=
  match shape.agentKindRegistry with
  | none => Except.ok ()
  | some registry =>
      let opens (i : Nat) :=
        shape.isEnabled i && (shape.agentKinds[i]?).any fun kind => opensPullRequest kind registry
      match (List.range shape.agentKinds.length).find? opens with
      | none => Except.ok ()
      | some opensAt =>
          shape.forEachEnabled fun i kind =>
            refuseIf (i < opensAt && kind ≠ "" && readsRequiredPullRequest kind registry)
              ("Step '" ++ kind ++ "' reads the pull request this run opens, but it is placed " ++
                "before '" ++ (shape.agentKinds[opensAt]?).getD "undefined" ++
                "', which opens it. Move it after the step that opens the pull request.")

def validatePipelineShape (shape : PipelineShape num) : Except String Unit := do
  assertValidCompanionPlacement shape
  assertValidGating shape
  assertValidRunConditions shape
  assertCompanionCheckpointsReachable shape
  assertValidTesterQualityGating shape
  assertValidSkillSteps shape
  assertValidAgentVariants shape
  assertValidBinaryOutputSteps shape
  assertValidGateConfig ops shape
  assertValidPullRequestReaders shape

end GateConfig

end Pipelines
end CatFactory
