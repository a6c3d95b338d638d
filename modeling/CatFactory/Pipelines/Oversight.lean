import CatFactory.Foundation.Text
import CatFactory.Pipelines.Approvals
import Mathlib.Data.List.Count

/-!
# What a row asks of its steps

A step is known by its kind and its occurrence number.  A row of a chain is the
chain's structure with what each of its steps is asked: nothing, or a checkpoint
with a policy in the form in which it is stored.
-/

namespace CatFactory
namespace Pipelines
namespace Approvals

open Foundation

variable {value rest other : Type}

/-!
## Steps
-/

/-- The kind of a step and how many steps of the kind come before it. -/
def stepAt (agentKinds : List String) (i : Nat) : Option (String × Nat) :=
  agentKinds[i]?.map fun kind => (kind, (agentKinds.take i).count kind)

def keyOf (step : String × Nat) : String :=
  occurrenceKey step.1 step.2

theorem keyOf_injective : Function.Injective keyOf := by
  intro a b h
  have hlist := congrArg String.toList h
  simp only [keyOf, occurrenceKey, String.toList_append, List.append_assoc] at hlist
  rcases append_numeral_cancel (by decide) hlist with ⟨hkind, hoccurrence⟩
  exact Prod.ext (String.toList_injective hkind) hoccurrence

theorem occurrenceKeysFrom_getElem? (seen : String -> Nat) (agentKinds : List String) (i : Nat) :
    (occurrenceKeysFrom seen agentKinds)[i]? =
      agentKinds[i]?.map fun kind =>
        occurrenceKey kind (seen kind + (agentKinds.take i).count kind) := by
  induction agentKinds generalizing seen i with
  | nil => rfl
  | cons first kinds ih =>
      cases i with
      | zero => rfl
      | succ i =>
          rw [occurrenceKeysFrom, List.getElem?_cons_succ, ih, List.getElem?_cons_succ,
            List.take_succ_cons]
          cases kinds[i]? with
          | none => rfl
          | some kind =>
              rw [Option.map_some, Option.map_some, List.count_cons]
              by_cases hkind : kind = first
              · rw [hkind, Function.update_self, if_pos (beq_self_eq_true first), Nat.add_assoc,
                  Nat.add_comm 1]
              · rw [Function.update_of_ne hkind, if_neg fun h => hkind (beq_iff_eq.mp h).symm]
                rfl

theorem length_occurrenceKeysFrom (seen : String -> Nat) (agentKinds : List String) :
    (occurrenceKeysFrom seen agentKinds).length = agentKinds.length := by
  induction agentKinds generalizing seen with
  | nil => rfl
  | cons first kinds ih => rw [occurrenceKeysFrom, List.length_cons, ih, List.length_cons]

theorem length_stepOccurrenceKeys (agentKinds : List String) :
    (stepOccurrenceKeys agentKinds).length = agentKinds.length :=
  length_occurrenceKeysFrom _ agentKinds

theorem stepOccurrenceKeys_getElem? (agentKinds : List String) (i : Nat) :
    (stepOccurrenceKeys agentKinds)[i]? = (stepAt agentKinds i).map keyOf := by
  rw [stepOccurrenceKeys, occurrenceKeysFrom_getElem?, stepAt, Option.map_map]
  simp only [Nat.zero_add]
  rfl

theorem stepAt_eq_some {agentKinds : List String} {i : Nat} {step : String × Nat} :
    stepAt agentKinds i = some step <->
      agentKinds[i]? = some step.1 ∧ (agentKinds.take i).count step.1 = step.2 := by
  rw [stepAt, Option.map_eq_some_iff]
  constructor
  · intro h
    rcases h with ⟨kind, hkind, hstep⟩
    rw [← hstep]
    exact ⟨hkind, rfl⟩
  · intro h
    exact ⟨step.1, h.left, Prod.ext rfl h.right⟩

theorem stepAt_count_lt {agentKinds : List String} {i j : Nat} {step : String × Nat}
    (hij : i < j) (hi : stepAt agentKinds i = some step) :
    step.2 < (agentKinds.take j).count step.1 := by
  rcases stepAt_eq_some.mp hi with ⟨hkind, hcount⟩
  have hnext : (agentKinds.take (i + 1)).count step.1 = step.2 + 1 := by
    rw [List.take_add_one, hkind, List.count_append, hcount]
    simp
  have hmono := (List.take_sublist_take_left (l := agentKinds) hij).count_le step.1
  rw [hnext] at hmono
  exact hmono

theorem stepAt_injective {agentKinds : List String} {i j : Nat} {step : String × Nat}
    (hi : stepAt agentKinds i = some step) (hj : stepAt agentKinds j = some step) : i = j := by
  rcases Nat.lt_trichotomy i j with hlt | heq | hgt
  · have hcount := stepAt_count_lt hlt hi
    rw [(stepAt_eq_some.mp hj).right] at hcount
    exact absurd hcount (Nat.lt_irrefl _)
  · exact heq
  · have hcount := stepAt_count_lt hgt hj
    rw [(stepAt_eq_some.mp hi).right] at hcount
    exact absurd hcount (Nat.lt_irrefl _)

theorem stepAt_isSome {agentKinds : List String} {i : Nat} :
    (exists step, stepAt agentKinds i = some step) <-> i < agentKinds.length := by
  rw [← Option.isSome_iff_exists, stepAt, Option.isSome_map]
  simp

/-!
## Policies as they are stored
-/

def namedApprovers (approvers : Option GateApproverPolicy) : Option GateApproverPolicy :=
  if hasApproverPolicy approvers then approvers else none

def quorum (minApprovals : Option Nat) : Option Nat :=
  minApprovals.filter fun n => 1 < n

def answered (fields : Option (List (String × value))) : Option (List (String × value)) :=
  fields.filter fun entries => !entries.isEmpty

/-- A policy that says something. -/
def policyOf (approvers : Option GateApproverPolicy) (minApprovals : Option Nat) :
    Option ApprovalPolicy :=
  if approvers = none ∧ minApprovals = none then none
  else some { approvers := approvers, minApprovals := minApprovals }

/-- What is stored of a policy. -/
def normalPolicy (policy : Option ApprovalPolicy) : Option ApprovalPolicy :=
  policyOf (namedApprovers (policy.bind ApprovalPolicy.approvers))
    (quorum (policy.bind ApprovalPolicy.minApprovals))

/-- The options bag of a step whose configuration says this. -/
def bagOf (config : StepGateConfig value) (others : Option rest) :
    Option (StepOptions value rest) :=
  let next : StepOptions value rest :=
    { gateConfig :=
        if config.approvers.isSome || config.minApprovals.isSome || config.fields.isSome then
          some config
        else none
      others := others }
  if next.gateConfig.isSome || next.others.isSome then some next else none

def configOf (options : Option (StepOptions value rest)) : StepGateConfig value :=
  (options.bind StepOptions.gateConfig).getD {}

theorem configOf_bagOf (config : StepGateConfig value) (others : Option rest) :
    configOf (bagOf config others) = config := by
  rcases config with ⟨approvers, minApprovals, fields⟩
  cases approvers <;> cases minApprovals <;> cases fields <;> cases others <;> rfl

theorem others_bagOf (config : StepGateConfig value) (others : Option rest) :
    (bagOf config others).bind StepOptions.others = others := by
  rcases config with ⟨approvers, minApprovals, fields⟩
  cases approvers <;> cases minApprovals <;> cases fields <;> cases others <;> rfl

theorem withApprovalPolicy_eq (options : Option (StepOptions value rest))
    (policy : Option ApprovalPolicy) :
    withApprovalPolicy options policy =
      bagOf
        { approvers := namedApprovers (policy.bind ApprovalPolicy.approvers)
          minApprovals := quorum (policy.bind ApprovalPolicy.minApprovals)
          fields := answered (configOf options).fields }
        (options.bind StepOptions.others) :=
  rfl

theorem approvalPolicyOf_eq (options : Option (StepOptions value rest)) :
    approvalPolicyOf options =
      policyOf (configOf options).approvers (configOf options).minApprovals := by
  unfold approvalPolicyOf configOf
  cases options.bind StepOptions.gateConfig with
  | none => rfl
  | some config => rfl

theorem namedApprovers_idem (approvers : Option GateApproverPolicy) :
    namedApprovers (namedApprovers approvers) = namedApprovers approvers := by
  unfold namedApprovers
  by_cases h : hasApproverPolicy approvers = true
  · rw [if_pos h, if_pos h]
  · rw [if_neg h]
    rfl

theorem quorum_idem (minApprovals : Option Nat) :
    quorum (quorum minApprovals) = quorum minApprovals := by
  simp [quorum]

theorem answered_idem (fields : Option (List (String × value))) :
    answered (answered fields) = answered fields := by
  cases fields with
  | none => rfl
  | some entries =>
      cases entries with
      | nil => rfl
      | cons entry entries => rfl

theorem policyOf_approvers (approvers : Option GateApproverPolicy) (minApprovals : Option Nat) :
    (policyOf approvers minApprovals).bind ApprovalPolicy.approvers = approvers := by
  cases approvers <;> cases minApprovals <;> rfl

theorem policyOf_minApprovals (approvers : Option GateApproverPolicy) (minApprovals : Option Nat) :
    (policyOf approvers minApprovals).bind ApprovalPolicy.minApprovals = minApprovals := by
  cases approvers <;> cases minApprovals <;> rfl

theorem normalPolicy_idem (policy : Option ApprovalPolicy) :
    normalPolicy (normalPolicy policy) = normalPolicy policy := by
  unfold normalPolicy
  rw [policyOf_approvers, policyOf_minApprovals, namedApprovers_idem, quorum_idem]

/-- Setting a policy stores what is normal of it. -/
theorem approvalPolicyOf_with (options : Option (StepOptions value rest))
    (policy : Option ApprovalPolicy) :
    approvalPolicyOf (withApprovalPolicy options policy) = normalPolicy policy := by
  rw [approvalPolicyOf_eq, withApprovalPolicy_eq, configOf_bagOf]
  rfl

theorem with_normalPolicy (options : Option (StepOptions value rest))
    (policy : Option ApprovalPolicy) :
    withApprovalPolicy options (normalPolicy policy) = withApprovalPolicy options policy := by
  rw [withApprovalPolicy_eq, withApprovalPolicy_eq, normalPolicy, policyOf_approvers,
    policyOf_minApprovals, namedApprovers_idem, quorum_idem]

/-- The last policy set is the one that is stored. -/
theorem with_with (options : Option (StepOptions value rest)) (first last : Option ApprovalPolicy) :
    withApprovalPolicy (withApprovalPolicy options first) last = withApprovalPolicy options last := by
  rw [withApprovalPolicy_eq (withApprovalPolicy options first), withApprovalPolicy_eq options first,
    configOf_bagOf, others_bagOf, answered_idem]
  rfl

/-!
## A chain with its checkpoints
-/

/-- For each step no checkpoint, or one with a policy or none. -/
abbrev Oversight := Nat -> Option (Option ApprovalPolicy)

/-- The checkpoints that a row carries. -/
def Pipeline.oversight (pipeline : Pipeline value rest other) : Oversight := fun i =>
  if pipeline.gateAt i then some (pipeline.policyAt i) else none

/-- The row of a chain that carries these checkpoints. -/
def Pipeline.composed (pipeline : Pipeline value rest other) (oversight : Oversight) :
    Pipeline value rest other :=
  let gates := pipeline.agentKinds.mapIdx fun i _ => (oversight i).isSome
  let stepOptions := pipeline.agentKinds.mapIdx fun i _ =>
    withApprovalPolicy (pipeline.optionsAt i) (oversight i).join
  { pipeline with
    gates := if gates.any id then some gates else none
    stepOptions := if stepOptions.any Option.isSome then some stepOptions else none }

/-- The same checkpoints on the steps of a chain, as they are stored. -/
def Oversight.SameOn (n : Nat) (first second : Oversight) : Prop :=
  forall i, i < n -> (first i).map normalPolicy = (second i).map normalPolicy

theorem gateAt_of_gates (pipeline : Pipeline value rest other) {gates : List Bool}
    (h : pipeline.gates = if gates.any id then some gates else none) (i : Nat) :
    pipeline.gateAt i = decide (gates[i]? = some true) := by
  rw [Pipeline.gateAt, h]
  by_cases hany : gates.any id = true
  · rw [if_pos hany]
    rfl
  · rw [if_neg hany]
    have hoff : gates[i]? ≠ some true := by
      intro hon
      exact hany (List.any_eq_true.mpr ⟨true, List.mem_of_getElem? hon, rfl⟩)
    rw [decide_eq_false hoff]
    rfl

theorem optionsAt_of_stepOptions (pipeline : Pipeline value rest other)
    {stepOptions : List (Option (StepOptions value rest))}
    (h : pipeline.stepOptions =
      if stepOptions.any Option.isSome then some stepOptions else none) (i : Nat) :
    pipeline.optionsAt i = stepOptions[i]?.join := by
  rw [Pipeline.optionsAt, h]
  by_cases hany : stepOptions.any Option.isSome = true
  · rw [if_pos hany]
    rfl
  · rw [if_neg hany]
    cases hfound : stepOptions[i]? with
    | none => rfl
    | some options =>
        cases options with
        | none => rfl
        | some options =>
            exact absurd (List.any_eq_true.mpr ⟨_, List.mem_of_getElem? hfound, rfl⟩) hany

section Composed

variable (pipeline : Pipeline value rest other) (oversight : Oversight) {i : Nat}

theorem composed_gateAt (hi : i < pipeline.agentKinds.length) :
    (pipeline.composed oversight).gateAt i = (oversight i).isSome := by
  rw [gateAt_of_gates _ rfl, List.getElem?_mapIdx, List.getElem?_eq_getElem hi, Option.map_some]
  cases oversight i with
  | none => rfl
  | some policy => rfl

theorem composed_optionsAt (hi : i < pipeline.agentKinds.length) :
    (pipeline.composed oversight).optionsAt i =
      withApprovalPolicy (pipeline.optionsAt i) (oversight i).join := by
  rw [optionsAt_of_stepOptions _ rfl, List.getElem?_mapIdx, List.getElem?_eq_getElem hi]
  rfl

theorem composed_policyAt (hi : i < pipeline.agentKinds.length) :
    (pipeline.composed oversight).policyAt i = normalPolicy (oversight i).join := by
  rw [Pipeline.policyAt, composed_optionsAt _ _ hi, approvalPolicyOf_with]

/-- A composed row carries what it is composed of. -/
theorem composed_oversight :
    Oversight.SameOn pipeline.agentKinds.length (pipeline.composed oversight).oversight
      oversight := by
  intro i hi
  rw [Pipeline.oversight, composed_gateAt _ _ hi, composed_policyAt _ _ hi]
  cases oversight i with
  | none => rfl
  | some policy => exact congrArg some (normalPolicy_idem policy)

end Composed

theorem normalPolicy_join (checkpoint : Option (Option ApprovalPolicy)) :
    normalPolicy checkpoint.join = (checkpoint.map normalPolicy).join := by
  cases checkpoint with
  | none => rfl
  | some policy => rfl

theorem Oversight.SameOn.update {n : Nat} {first second : Oversight} (h : first.SameOn n second)
    (i : Nat) (checkpoint : Option (Option ApprovalPolicy)) :
    Oversight.SameOn n (Function.update first i checkpoint)
      (Function.update second i checkpoint) := by
  intro j hj
  by_cases hji : j = i
  · rw [hji, Function.update_self, Function.update_self]
  · rw [Function.update_of_ne hji, Function.update_of_ne hji]
    exact h j hj

/-- Rows that carry the same are the same. -/
theorem composed_congr (pipeline : Pipeline value rest other) {first second : Oversight}
    (h : first.SameOn pipeline.agentKinds.length second) :
    pipeline.composed first = pipeline.composed second := by
  have hgates : (pipeline.agentKinds.mapIdx fun i _ => (first i).isSome) =
      pipeline.agentKinds.mapIdx fun i _ => (second i).isSome := by
    apply List.mapIdx_eq_mapIdx_iff.mpr
    intro i hi
    have hsome := congrArg Option.isSome (h i hi)
    rw [Option.isSome_map, Option.isSome_map] at hsome
    exact hsome
  have hoptions : (pipeline.agentKinds.mapIdx fun i _ =>
      withApprovalPolicy (pipeline.optionsAt i) (first i).join) =
        pipeline.agentKinds.mapIdx fun i _ =>
          withApprovalPolicy (pipeline.optionsAt i) (second i).join := by
    apply List.mapIdx_eq_mapIdx_iff.mpr
    intro i hi
    rw [← with_normalPolicy, normalPolicy_join, h i hi, ← normalPolicy_join, with_normalPolicy]
  rw [Pipeline.composed, hgates, hoptions]
  rfl

/-- What a row is composed of last is what it carries. -/
theorem composed_composed (pipeline : Pipeline value rest other) (first last : Oversight) :
    (pipeline.composed first).composed last = pipeline.composed last := by
  have hoptions : (pipeline.agentKinds.mapIdx fun i _ =>
      withApprovalPolicy ((pipeline.composed first).optionsAt i) (last i).join) =
        pipeline.agentKinds.mapIdx fun i _ =>
          withApprovalPolicy (pipeline.optionsAt i) (last i).join := by
    apply List.mapIdx_eq_mapIdx_iff.mpr
    intro i hi
    rw [composed_optionsAt _ _ hi, with_with]
  show { pipeline with gates := _, stepOptions := _ } = _
  unfold Pipeline.composed at hoptions ⊢
  rw [hoptions]

/-!
## One checkpoint more
-/

theorem update_oversight_isSome (pipeline : Pipeline value rest other) (i j : Nat)
    (policy : Option ApprovalPolicy) :
    (Function.update pipeline.oversight i (some policy) j).isSome =
      (decide (j = i) || pipeline.gateAt j) := by
  by_cases hji : j = i
  · rw [hji, Function.update_self, decide_eq_true rfl]
    rfl
  · rw [Function.update_of_ne hji, Pipeline.oversight, decide_eq_false hji, Bool.false_or]
    cases pipeline.gateAt j with
    | true => rfl
    | false => rfl

/-- What a row is asked for a checkpoint of one of its steps. -/
def checkpointRequest (pipeline : Pipeline value rest other) (i : Nat)
    (policy : Option ApprovalPolicy) : SetPipelineApprovalsInput :=
  { agentKinds := pipeline.agentKinds
    gates := pipeline.agentKinds.mapIdx fun j _ => decide (j = i) || pipeline.gateAt j
    policies := some (pipeline.agentKinds.mapIdx fun j _ =>
      if j = i then policy else pipeline.policyAt j) }

theorem checkpointRequest_gateAt (pipeline : Pipeline value rest other) (i : Nat)
    (policy : Option ApprovalPolicy) {j : Nat} (hj : j < pipeline.agentKinds.length) :
    (checkpointRequest pipeline i policy).gateAt j = (decide (j = i) || pipeline.gateAt j) := by
  rw [SetPipelineApprovalsInput.gateAt, checkpointRequest, List.getElem?_mapIdx,
    List.getElem?_eq_getElem hj, Option.map_some]
  cases decide (j = i) || pipeline.gateAt j with
  | true => rfl
  | false => rfl

/-- The options that the request leaves on a step. -/
theorem checkpointRequest_options (pipeline : Pipeline value rest other) (i : Nat)
    (policy : Option ApprovalPolicy) {j : Nat} (hj : j < pipeline.agentKinds.length) :
    (if (checkpointRequest pipeline i policy).gateAt j = false then
        withApprovalPolicy (pipeline.optionsAt j) none
      else withApprovalPolicy (pipeline.optionsAt j)
        (pipeline.agentKinds.mapIdx fun j _ =>
          if j = i then policy else pipeline.policyAt j)[j]?.join) =
      withApprovalPolicy (pipeline.optionsAt j)
        (Function.update pipeline.oversight i (some policy) j).join := by
  rw [checkpointRequest_gateAt _ _ _ hj, List.getElem?_mapIdx, List.getElem?_eq_getElem hj,
    Option.map_some, Option.join_some]
  by_cases hji : j = i
  · subst hji
    rw [Function.update_self, if_pos rfl, decide_eq_true rfl, Bool.true_or,
      if_neg Bool.true_eq_false.mp]
    rfl
  · rw [Function.update_of_ne hji, if_neg hji, decide_eq_false hji, Bool.false_or,
      Pipeline.oversight]
    cases pipeline.gateAt j with
    | true => rfl
    | false => rfl

/-- A row with a checkpoint of a step set, its other checkpoints kept. -/
theorem withCheckpoint_eq (pipeline : Pipeline value rest other) (i : Nat)
    (policy : Option ApprovalPolicy) :
    withCheckpoint pipeline i policy =
      .ok (pipeline.composed (Function.update pipeline.oversight i (some policy))) := by
  have hlengths : mismatchedLengths (checkpointRequest pipeline i policy)
      pipeline.agentKinds.length = [] := by
    simp [mismatchedLengths, checkpointRequest]
  have hgates : (checkpointRequest pipeline i policy).gates =
      pipeline.agentKinds.mapIdx fun j _ =>
        (Function.update pipeline.oversight i (some policy) j).isSome := by
    apply List.mapIdx_eq_mapIdx_iff.mpr
    intro j _
    exact (update_oversight_isSome pipeline i j policy).symm
  have hoptions : (pipeline.agentKinds.mapIdx fun j _ =>
      if (checkpointRequest pipeline i policy).gateAt j = false then
        withApprovalPolicy (pipeline.optionsAt j) none
      else withApprovalPolicy (pipeline.optionsAt j)
        (pipeline.agentKinds.mapIdx fun j _ =>
          if j = i then policy else pipeline.policyAt j)[j]?.join) =
      pipeline.agentKinds.mapIdx fun j _ =>
        withApprovalPolicy (pipeline.optionsAt j)
          (Function.update pipeline.oversight i (some policy) j).join := by
    apply List.mapIdx_eq_mapIdx_iff.mpr
    intro j hj
    exact checkpointRequest_options pipeline i policy hj
  have happlied : appliedOnto { pipeline with builtin := some false }
      (checkpointRequest pipeline i policy) =
        { gates := (pipeline.composed
            (Function.update pipeline.oversight i (some policy))).gates
          stepOptions := (pipeline.composed
            (Function.update pipeline.oversight i (some policy))).stepOptions } := by
    unfold Pipeline.composed
    rw [← hgates, ← hoptions]
    rfl
  show (approvalsApplied { pipeline with builtin := some false }
    (checkpointRequest pipeline i policy) none).map pipeline.applied = _
  unfold approvalsApplied
  rw [if_neg (fun h => h rfl)]
  simp only [hlengths, happlied]
  rfl

end Approvals
end Pipelines
end CatFactory
