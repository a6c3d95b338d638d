import CatFactory.Pipelines.Shape
import Mathlib.Data.List.Induction

/-!
# The environment lifecycle of a pipeline

A pipeline provisions an environment, runs steps against it and reclaims it.
The rule walks the enabled steps with the state of the environment and faults
every step that the order leaves without one, or that leaves one standing.
-/

namespace CatFactory
namespace Pipelines

def DEPLOYER_AGENT_KIND : String := "deployer"

def DISPOSER_AGENT_KIND : String := "disposer"

def TESTER_AGENT_KIND : String := "tester-api"

def UI_TESTER_AGENT_KIND : String := "tester-ui"

def ACCEPTANCE_AGENT_KIND : String := "playwright"

def HUMAN_TEST_AGENT_KIND : String := "human-test"

def ENV_CONSUMER_AGENT_KINDS : List String :=
  [TESTER_AGENT_KIND, UI_TESTER_AGENT_KIND, ACCEPTANCE_AGENT_KIND, HUMAN_TEST_AGENT_KIND]

inductive PipelineEnvironmentProblemReason where
  | consumerWithoutDeployer
  | consumerAfterDisposer
  | deployerWithoutDisposer
  | disposerWithoutDeployer
  | retainedDeployerReclaimed
deriving DecidableEq

structure PipelineEnvironmentProblem where
  reason : PipelineEnvironmentProblemReason
  index : Nat
  agentKind : String
deriving DecidableEq

structure EnvironmentStepOptions where
  retainEnvironment : Option Bool
deriving DecidableEq

inductive EnvironmentState where
  | none
  | live
  | reclaimed
deriving DecidableEq

/-- The parallel arrays of a pipeline; `null` and `undefined` are both absent. -/
structure LifecycleInput where
  agentKinds : List String
  enabled : Option (List (Option Bool)) := none
  stepOptions : Option (List (Option EnvironmentStepOptions)) := none
deriving DecidableEq

namespace LifecycleInput

def isEnabled (input : LifecycleInput) (i : Nat) : Bool :=
  (entry input.enabled i).join ≠ some false

/-- `stepOptions?.[i]?.retainEnvironment === true` -/
def isRetained (input : LifecycleInput) (i : Nat) : Bool :=
  (entry input.stepOptions i).join.bind EnvironmentStepOptions.retainEnvironment = some true

/-- An enabled disposer stands later than `i`. -/
def isReclaimed (input : LifecycleInput) (i : Nat) : Bool :=
  input.agentKinds.zipIdx.any fun later =>
    decide (i < later.2) && decide (later.1 = DISPOSER_AGENT_KIND) && input.isEnabled later.2

end LifecycleInput

/-- What the walk carries from step to step. -/
structure LifecycleWalk where
  environment : EnvironmentState
  problems : List PipelineEnvironmentProblem
deriving DecidableEq

def LifecycleWalk.report (walk : LifecycleWalk) (reason : PipelineEnvironmentProblemReason)
    (index : Nat) (agentKind : String) : List PipelineEnvironmentProblem :=
  walk.problems ++ [⟨reason, index, agentKind⟩]

/-- One turn of the loop. -/
def lifecycleTurn (input : LifecycleInput) (walk : LifecycleWalk) (step : String × Nat) :
    LifecycleWalk :=
  let agentKind := step.1
  let i := step.2
  if input.isEnabled i = false then
    walk
  else if agentKind = DEPLOYER_AGENT_KIND then
    let reclaimed := input.isReclaimed i
    { environment := EnvironmentState.live
      problems :=
        if input.isRetained i then
          if reclaimed then
            walk.report PipelineEnvironmentProblemReason.retainedDeployerReclaimed i agentKind
          else walk.problems
        else if reclaimed then walk.problems
        else walk.report PipelineEnvironmentProblemReason.deployerWithoutDisposer i agentKind }
  else if agentKind = DISPOSER_AGENT_KIND then
    { environment := EnvironmentState.reclaimed
      problems :=
        if walk.environment = EnvironmentState.live then walk.problems
        else walk.report PipelineEnvironmentProblemReason.disposerWithoutDeployer i agentKind }
  else if walk.environment ≠ EnvironmentState.live ∧ agentKind ∈ ENV_CONSUMER_AGENT_KINDS then
    { walk with
      problems :=
        if walk.environment = EnvironmentState.reclaimed then
          walk.report PipelineEnvironmentProblemReason.consumerAfterDisposer i agentKind
        else walk.report PipelineEnvironmentProblemReason.consumerWithoutDeployer i agentKind }
  else walk

def pipelineEnvironmentProblems (input : LifecycleInput) : List PipelineEnvironmentProblem :=
  (input.agentKinds.zipIdx.foldl (lifecycleTurn input) ⟨EnvironmentState.none, []⟩).problems

/-!
## The enabled steps

The rule reads a list of steps, each with its place, its kind and whether it
keeps its environment.
-/

structure LifecycleStep where
  index : Nat
  agentKind : String
  retained : Bool
deriving DecidableEq

namespace LifecycleStep

def isDeployer (step : LifecycleStep) : Bool :=
  step.agentKind = DEPLOYER_AGENT_KIND

def isDisposer (step : LifecycleStep) : Bool :=
  step.agentKind = DISPOSER_AGENT_KIND

def isConsumer (step : LifecycleStep) : Bool :=
  step.agentKind ∈ ENV_CONSUMER_AGENT_KINDS

/-- The state a step leaves. -/
def leaves (step : LifecycleStep) (environment : EnvironmentState) : EnvironmentState :=
  if step.isDeployer then EnvironmentState.live
  else if step.isDisposer then EnvironmentState.reclaimed
  else environment

/-- The fault of a step, from the state before it and whether a disposer follows. -/
def fault (step : LifecycleStep) (environment : EnvironmentState) (reclaimed : Bool) :
    Option PipelineEnvironmentProblemReason :=
  if step.isDeployer then
    if step.retained then
      if reclaimed then some PipelineEnvironmentProblemReason.retainedDeployerReclaimed else none
    else if reclaimed then none
    else some PipelineEnvironmentProblemReason.deployerWithoutDisposer
  else if environment = EnvironmentState.live then none
  else if step.isDisposer then some PipelineEnvironmentProblemReason.disposerWithoutDeployer
  else if step.isConsumer then
    if environment = EnvironmentState.reclaimed then
      some PipelineEnvironmentProblemReason.consumerAfterDisposer
    else some PipelineEnvironmentProblemReason.consumerWithoutDeployer
  else none

def problem (step : LifecycleStep) (reason : PipelineEnvironmentProblemReason) :
    PipelineEnvironmentProblem :=
  ⟨reason, step.index, step.agentKind⟩

end LifecycleStep

/-- The faults of a list of steps, from a state of the environment. -/
def lifecycleFaults : EnvironmentState -> List LifecycleStep -> List PipelineEnvironmentProblem
  | _, [] => []
  | environment, step :: later =>
      ((step.fault environment (later.any LifecycleStep.isDisposer)).map step.problem).toList ++
        lifecycleFaults (step.leaves environment) later

/-- The state a list of steps leaves. -/
def environmentAfter (environment : EnvironmentState) (steps : List LifecycleStep) :
    EnvironmentState :=
  steps.foldl (fun environment step => step.leaves environment) environment

namespace LifecycleInput

/-- The step a place of the arrays holds, when it is enabled. -/
def stepAt (input : LifecycleInput) (entry : String × Nat) : Option LifecycleStep :=
  if input.isEnabled entry.2 then some ⟨entry.2, entry.1, input.isRetained entry.2⟩ else none

def enabledSteps (input : LifecycleInput) : List LifecycleStep :=
  input.agentKinds.zipIdx.filterMap input.stepAt

end LifecycleInput

/-!
## The walk reads the enabled steps
-/

variable {steps : List LifecycleStep} {step : LifecycleStep}

theorem not_deployer_of_disposer (h : step.isDisposer = true) :
    step.isDeployer = false := by
  have hkind : step.agentKind = DISPOSER_AGENT_KIND := of_decide_eq_true h
  rw [LifecycleStep.isDeployer, hkind]
  rfl

theorem not_lifecycle_of_consumer (h : step.isConsumer = true) :
    step.isDeployer = false ∧ step.isDisposer = false := by
  have hkind : step.agentKind ∈ ENV_CONSUMER_AGENT_KINDS := of_decide_eq_true h
  simp only [ENV_CONSUMER_AGENT_KINDS, List.mem_cons, List.not_mem_nil, or_false] at hkind
  unfold LifecycleStep.isDeployer LifecycleStep.isDisposer
  rcases hkind with hkind | hkind | hkind | hkind
  all_goals
    rw [hkind]
    exact ⟨rfl, rfl⟩

theorem stepAt_eq_some {input : LifecycleInput} {place : String × Nat} :
    input.stepAt place = some step <->
      input.isEnabled place.2 = true ∧
        step = ⟨place.2, place.1, input.isRetained place.2⟩ := by
  unfold LifecycleInput.stepAt
  by_cases henabled : input.isEnabled place.2 = true
  · simp [henabled, eq_comm]
  · simp [henabled]

/-- A turn skips a disabled place and reports the fault of an enabled one. -/
theorem lifecycleTurn_eq (input : LifecycleInput) (walk : LifecycleWalk) (place : String × Nat) :
    lifecycleTurn input walk place =
      match input.stepAt place with
      | none => walk
      | some step =>
          { environment := step.leaves walk.environment
            problems := walk.problems ++
              ((step.fault walk.environment (input.isReclaimed place.2)).map
                step.problem).toList } := by
  cases place with
  | mk agentKind i =>
      have hkinds : DISPOSER_AGENT_KIND ≠ DEPLOYER_AGENT_KIND := by decide
      unfold lifecycleTurn LifecycleInput.stepAt
      cases henabled : input.isEnabled i with
      | false => simp [henabled]
      | true =>
          by_cases hdeployer : agentKind = DEPLOYER_AGENT_KIND
          · cases hretained : input.isRetained i <;> cases hreclaimed : input.isReclaimed i <;>
              simp [henabled, hretained, LifecycleStep.leaves, LifecycleStep.fault,
                LifecycleStep.isDeployer, LifecycleStep.problem, LifecycleWalk.report, hdeployer,
                hreclaimed]
          · by_cases hdisposer : agentKind = DISPOSER_AGENT_KIND
            · by_cases hlive : walk.environment = EnvironmentState.live <;>
                simp [henabled, LifecycleStep.leaves, LifecycleStep.fault,
                  LifecycleStep.isDeployer, LifecycleStep.isDisposer, LifecycleStep.problem,
                  LifecycleWalk.report, hdisposer, hkinds, hlive]
            · by_cases hconsumer : agentKind ∈ ENV_CONSUMER_AGENT_KINDS
              · rcases walk with ⟨environment, problems⟩
                cases environment <;>
                  simp [henabled, LifecycleStep.leaves, LifecycleStep.fault,
                    LifecycleStep.isDeployer, LifecycleStep.isDisposer, LifecycleStep.isConsumer,
                    LifecycleStep.problem, LifecycleWalk.report, hdeployer, hdisposer, hconsumer]
              · simp [henabled, LifecycleStep.leaves, LifecycleStep.fault,
                  LifecycleStep.isDeployer, LifecycleStep.isDisposer, LifecycleStep.isConsumer,
                  hdeployer, hdisposer, hconsumer]

/-- The places of an array, in order. -/
theorem zipIdx_pairwise {kind : Type} (kinds : List kind) :
    kinds.zipIdx.Pairwise fun place later => place.2 < later.2 := by
  apply List.pairwise_map.mp
  rw [List.zipIdx_map_snd]
  exact List.pairwise_lt_range'

/-- Whether a disposer follows is read off the enabled steps that are left. -/
theorem isReclaimed_eq {input : LifecycleInput} {before later : List (String × Nat)}
    {place : String × Nat} (h : input.agentKinds.zipIdx = before ++ place :: later) :
    input.isReclaimed place.2 = (later.filterMap input.stepAt).any LifecycleStep.isDisposer := by
  have hordered := zipIdx_pairwise input.agentKinds
  rw [h] at hordered
  rcases List.pairwise_append.mp hordered with ⟨_, hlater, hbefore⟩
  rw [LifecycleInput.isReclaimed, h, Bool.eq_iff_iff, List.any_eq_true, List.any_eq_true]
  constructor
  · intro hany
    rcases hany with ⟨disposer, hmem, hdisposer⟩
    simp only [Bool.and_eq_true, decide_eq_true_eq] at hdisposer
    rcases hdisposer with ⟨⟨hlt, hkind⟩, henabled⟩
    have hafter : disposer ∈ later := by
      rcases List.mem_append.mp hmem with hmem | hmem
      · have hlt' := hbefore disposer hmem place List.mem_cons_self
        omega
      · cases hmem with
        | head => omega
        | tail _ hmem => exact hmem
    exists ⟨disposer.2, disposer.1, input.isRetained disposer.2⟩
    constructor
    · apply List.mem_filterMap.mpr
      exists disposer
      constructor
      · exact hafter
      · exact if_pos henabled
    · exact decide_eq_true hkind
  · intro hany
    rcases hany with ⟨step, hstep, hdisposer⟩
    rcases List.mem_filterMap.mp hstep with ⟨disposer, hmem, hat⟩
    rcases stepAt_eq_some.mp hat with ⟨henabled, heq⟩
    rw [heq] at hdisposer
    have hlt := (List.pairwise_cons.mp hlater).left disposer hmem
    have hkind : disposer.1 = DISPOSER_AGENT_KIND := of_decide_eq_true hdisposer
    exists disposer
    constructor
    · exact List.mem_append_right before (List.mem_cons_of_mem place hmem)
    · simp [hlt, hkind, henabled]

/-- The walk over the arrays faults what the rule faults in the enabled steps. -/
theorem pipelineEnvironmentProblems_eq (input : LifecycleInput) :
    pipelineEnvironmentProblems input =
      lifecycleFaults EnvironmentState.none input.enabledSteps := by
  have hfrom : forall rest before walk, input.agentKinds.zipIdx = before ++ rest ->
      (rest.foldl (lifecycleTurn input) walk).problems =
        walk.problems ++ lifecycleFaults walk.environment (rest.filterMap input.stepAt) := by
    intro rest
    induction rest with
    | nil =>
        intro before walk _
        simp [lifecycleFaults]
    | cons place rest ih =>
        intro before walk hsplit
        have hreclaimed := isReclaimed_eq hsplit
        have hnext : input.agentKinds.zipIdx = (before ++ [place]) ++ rest := by
          rw [hsplit, List.append_assoc]
          rfl
        rw [List.foldl_cons, ih _ _ hnext, lifecycleTurn_eq]
        cases hat : input.stepAt place with
        | none => rw [List.filterMap_cons_none hat]
        | some step =>
            rw [List.filterMap_cons_some hat, lifecycleFaults, hreclaimed, List.append_assoc]
  exact hfrom _ [] ⟨EnvironmentState.none, []⟩ rfl

/-!
## The state before a step
-/

theorem leaves_eq_live_iff (step : LifecycleStep) (environment : EnvironmentState) :
    step.leaves environment = EnvironmentState.live <->
      step.isDeployer = true ∨
        (step.isDisposer = false ∧ environment = EnvironmentState.live) := by
  unfold LifecycleStep.leaves
  cases step.isDeployer <;> cases step.isDisposer <;> simp

/-- An environment stands when a deployer has no disposer after it. -/
theorem environmentAfter_live_iff
    (hordered : steps.Pairwise fun step later => step.index < later.index) :
    environmentAfter EnvironmentState.none steps = EnvironmentState.live <->
      exists deployer, deployer ∈ steps ∧ deployer.isDeployer = true ∧
        forall step, step ∈ steps -> deployer.index < step.index -> step.isDisposer = false := by
  induction steps using List.reverseRecOn with
  | nil =>
      simp [environmentAfter]
  | append_singleton steps last ih =>
      rcases List.pairwise_append.mp hordered with ⟨hsteps, _, hlast⟩
      have hbefore : forall step, step ∈ steps -> step.index < last.index := by
        intro step hstep
        exact hlast step hstep last List.mem_cons_self
      have hafter : environmentAfter EnvironmentState.none (steps ++ [last]) =
          last.leaves (environmentAfter EnvironmentState.none steps) := by
        simp [environmentAfter]
      rw [hafter, leaves_eq_live_iff, ih hsteps]
      constructor
      · intro h
        rcases h with hdeployer | ⟨hkeeps, deployer, hmem, hdeployer, hnone⟩
        · exists last
          constructor
          · simp
          constructor
          · exact hdeployer
          · intro step hstep hlt
            rcases List.mem_append.mp hstep with hstep | hstep
            · have hlt' := hbefore step hstep
              omega
            · rw [List.mem_singleton.mp hstep] at hlt
              omega
        · exists deployer
          constructor
          · exact List.mem_append_left _ hmem
          constructor
          · exact hdeployer
          · intro step hstep hlt
            rcases List.mem_append.mp hstep with hstep | hstep
            · exact hnone step hstep hlt
            · rw [List.mem_singleton.mp hstep]
              exact hkeeps
      · intro h
        rcases h with ⟨deployer, hmem, hdeployer, hnone⟩
        rcases List.mem_append.mp hmem with hmem | hmem
        · apply Or.inr
          constructor
          · exact hnone last (by simp) (hbefore deployer hmem)
          · exists deployer
            constructor
            · exact hmem
            constructor
            · exact hdeployer
            · intro step hstep hlt
              exact hnone step (List.mem_append_left _ hstep) hlt
        · rw [List.mem_singleton.mp hmem] at hdeployer
          exact Or.inl hdeployer

/-- With no environment standing, a disposer took the last one down or none ever stood. -/
theorem environmentAfter_reclaimed_iff (steps : List LifecycleStep) :
    environmentAfter EnvironmentState.none steps = EnvironmentState.reclaimed <->
      environmentAfter EnvironmentState.none steps ≠ EnvironmentState.live ∧
        exists disposer, disposer ∈ steps ∧ disposer.isDisposer = true := by
  induction steps using List.reverseRecOn with
  | nil =>
      simp [environmentAfter]
  | append_singleton steps last ih =>
      have hafter : environmentAfter EnvironmentState.none (steps ++ [last]) =
          last.leaves (environmentAfter EnvironmentState.none steps) := by
        simp [environmentAfter]
      rw [hafter]
      generalize environmentAfter EnvironmentState.none steps = environment at ih
      cases hdisposer : last.isDisposer with
      | true =>
          have hdeployer := not_deployer_of_disposer hdisposer
          have hleaves : last.leaves environment = EnvironmentState.reclaimed := by
            simp [LifecycleStep.leaves, hdeployer, hdisposer]
          rw [hleaves]
          simp [hdisposer]
      | false =>
          have hmem : (exists disposer, disposer ∈ steps ++ [last] ∧ disposer.isDisposer = true) <->
              exists disposer, disposer ∈ steps ∧ disposer.isDisposer = true := by
            simp [or_and_right, exists_or, hdisposer]
          rw [hmem]
          cases hdeployer : last.isDeployer with
          | true => simp [LifecycleStep.leaves, hdeployer]
          | false =>
              have hleaves : last.leaves environment = environment := by
                simp [LifecycleStep.leaves, hdeployer, hdisposer]
              rw [hleaves]
              exact ih

/-!
## The faults of a list of steps
-/

/-- A problem is the fault of one step, between the steps before it and those after. -/
theorem mem_lifecycleFaults {environment : EnvironmentState}
    {problem : PipelineEnvironmentProblem} :
    problem ∈ lifecycleFaults environment steps <->
      exists before step later, steps = before ++ step :: later ∧
        step.index = problem.index ∧ step.agentKind = problem.agentKind ∧
        step.fault (environmentAfter environment before)
          (later.any LifecycleStep.isDisposer) = some problem.reason := by
  induction steps generalizing environment with
  | nil =>
      simp [lifecycleFaults]
  | cons first rest ih =>
      rw [lifecycleFaults, List.mem_append, ih, Option.mem_toList]
      constructor
      · intro h
        rcases h with hfirst | ⟨before, step, later, hsplit, hat⟩
        · rcases Option.map_eq_some_iff.mp hfirst with ⟨reason, hfault, heq⟩
          rw [← heq]
          exact ⟨[], first, rest, rfl, rfl, rfl, hfault⟩
        · exact ⟨first :: before, step, later, by rw [hsplit]; rfl, hat⟩
      · intro h
        rcases h with ⟨before, step, later, hsplit, hindex, hkind, hfault⟩
        cases before with
        | nil =>
            cases hsplit
            apply Or.inl
            apply Option.map_eq_some_iff.mpr
            exists problem.reason
            constructor
            · exact hfault
            · rw [LifecycleStep.problem, hindex, hkind]
        | cons head before =>
            cases hsplit
            exact Or.inr ⟨before, step, later, rfl, hindex, hkind, hfault⟩

theorem lifecycleFaults_pairwise
    (hordered : steps.Pairwise fun step later => step.index < later.index)
    (environment : EnvironmentState) :
    (lifecycleFaults environment steps).Pairwise fun problem later =>
      problem.index < later.index := by
  induction steps generalizing environment with
  | nil => exact List.Pairwise.nil
  | cons first rest ih =>
      rcases List.pairwise_cons.mp hordered with ⟨hfirst, hrest⟩
      rw [lifecycleFaults]
      apply List.pairwise_append.mpr
      constructor
      · cases first.fault environment (rest.any LifecycleStep.isDisposer) with
        | none => exact List.Pairwise.nil
        | some reason => exact List.pairwise_singleton _ _
      constructor
      · exact ih hrest _
      · intro problem hproblem later hlater
        rcases Option.map_eq_some_iff.mp (Option.mem_toList.mp hproblem) with ⟨reason, _, heq⟩
        rcases mem_lifecycleFaults.mp hlater with ⟨_, step, _, hsplit, hindex, _⟩
        rw [← heq, ← hindex]
        apply hfirst
        rw [hsplit]
        simp

/-- A change of places alone changes the places of the problems alone. -/
theorem lifecycleFaults_map (place : Nat -> Nat) (environment : EnvironmentState)
    (steps : List LifecycleStep) :
    lifecycleFaults environment (steps.map fun step => { step with index := place step.index }) =
      (lifecycleFaults environment steps).map fun problem =>
        { problem with index := place problem.index } := by
  induction steps generalizing environment with
  | nil => rfl
  | cons first rest ih =>
      have hany : (rest.map fun step => { step with index := place step.index }).any
          LifecycleStep.isDisposer = rest.any LifecycleStep.isDisposer := by
        rw [List.any_map]
        rfl
      rw [List.map_cons, lifecycleFaults, lifecycleFaults, List.map_append, hany]
      congr 1
      · show (((first.fault environment _).map _).toList) = _
        cases first.fault environment (rest.any LifecycleStep.isDisposer) with
        | none => rfl
        | some reason => rfl
      · exact ih _

/-!
## The steps of a pipeline
-/

/-- The place `i` of the arrays holds an enabled step of the kind. -/
def EnabledAt (input : LifecycleInput) (agentKind : String) (i : Nat) : Prop :=
  input.agentKinds[i]? = some agentKind ∧ input.isEnabled i = true

theorem mem_enabledSteps {input : LifecycleInput} :
    step ∈ input.enabledSteps <->
      EnabledAt input step.agentKind step.index ∧ step.retained = input.isRetained step.index := by
  unfold LifecycleInput.enabledSteps EnabledAt
  rw [List.mem_filterMap]
  constructor
  · intro h
    rcases h with ⟨place, hplace, hat⟩
    rcases stepAt_eq_some.mp hat with ⟨henabled, heq⟩
    rw [heq]
    exact ⟨⟨List.mem_zipIdx_iff_getElem?.mp hplace, henabled⟩, rfl⟩
  · intro h
    rcases h with ⟨⟨hkind, henabled⟩, hretained⟩
    exists (step.agentKind, step.index)
    constructor
    · exact List.mem_zipIdx_iff_getElem?.mpr hkind
    · rw [stepAt_eq_some, ← hretained]
      exact ⟨henabled, rfl⟩

theorem enabledSteps_pairwise (input : LifecycleInput) :
    input.enabledSteps.Pairwise fun step later => step.index < later.index := by
  unfold LifecycleInput.enabledSteps
  apply List.Pairwise.filterMap _ _ (zipIdx_pairwise input.agentKinds)
  intro place later hlt step hstep next hnext
  rw [(stepAt_eq_some.mp hstep).right, (stepAt_eq_some.mp hnext).right]
  exact hlt

/-- In ordered steps, those before a step are the ones at smaller places. -/
theorem mem_split_iff {steps before later : List LifecycleStep}
    (hordered : steps.Pairwise fun step later => step.index < later.index)
    (hsplit : steps = before ++ step :: later) (other : LifecycleStep) :
    (other ∈ before <-> other ∈ steps ∧ other.index < step.index) ∧
      (other ∈ later <-> other ∈ steps ∧ step.index < other.index) := by
  rw [hsplit] at hordered ⊢
  rcases List.pairwise_append.mp hordered with ⟨_, hlater, hbefore⟩
  have hafter := (List.pairwise_cons.mp hlater).left
  rw [List.mem_append, List.mem_cons]
  constructor
  · constructor
    · intro hmem
      exact ⟨Or.inl hmem, hbefore other hmem step List.mem_cons_self⟩
    · intro h
      rcases h with ⟨hmem | heq | hmem, hlt⟩
      · exact hmem
      · rw [heq] at hlt
        exact absurd hlt (Nat.lt_irrefl _)
      · exact absurd (hafter other hmem) (Nat.not_lt.mpr (Nat.le_of_lt hlt))
  · constructor
    · intro hmem
      exact ⟨Or.inr (Or.inr hmem), hafter other hmem⟩
    · intro h
      rcases h with ⟨hmem | heq | hmem, hlt⟩
      · have hlt' := hbefore other hmem step List.mem_cons_self
        exact absurd hlt (Nat.not_lt.mpr (Nat.le_of_lt hlt'))
      · rw [heq] at hlt
        exact absurd hlt (Nat.lt_irrefl _)
      · exact hmem

/-- An enabled deployer precedes `i`, with no enabled disposer between them. -/
def StandingAt (input : LifecycleInput) (i : Nat) : Prop :=
  exists d, d < i ∧ EnabledAt input DEPLOYER_AGENT_KIND d ∧
    forall j, d < j -> j < i -> ¬ EnabledAt input DISPOSER_AGENT_KIND j

/-- An enabled deployer stands between the last enabled disposer before `i` and `i`. -/
def ProvisionedSince (input : LifecycleInput) (i : Nat) : Prop :=
  exists d, d < i ∧ EnabledAt input DEPLOYER_AGENT_KIND d ∧
    forall j, j < i -> EnabledAt input DISPOSER_AGENT_KIND j -> j < d

def ReclaimedBefore (input : LifecycleInput) (i : Nat) : Prop :=
  exists j, j < i ∧ EnabledAt input DISPOSER_AGENT_KIND j

def ReclaimedAfter (input : LifecycleInput) (i : Nat) : Prop :=
  exists j, i < j ∧ EnabledAt input DISPOSER_AGENT_KIND j

/-- What each reason says of the order of the enabled steps. -/
def Faulty (input : LifecycleInput) (problem : PipelineEnvironmentProblem) : Prop :=
  match problem.reason with
  | .consumerWithoutDeployer =>
      problem.agentKind ∈ ENV_CONSUMER_AGENT_KINDS ∧ ¬ StandingAt input problem.index ∧
        ¬ ReclaimedBefore input problem.index
  | .consumerAfterDisposer =>
      problem.agentKind ∈ ENV_CONSUMER_AGENT_KINDS ∧ ¬ StandingAt input problem.index ∧
        ReclaimedBefore input problem.index
  | .deployerWithoutDisposer =>
      problem.agentKind = DEPLOYER_AGENT_KIND ∧ input.isRetained problem.index = false ∧
        ¬ ReclaimedAfter input problem.index
  | .disposerWithoutDeployer =>
      problem.agentKind = DISPOSER_AGENT_KIND ∧ ¬ ProvisionedSince input problem.index
  | .retainedDeployerReclaimed =>
      problem.agentKind = DEPLOYER_AGENT_KIND ∧ input.isRetained problem.index = true ∧
        ReclaimedAfter input problem.index

theorem provisionedSince_iff_standingAt (input : LifecycleInput) (i : Nat) :
    ProvisionedSince input i <-> StandingAt input i := by
  constructor
  · intro h
    rcases h with ⟨d, hlt, hdeployer, hbefore⟩
    exists d
    constructor
    · exact hlt
    constructor
    · exact hdeployer
    · intro j hafter hj hdisposer
      have hj' := hbefore j hj hdisposer
      omega
  · intro h
    rcases h with ⟨d, hlt, hdeployer, hnone⟩
    exists d
    constructor
    · exact hlt
    constructor
    · exact hdeployer
    · intro j hj hdisposer
      rcases Nat.lt_trichotomy j d with hless | heq | hmore
      · exact hless
      · have hsame := hdisposer.left
        rw [heq, hdeployer.left] at hsame
        exact absurd hsame (by decide)
      · exact absurd hdisposer (hnone j hmore hj)

/-- What decides a step's fault. -/
theorem fault_eq_some_iff (step : LifecycleStep) (environment : EnvironmentState)
    (reclaimed : Bool) (reason : PipelineEnvironmentProblemReason) :
    step.fault environment reclaimed = some reason <->
      match reason with
      | .consumerWithoutDeployer =>
          step.isConsumer = true ∧ environment ≠ EnvironmentState.live ∧
            environment ≠ EnvironmentState.reclaimed
      | .consumerAfterDisposer =>
          step.isConsumer = true ∧ environment ≠ EnvironmentState.live ∧
            environment = EnvironmentState.reclaimed
      | .deployerWithoutDisposer =>
          step.isDeployer = true ∧ step.retained = false ∧ reclaimed = false
      | .disposerWithoutDeployer =>
          step.isDisposer = true ∧ environment ≠ EnvironmentState.live
      | .retainedDeployerReclaimed =>
          step.isDeployer = true ∧ step.retained = true ∧ reclaimed = true := by
  have hdisposer := @not_deployer_of_disposer step
  have hconsumer := @not_lifecycle_of_consumer step
  unfold LifecycleStep.fault
  cases h : step.isDeployer with
  | true =>
      rw [h] at hdisposer hconsumer
      cases hd : step.isDisposer with
      | true => cases hdisposer hd
      | false =>
          cases hc : step.isConsumer with
          | true => cases (hconsumer hc).left
          | false => cases reason <;> cases step.retained <;> cases reclaimed <;> simp
  | false =>
      cases hd : step.isDisposer with
      | true =>
          cases hc : step.isConsumer with
          | true => cases (hd.symm.trans (hconsumer hc).right)
          | false => cases reason <;> cases environment <;> simp
      | false => cases reason <;> cases environment <;> cases step.isConsumer <;> simp

/-!
## The order conditions
-/

theorem exists_step_iff (input : LifecycleInput) (agentKind : String) (i : Nat) :
    EnabledAt input agentKind i <->
      exists step, step ∈ input.enabledSteps ∧ step.index = i ∧ step.agentKind = agentKind := by
  constructor
  · intro h
    exact ⟨⟨i, agentKind, input.isRetained i⟩, mem_enabledSteps.mpr ⟨h, rfl⟩, rfl, rfl⟩
  · intro h
    rcases h with ⟨step, hstep, hindex, hkind⟩
    rw [← hindex, ← hkind]
    exact (mem_enabledSteps.mp hstep).left

section Split

variable {input : LifecycleInput} {before later : List LifecycleStep}

theorem standingAt_iff (hsplit : input.enabledSteps = before ++ step :: later) :
    environmentAfter EnvironmentState.none before = EnvironmentState.live <->
      StandingAt input step.index := by
  have hordered := enabledSteps_pairwise input
  have hmem := fun other => (mem_split_iff hordered hsplit other).left
  have hbefore : before.Pairwise fun step later => step.index < later.index := by
    rw [hsplit] at hordered
    exact (List.pairwise_append.mp hordered).left
  rw [environmentAfter_live_iff hbefore]
  constructor
  · intro h
    rcases h with ⟨deployer, hdeployer, hkind, hnone⟩
    rcases (hmem deployer).mp hdeployer with ⟨hin, hlt⟩
    exists deployer.index
    constructor
    · exact hlt
    constructor
    · exact (exists_step_iff input _ _).mpr ⟨deployer, hin, rfl, of_decide_eq_true hkind⟩
    · intro j hafter hj hdisposer
      rcases (exists_step_iff input _ _).mp hdisposer with ⟨other, hother, hindex, hother'⟩
      rw [← hindex] at hafter hj
      have hfalse := hnone other ((hmem other).mpr ⟨hother, hj⟩) hafter
      rw [LifecycleStep.isDisposer, hother'] at hfalse
      cases hfalse
  · intro h
    rcases h with ⟨d, hlt, hdeployer, hnone⟩
    rcases (exists_step_iff input _ _).mp hdeployer with ⟨deployer, hin, hindex, hkind⟩
    rw [← hindex] at hlt hnone
    exists deployer
    constructor
    · exact (hmem deployer).mpr ⟨hin, hlt⟩
    constructor
    · exact decide_eq_true hkind
    · intro other hother hafter
      rcases (hmem other).mp hother with ⟨hother, hj⟩
      cases hdisposer : other.isDisposer with
      | false => rfl
      | true =>
          have hat := (exists_step_iff input _ _).mpr
            ⟨other, hother, rfl, of_decide_eq_true hdisposer⟩
          exact absurd hat (hnone other.index hafter hj)

/-- A disposer among the steps on one side is an enabled disposer of that side. -/
theorem exists_disposer_iff {side : Nat -> Prop}
    (hmem : forall other, other ∈ steps <-> other ∈ input.enabledSteps ∧ side other.index) :
    (exists disposer, disposer ∈ steps ∧ disposer.isDisposer = true) <->
      exists j, side j ∧ EnabledAt input DISPOSER_AGENT_KIND j := by
  constructor
  · intro h
    rcases h with ⟨disposer, hdisposer, hkind⟩
    rcases (hmem disposer).mp hdisposer with ⟨hin, hside⟩
    exact ⟨disposer.index, hside,
      (exists_step_iff input _ _).mpr ⟨disposer, hin, rfl, of_decide_eq_true hkind⟩⟩
  · intro h
    rcases h with ⟨j, hside, hdisposer⟩
    rcases (exists_step_iff input _ _).mp hdisposer with ⟨other, hother, hindex, hkind⟩
    rw [← hindex] at hside
    exact ⟨other, (hmem other).mpr ⟨hother, hside⟩, decide_eq_true hkind⟩

theorem reclaimedBefore_iff (hsplit : input.enabledSteps = before ++ step :: later) :
    (exists disposer, disposer ∈ before ∧ disposer.isDisposer = true) <->
      ReclaimedBefore input step.index :=
  exists_disposer_iff fun other =>
    (mem_split_iff (enabledSteps_pairwise input) hsplit other).left

theorem reclaimedAfter_iff (hsplit : input.enabledSteps = before ++ step :: later) :
    later.any LifecycleStep.isDisposer = true <-> ReclaimedAfter input step.index := by
  rw [List.any_eq_true]
  exact exists_disposer_iff fun other =>
    (mem_split_iff (enabledSteps_pairwise input) hsplit other).right

/-- A step's fault is what the order of the enabled steps says of it. -/
theorem fault_iff_faulty (hsplit : input.enabledSteps = before ++ step :: later)
    (problem : PipelineEnvironmentProblem) (hindex : step.index = problem.index)
    (hkind : step.agentKind = problem.agentKind) :
    step.fault (environmentAfter EnvironmentState.none before)
        (later.any LifecycleStep.isDisposer) = some problem.reason <->
      Faulty input problem := by
  have hmem : step ∈ input.enabledSteps := by
    rw [hsplit]
    simp
  have hstanding := standingAt_iff hsplit
  have hreclaimed := environmentAfter_reclaimed_iff before
  have hafter := reclaimedAfter_iff hsplit
  have hretained := (mem_enabledSteps.mp hmem).right
  rw [reclaimedBefore_iff hsplit, hindex] at hreclaimed
  rw [hindex] at hstanding hafter hretained
  rw [fault_eq_some_iff, Faulty]
  cases hreason : problem.reason with
  | consumerWithoutDeployer =>
      simp only [LifecycleStep.isConsumer, hkind, decide_eq_true_eq, Ne, hreclaimed, hstanding]
      tauto
  | consumerAfterDisposer =>
      simp only [LifecycleStep.isConsumer, hkind, decide_eq_true_eq, Ne, hreclaimed, hstanding]
      tauto
  | deployerWithoutDisposer =>
      simp only [LifecycleStep.isDeployer, hkind, decide_eq_true_eq, hretained, ← hafter,
        Bool.not_eq_true]
  | disposerWithoutDeployer =>
      simp only [LifecycleStep.isDisposer, hkind, decide_eq_true_eq, Ne, hstanding,
        provisionedSince_iff_standingAt]
  | retainedDeployerReclaimed =>
      simp only [LifecycleStep.isDeployer, hkind, decide_eq_true_eq, hretained, ← hafter]

end Split

/-!
## The enabled steps alone
-/

/-- The places the arrays enable, with their kinds. -/
def LifecycleInput.enabledPlaces (input : LifecycleInput) : List (String × Nat) :=
  input.agentKinds.zipIdx.filter fun place => input.isEnabled place.2

/-- The arrays of a run, which is built from the enabled steps. -/
def LifecycleInput.enabledOnly (input : LifecycleInput) : LifecycleInput :=
  { agentKinds := input.enabledPlaces.map Prod.fst
    enabled := none
    stepOptions := input.stepOptions.map fun options =>
      input.enabledPlaces.map fun place => (options[place.2]?).join }

/-- The place of a pipeline that a place of its run came from. -/
def LifecycleInput.placeOf (input : LifecycleInput) (i : Nat) : Nat :=
  ((input.enabledPlaces[i]?).map Prod.snd).getD 0

theorem enabledSteps_eq_map (input : LifecycleInput) :
    input.enabledSteps = input.enabledPlaces.map fun place =>
      ⟨place.2, place.1, input.isRetained place.2⟩ := by
  unfold LifecycleInput.enabledSteps LifecycleInput.enabledPlaces
  rw [← List.filterMap_eq_map, ← List.filterMap_eq_filter, List.filterMap_filterMap]
  congr 1
  funext place
  unfold LifecycleInput.stepAt
  cases hplace : input.isEnabled place.2 with
  | true => simp [Option.guard, hplace]
  | false => simp [Option.guard, hplace]

theorem enabledOnly_isRetained (input : LifecycleInput) {i : Nat} {place : String × Nat}
    (h : input.enabledPlaces[i]? = some place) :
    input.enabledOnly.isRetained i = input.isRetained place.2 := by
  unfold LifecycleInput.isRetained LifecycleInput.enabledOnly entry
  cases input.stepOptions with
  | none => rfl
  | some options => simp [h]

/-- The steps of the run are the enabled steps, at the places of the run. -/
theorem enabledOnly_steps (input : LifecycleInput) :
    (input.enabledOnly.enabledSteps.map fun step =>
        { step with index := input.placeOf step.index }) = input.enabledSteps := by
  have hall : input.enabledOnly.enabledPlaces = input.enabledOnly.agentKinds.zipIdx := by
    unfold LifecycleInput.enabledPlaces
    apply List.filter_eq_self.mpr
    intro place _
    rfl
  rw [enabledSteps_eq_map, enabledSteps_eq_map, hall, List.map_map]
  apply List.ext_getElem?
  intro i
  simp only [LifecycleInput.enabledOnly, List.getElem?_map, List.getElem?_zipIdx]
  cases hplace : input.enabledPlaces[i]? with
  | none => rfl
  | some place =>
      have hretained := enabledOnly_isRetained input hplace
      unfold LifecycleInput.enabledOnly at hretained
      simp [LifecycleInput.placeOf, hplace, hretained]

/--
A problem is reported exactly where the order of the enabled steps has the
fault it names, once for each step and in step order.  The run's own steps
report the same problems, at the places the pipeline has them.
-/
theorem pipelineEnvironmentProblems_exact (input : LifecycleInput) :
    (forall problem, problem ∈ pipelineEnvironmentProblems input <->
      EnabledAt input problem.agentKind problem.index ∧ Faulty input problem) ∧
    ((pipelineEnvironmentProblems input).Pairwise fun problem later =>
      problem.index < later.index) ∧
    ((pipelineEnvironmentProblems input.enabledOnly).map fun problem =>
        { problem with index := input.placeOf problem.index }) =
      pipelineEnvironmentProblems input := by
  rw [pipelineEnvironmentProblems_eq, pipelineEnvironmentProblems_eq]
  constructor
  · intro problem
    rw [mem_lifecycleFaults]
    constructor
    · intro h
      rcases h with ⟨before, step, later, hsplit, hindex, hkind, hfault⟩
      have hstep : step ∈ input.enabledSteps := by
        rw [hsplit]
        simp
      constructor
      · exact (exists_step_iff input _ _).mpr ⟨step, hstep, hindex, hkind⟩
      · exact (fault_iff_faulty hsplit problem hindex hkind).mp hfault
    · intro h
      rcases h with ⟨hat, hfaulty⟩
      rcases (exists_step_iff input _ _).mp hat with ⟨step, hstep, hindex, hkind⟩
      rcases List.append_of_mem hstep with ⟨before, later, hsplit⟩
      exact ⟨before, step, later, hsplit, hindex, hkind,
        (fault_iff_faulty hsplit problem hindex hkind).mpr hfaulty⟩
  constructor
  · exact lifecycleFaults_pairwise (enabledSteps_pairwise input) _
  · rw [← lifecycleFaults_map, enabledOnly_steps]

end Pipelines
end CatFactory
