import Mathlib.Data.List.Forall2
import CatFactory.Foundation.Text
import CatFactory.Execution.StepGraph

/-!
# Re-driving a run

A retry resumes a run at its first unfinished step and a restart at a step of
the user's choice.  Both keep the steps before that one and rebuild the others
from the fields a re-run starts with.  Admission judges a re-drive by the shape
of the stored steps.
-/

namespace CatFactory
namespace Execution

open Foundation

/-!
## The shape admission reads
-/

structure PipelineShape where
  agentKinds : List String
  gates : List Bool
  gating : List (Option StepGating)
  testerQuality : List (Option TesterQualityStepState)
  stepOptions : List (Option StepOptions)
deriving DecidableEq

def runnableShapeOf (steps : List PipelineStep) : PipelineShape :=
  { agentKinds := steps.map (fun s => s.agentKind)
    gates := steps.map (fun s => s.requiresApproval == some true)
    gating := steps.map (fun s => s.gating)
    testerQuality := steps.map (fun s => s.testerQuality)
    stepOptions := steps.map (fun s => s.stepOptions) }

/-!
## Planning a re-drive
-/

/-- Rebuild a step for its re-run; what is not named here is dropped. -/
def resetStep (step : PipelineStep) (state : AgentState) : PipelineStep :=
  { agentKind := step.agentKind
    state := state
    progress := 0
    gate := none
    subtasks := none
    decision := none
    requiresApproval := step.requiresApproval
    approval := none
    output := none
    model := none
    selectedFragmentIds := none
    jobId := none
    startedAt := none
    finishedAt := none
    pausedAt := none
    ralph := restartRalphState step.ralph }

structure ResumePlan where
  steps : List PipelineStep
  currentStep : Nat
deriving DecidableEq

def planFromStep (prevSteps : List PipelineStep) (resumeIndex : Nat) : ResumePlan :=
  { steps := prevSteps.mapIdx fun i step =>
      if i < resumeIndex then step
      else resetStep step
        (if i = resumeIndex then AgentState.working else AgentState.pending)
    currentStep := resumeIndex }

def planResumedSteps (prev : List PipelineStep) : ResumePlan :=
  let resumeIndex :=
    match prev.findIdx? (fun s => s.state ≠ AgentState.done) with
    | none => prev.length - 1
    | some firstUnfinished => firstUnfinished
  planFromStep prev resumeIndex

def planRestartFromStep (prev : List PipelineStep) (fromIndex : Int) : ResumePlan :=
  planFromStep prev (min fromIndex.toNat (prev.length - 1))

/-!
## The run that replaces the previous one
-/

def MAX_FAILURE_HISTORY : Nat := 20

def MAX_OUTPUT_HISTORY : Nat := 20

def MAX_HISTORY_OUTPUT_CHARS : Nat := 8000

/-- The last `n` entries, oldest first. -/
def lastEntries (n : Nat) (entries : List entry) : List entry :=
  entries.drop (entries.length - n)

def carryForwardFailures (prev : ExecutionInstance) : List AgentFailure :=
  lastEntries MAX_FAILURE_HISTORY (prev.failureHistory ++ prev.failure.toList)

/-- What the history keeps of a completed step's output, clipped. -/
def discardedOutput (now : Nat) (stepIndex : Nat) (step : PipelineStep) :
    Option PriorStepOutput :=
  match step.output with
  | none => none
  | some output =>
      if step.state ≠ AgentState.done ∨ trimUnits output = [] then none
      else
        let occurredAt := step.finishedAt.getD now
        if MAX_HISTORY_OUTPUT_CHARS < output.length then
          some
            { stepIndex := stepIndex
              occurredAt := occurredAt
              output := sliceTo MAX_HISTORY_OUTPUT_CHARS output
              truncated := some true }
        else
          some { stepIndex := stepIndex, occurredAt := occurredAt, output := output }

def carryForwardOutputs (prev : ExecutionInstance) (resetFromIndex now : Nat) :
    List PriorStepOutput :=
  let discarded :=
    (prev.steps.zipIdx.drop resetFromIndex).filterMap
      (fun entry => discardedOutput now entry.2 entry.1)
  lastEntries MAX_OUTPUT_HISTORY (prev.outputHistory ++ discarded)

def buildResumedInstance (previous : ExecutionInstance) (id : String)
    (plan : ResumePlan) (initiatedBy : Option String) (now : Nat) :
    ExecutionInstance :=
  { id := id
    blockId := previous.blockId
    pipelineId := previous.pipelineId
    pipelineName := previous.pipelineName
    steps := plan.steps
    currentStep := plan.currentStep
    status := ExecutionStatus.running
    initiatedBy := initiatedBy.or previous.initiatedBy
    intakeOrigin := previous.intakeOrigin
    initiatedByRole := previous.initiatedByRole
    initiatedByExternalIdentity := previous.initiatedByExternalIdentity
    mode := previous.mode
    failureHistory := carryForwardFailures previous
    outputHistory := carryForwardOutputs previous plan.currentStep now }

inductive RedriveTarget where
  | retry
  | restartFromStep (fromIndex : Int)
deriving DecidableEq

/-- One retry or restart: what is re-run, and what the caller supplies. -/
structure Redrive where
  target : RedriveTarget
  newId : String
  initiatedBy : Option String
  now : Nat
deriving DecidableEq

def planOf (target : RedriveTarget) (steps : List PipelineStep) : ResumePlan :=
  match target with
  | RedriveTarget.retry => planResumedSteps steps
  | RedriveTarget.restartFromStep fromIndex => planRestartFromStep steps fromIndex

def redrive (previous : ExecutionInstance) (request : Redrive) : ExecutionInstance :=
  buildResumedInstance previous request.newId
    (planOf request.target previous.steps) request.initiatedBy request.now

/-- Any number of re-drives, each of the run the one before it installed. -/
def redriveAll (run : ExecutionInstance) (requests : List Redrive) :
    ExecutionInstance :=
  requests.foldl redrive run

/-!
## Which steps a re-drive rebuilds
-/

/-- Step `i` is at or after the place `target` resumes at: the first unfinished
step, or the chosen one.  The last step always is. -/
def Rebuilds (target : RedriveTarget) (steps : List PipelineStep) (i : Nat) :
    Prop :=
  i + 1 = steps.length ∨
    match target with
    | RedriveTarget.retry =>
        exists j, j ≤ i ∧ exists step, steps[j]? = some step ∧
          step.state ≠ AgentState.done
    | RedriveTarget.restartFromStep fromIndex => fromIndex ≤ i

/-- The step carries none of the configuration that a rebuilt step lacks. -/
def CarriesNoConfig (step : PipelineStep) : Prop :=
  step.gating = none ∧ step.testerQuality = none ∧ step.stepOptions = none

def RebuildsOnlyPlain (target : RedriveTarget) (steps : List PipelineStep) : Prop :=
  forall i step, steps[i]? = some step -> Rebuilds target steps i ->
    CarriesNoConfig step

/-- Each re-drive of the chain rebuilds only plain steps of the run it finds. -/
def EachRebuildsOnlyPlain : ExecutionInstance -> List Redrive -> Prop
  | _, [] => True
  | run, request :: rest =>
      RebuildsOnlyPlain request.target run.steps ∧
        EachRebuildsOnlyPlain (redrive run request) rest

theorem planOf_currentStep_le_iff {target : RedriveTarget}
    {steps : List PipelineStep} {i : Nat} (hi : i < steps.length) :
    (planOf target steps).currentStep ≤ i <-> Rebuilds target steps i := by
  cases target with
  | restartFromStep fromIndex =>
      show min fromIndex.toNat (steps.length - 1) ≤ i <-> _
      unfold Rebuilds
      simp only
      omega
  | retry =>
      unfold Rebuilds planOf planResumedSteps planFromStep
      simp only
      cases hfind : steps.findIdx? (fun s => decide (s.state ≠ AgentState.done)) with
      | none =>
          have hdone := List.findIdx?_eq_none_iff.mp hfind
          show steps.length - 1 ≤ i <-> _
          constructor
          · intro hle
            exact Or.inl (by omega)
          · intro h
            rcases h with hlast | ⟨j, hj, step, hstep, hstate⟩
            · omega
            · have hmem : step ∈ steps := List.mem_of_getElem? hstep
              simpa [hstate] using hdone step hmem
      | some first =>
          rcases List.findIdx?_eq_some_iff_getElem.mp hfind with
            ⟨hlt, hfirst, hbefore⟩
          show first ≤ i <-> _
          constructor
          · intro hle
            exact Or.inr ⟨first, hle, steps[first],
              List.getElem?_eq_getElem hlt, by simpa using hfirst⟩
          · intro h
            rcases h with hlast | ⟨j, hj, step, hstep, hstate⟩
            · omega
            · rcases List.getElem?_eq_some_iff.mp hstep with ⟨hjlt, hget⟩
              by_contra hle
              have hbad := hbefore j (by omega)
              rw [hget] at hbad
              simp [hstate] at hbad

/-!
## What the shape sees of one step
-/

/-- The entry of a step in each list of the shape. -/
structure StepShape where
  agentKind : String
  gate : Bool
  gating : Option StepGating
  testerQuality : Option TesterQualityStepState
  stepOptions : Option StepOptions

def stepShapeOf (step : PipelineStep) : StepShape :=
  { agentKind := step.agentKind
    gate := step.requiresApproval == some true
    gating := step.gating
    testerQuality := step.testerQuality
    stepOptions := step.stepOptions }

theorem runnableShapeOf_eq_iff (steps steps' : List PipelineStep) :
    runnableShapeOf steps' = runnableShapeOf steps <->
      steps'.map stepShapeOf = steps.map stepShapeOf := by
  constructor
  · intro h
    unfold runnableShapeOf at h
    injection h with hkinds hgates hgating hquality hoptions
    have hlength : steps'.length = steps.length := by
      simpa using congrArg List.length hkinds
    apply List.ext_getElem
    · simpa using hlength
    · intro i hi hi'
      have hentry {value : Type} {view : PipelineStep -> value}
          (hview : steps'.map view = steps.map view) :
          view (steps'.get ⟨i, by simpa using hi⟩) =
            view (steps.get ⟨i, by simpa using hi'⟩) := by
        have hget := List.getElem_of_eq hview (by simpa using hi)
        simpa using hget
      simp only [List.getElem_map, stepShapeOf, StepShape.mk.injEq]
      exact ⟨hentry hkinds, hentry hgates, hentry hgating, hentry hquality,
        hentry hoptions⟩
  · intro h
    have hview {value : Type} (view : StepShape -> value) :
        steps'.map (fun s => view (stepShapeOf s)) =
          steps.map (fun s => view (stepShapeOf s)) := by
      simpa [Function.comp_def] using congrArg (List.map view) h
    unfold runnableShapeOf
    rw [show steps'.map (fun s => s.agentKind) = _ from hview StepShape.agentKind,
      show steps'.map (fun s => s.requiresApproval == some true) = _ from
        hview StepShape.gate,
      show steps'.map (fun s => s.gating) = _ from hview StepShape.gating,
      show steps'.map (fun s => s.testerQuality) = _ from
        hview StepShape.testerQuality,
      show steps'.map (fun s => s.stepOptions) = _ from hview StepShape.stepOptions]
    rfl

/-- The shape of a rebuilt step. -/
def StepShape.bare (shape : StepShape) : StepShape :=
  { shape with gating := none, testerQuality := none, stepOptions := none }

theorem bare_eq_self_iff (step : PipelineStep) :
    (stepShapeOf step).bare = stepShapeOf step <-> CarriesNoConfig step := by
  unfold CarriesNoConfig StepShape.bare stepShapeOf
  simp [eq_comm]

/-- A re-drive leaves each entry of the shape alone or bares it. -/
def Fades (before after : List PipelineStep) : Prop :=
  List.Forall₂ (fun s t => t = s ∨ t = s.bare)
    (before.map stepShapeOf) (after.map stepShapeOf)

theorem Fades.refl (steps : List PipelineStep) : Fades steps steps :=
  List.forall₂_same.mpr (fun _ _ => Or.inl rfl)

theorem Fades.trans {first second third : List PipelineStep}
    (hfirst : Fades first second) (hsecond : Fades second third) :
    Fades first third := by
  unfold Fades at hfirst hsecond ⊢
  generalize first.map stepShapeOf = a at hfirst ⊢
  generalize second.map stepShapeOf = b at hfirst hsecond
  generalize third.map stepShapeOf = c at hsecond ⊢
  induction hfirst generalizing c with
  | nil =>
      cases hsecond
      exact List.Forall₂.nil
  | cons hhead _ ih =>
      cases hsecond with
      | cons hhead' htail' =>
          apply List.Forall₂.cons
          · rcases hhead with rfl | rfl
            · exact hhead'
            · rcases hhead' with rfl | rfl
              · exact Or.inr rfl
              · exact Or.inr rfl
          · exact ih _ htail'

/-- Configuration that has faded does not come back. -/
theorem Fades.shape_eq_of_return {first second third : List PipelineStep}
    (hfirst : Fades first second) (hsecond : Fades second third)
    (hreturn : runnableShapeOf third = runnableShapeOf first) :
    runnableShapeOf second = runnableShapeOf first := by
  rw [runnableShapeOf_eq_iff] at hreturn ⊢
  unfold Fades at hfirst hsecond
  rw [hreturn] at hsecond
  generalize first.map stepShapeOf = a at hfirst hsecond ⊢
  generalize second.map stepShapeOf = b at hfirst hsecond ⊢
  induction hfirst with
  | nil => rfl
  | @cons s t _ _ hhead _ ih =>
      cases hsecond with
      | cons hback htail =>
          have ht : t = s := by
            rcases hhead with h | h
            · exact h
            · rcases hback with h' | h'
              · exact h'.symm
              · rw [h'] at h ⊢
                exact h.symm ▸ rfl
          rw [ht, ih htail]

/-!
## Re-drives and the shape
-/

theorem planOf_steps_length (target : RedriveTarget) (steps : List PipelineStep) :
    (planOf target steps).steps.length = steps.length := by
  cases target with
  | retry => simp [planOf, planResumedSteps, planFromStep]
  | restartFromStep fromIndex => simp [planOf, planRestartFromStep, planFromStep]

/-- Every plan is a `planFromStep` at the place it resumes at. -/
theorem planOf_eq (target : RedriveTarget) (steps : List PipelineStep) :
    planOf target steps = planFromStep steps (planOf target steps).currentStep := by
  cases target with
  | retry => rfl
  | restartFromStep fromIndex => rfl

theorem planOf_getElem_before {target : RedriveTarget} {steps : List PipelineStep}
    {i : Nat} {step : PipelineStep} (hstep : steps[i]? = some step)
    (hbefore : Not (Rebuilds target steps i)) :
    (planOf target steps).steps[i]? = some step := by
  have hi : i < steps.length := (List.getElem?_eq_some_iff.mp hstep).1
  rw [<- planOf_currentStep_le_iff hi] at hbefore
  rw [planOf_eq]
  unfold planFromStep
  simp only [List.getElem?_mapIdx, hstep, Option.map_some, Option.some.injEq]
  rw [if_pos (by omega)]

theorem planOf_getElem_rebuilt {target : RedriveTarget} {steps : List PipelineStep}
    {i : Nat} {step : PipelineStep} (hstep : steps[i]? = some step)
    (hrebuilt : Rebuilds target steps i) :
    exists state, (planOf target steps).steps[i]? = some (resetStep step state) := by
  have hi : i < steps.length := (List.getElem?_eq_some_iff.mp hstep).1
  rw [<- planOf_currentStep_le_iff hi] at hrebuilt
  rw [planOf_eq]
  unfold planFromStep
  simp only [List.getElem?_mapIdx, hstep, Option.map_some, Option.some.injEq]
  rw [if_neg (by omega)]
  exact ⟨_, rfl⟩

theorem planOf_fades (target : RedriveTarget) (steps : List PipelineStep) :
    Fades steps (planOf target steps).steps := by
  apply List.forall₂_iff_get.mpr
  constructor
  · simp [planOf_steps_length]
  · intro i hi hi'
    have hlt : i < steps.length := by simpa using hi
    have hstep : steps[i]? = some steps[i] := List.getElem?_eq_getElem hlt
    have hlt' : i < (planOf target steps).steps.length := by simpa using hi'
    simp only [List.get_eq_getElem, List.getElem_map]
    by_cases hrebuilt : Rebuilds target steps i
    · rcases planOf_getElem_rebuilt hstep hrebuilt with ⟨state, hget⟩
      rw [(List.getElem?_eq_some_iff.mp hget).2]
      exact Or.inr rfl
    · rw [(List.getElem?_eq_some_iff.mp (planOf_getElem_before hstep hrebuilt)).2]
      exact Or.inl rfl

theorem redriveAll_fades (run : ExecutionInstance) (requests : List Redrive) :
    Fades run.steps (redriveAll run requests).steps := by
  induction requests generalizing run with
  | nil => exact Fades.refl run.steps
  | cons request rest ih =>
      exact (planOf_fades request.target run.steps).trans (ih (redrive run request))

theorem redrive_keepsShape_iff (run : ExecutionInstance) (request : Redrive) :
    runnableShapeOf (redrive run request).steps = runnableShapeOf run.steps <->
      RebuildsOnlyPlain request.target run.steps := by
  rw [runnableShapeOf_eq_iff]
  show (planOf request.target run.steps).steps.map stepShapeOf = _ <-> _
  constructor
  · intro h i step hstep hrebuilt
    rcases planOf_getElem_rebuilt hstep hrebuilt with ⟨state, hget⟩
    have hentry := congrArg (fun shapes => shapes[i]?) h
    simp only [List.getElem?_map, hstep, hget, Option.map_some,
      Option.some.injEq] at hentry
    exact (bare_eq_self_iff step).mp hentry
  · intro hplain
    apply List.ext_getElem?
    intro i
    simp only [List.getElem?_map]
    cases hstep : run.steps[i]? with
    | none =>
        have hlength := List.getElem?_eq_none_iff.mp hstep
        rw [List.getElem?_eq_none_iff.mpr (by rw [planOf_steps_length]; exact hlength)]
    | some step =>
        by_cases hrebuilt : Rebuilds request.target run.steps i
        · rcases planOf_getElem_rebuilt hstep hrebuilt with ⟨state, hget⟩
          rw [hget]
          exact congrArg some
            ((bare_eq_self_iff step).mpr (hplain i step hstep hrebuilt))
        · rw [planOf_getElem_before hstep hrebuilt]

/-- A chain of re-drives runs what was admitted exactly when no step that one
of them rebuilds carries configuration of its own. -/
theorem redriveAll_keepsShape_iff (run : ExecutionInstance)
    (requests : List Redrive) :
    runnableShapeOf (redriveAll run requests).steps = runnableShapeOf run.steps <->
      EachRebuildsOnlyPlain run requests := by
  induction requests generalizing run with
  | nil =>
      constructor
      · intro _
        exact trivial
      · intro _
        rfl
  | cons request rest ih =>
      show runnableShapeOf (redriveAll (redrive run request) rest).steps = _ <-> _
      constructor
      · intro h
        have hfirst : runnableShapeOf (redrive run request).steps =
            runnableShapeOf run.steps :=
          (planOf_fades request.target run.steps).shape_eq_of_return
            (redriveAll_fades (redrive run request) rest) h
        constructor
        · exact (redrive_keepsShape_iff run request).mp hfirst
        · exact (ih (redrive run request)).mp (h.trans hfirst.symm)
      · intro h
        rw [(ih (redrive run request)).mpr h.2]
        exact (redrive_keepsShape_iff run request).mpr h.1

/-- A run that failed in a reviewer step gated on the task's estimate. -/
def gatedReviewRun : ExecutionInstance :=
  { id := "exec_1"
    blockId := "blk_1"
    pipelineId := "pl_1"
    pipelineName := "Review"
    steps :=
      [{ agentKind := "task-estimator", state := AgentState.done },
        { agentKind := "reviewer"
          state := AgentState.working
          gating := some { enabled := true, minRisk := some (1 / 2) } }]
    currentStep := 1
    status := ExecutionStatus.failed }

/-- The retry of it runs the reviewer whatever the estimate says. -/
theorem redrive_dropsGating :
    Not (runnableShapeOf
        (redrive gatedReviewRun
          { target := RedriveTarget.retry
            newId := "exec_2"
            initiatedBy := none
            now := 1 }).steps =
      runnableShapeOf gatedReviewRun.steps) := by
  decide

end Execution
end CatFactory
