import CatFactory.Execution.Step

/-!
# The step and cursor mutators

What it means to start, finish, park or reset a step, and the two loop-backs
that re-run a range of steps.  An index past the end of the step list is a
thrown error in the source, and `none` here.
-/

namespace CatFactory
namespace Execution

/-!
## Loop states that survive a reset
-/

def RALPH_PROGRESS_PATH : String := ".cat-factory/ralph-progress.md"

/-- Keep the frozen configuration of a `ralph` loop and zero its counters. -/
def restartRalphState (ralph : Option RalphStepState) : Option RalphStepState :=
  ralph.map fun state =>
    { phase := RalphPhase.iterating
      attempts := 0
      maxIterations := state.maxIterations
      validationCommand := state.validationCommand
      progressPath := some (state.progressPath.getD RALPH_PROGRESS_PATH)
      attemptLog := [] }

def restartDeployFixState (fix : Option DeployFixState) : Option DeployFixState :=
  fix.map fun state =>
    { state with
      phase := DeployFixPhase.retrying
      attempts := 0
      cycle := some (state.cycle.getD 0 + 1) }

def restartEnvironmentInvestigationState
    (investigation : Option EnvironmentInvestigationState) :
    Option EnvironmentInvestigationState :=
  investigation.map fun state =>
    { state with
      attempts := 0
      environmentId := none
      cycle := some (state.cycle.getD 0 + 1) }

/-!
## One step
-/

/-- Enter `working`; a step that has no start time begins a fresh attempt. -/
def startStep (now : Nat) (step : PipelineStep) : PipelineStep :=
  match step.startedAt with
  | none =>
      { step with
        state := AgentState.working
        startedAt := some now
        firstStartedAt := some (step.firstStartedAt.getD now)
        attempts := some (step.attempts.getD 0 + 1)
        pausedAt := none }
  | some _ =>
      { step with
        state := AgentState.working
        pausedAt := none }

def finishStep (now : Nat) (step : PipelineStep) : PipelineStep :=
  { step with
    state := AgentState.done
    finishedAt := some (step.finishedAt.getD (step.pausedAt.getD now))
    pausedAt := none }

def pauseStepForInput (now : Nat) (step : PipelineStep) : PipelineStep :=
  { step with
    state := AgentState.waitingDecision
    pausedAt := some (step.pausedAt.getD now) }

/-- Clear what an attempt left, but not the record that it ran: the first start
time, the attempt and dispatch counters, the delegation and its log. -/
def resetStepForRerun (step : PipelineStep) : PipelineStep :=
  { step with
    state := AgentState.pending
    startedAt := none
    finishedAt := none
    pausedAt := none
    jobId := none
    approval := none
    subtasks := none
    lastActivityAt := none
    progress := 0
    output := none
    custom := none
    reproduction := none
    toolServers := none
    delegatedRetries := none
    rework := none
    container := none
    deployEnvs := none
    deployFrameId := none
    deployProvisioning := none
    deployPrimaryFrameId := none
    deployWait := none
    deployFix := restartDeployFixState step.deployFix
    environmentInvestigation :=
      restartEnvironmentInvestigationState step.environmentInvestigation
    ralph := restartRalphState step.ralph }

@[simp]
theorem startStep_dispatches (now : Nat) (step : PipelineStep) :
    (startStep now step).dispatches = step.dispatches := by
  unfold startStep
  cases step.startedAt with
  | none => rfl
  | some _ => rfl

@[simp]
theorem resetStepForRerun_dispatches (step : PipelineStep) :
    (resetStepForRerun step).dispatches = step.dispatches := rfl

/-!
## Loop-backs
-/

/-- Reset `count` steps from position `index` on. -/
def resetRange : List PipelineStep -> Nat -> Nat -> Option (List PipelineStep)
  | steps, _, 0 => some steps
  | steps, index, count + 1 =>
      match steps[index]? with
      | none => none
      | some step =>
          resetRange (steps.set index (resetStepForRerun step)) (index + 1) count

/-- Loop the run back to `fromIndex`, re-arming the steps through
`throughIndex`. -/
def rerunRange (now : Nat) (run : ExecutionInstance)
    (fromIndex throughIndex : Nat) : Option ExecutionInstance :=
  match resetRange run.steps fromIndex (throughIndex + 1 - fromIndex) with
  | none => none
  | some steps =>
      match steps[fromIndex]? with
      | none => none
      | some first =>
          some { run with
            steps := steps.set fromIndex (startStep now first)
            currentStep := fromIndex }

/-- The flags that say how a companion loop ended. -/
def rearmCompanion (step : PipelineStep) : PipelineStep :=
  { step with
    companion := step.companion.map fun companion =>
      { companion with
        exceeded := none
        stalled := none
        capSettledByPolicy := none } }

/-- Loop the producer back for rework, re-arming every step through the
companion that graded it. -/
def rerunProducerThrough (now : Nat) (run : ExecutionInstance)
    (producerIndex companionIndex : Nat) (rework : Rework) :
    Option ExecutionInstance :=
  match resetRange run.steps producerIndex (companionIndex + 1 - producerIndex) with
  | none => none
  | some reset =>
      let steps := reset.modify companionIndex rearmCompanion
      match steps[producerIndex]? with
      | none => none
      | some producer =>
          some { run with
            steps :=
              steps.set producerIndex
                (startStep now { producer with rework := some rework })
            currentStep := producerIndex }

/-!
Whatever a loop-back leaves alone on every single step, it leaves alone on the
whole run.
-/

section Projections

variable {value : Type} {view : PipelineStep -> value}

theorem map_set_view {steps : List PipelineStep} {index : Nat}
    {step next : PipelineStep} (hstep : steps[index]? = some step)
    (hview : view next = view step) :
    (steps.set index next).map view = steps.map view := by
  rcases List.getElem?_eq_some_iff.mp hstep with ⟨hlt, hget⟩
  have hlt' : index < (steps.map view).length := by simpa using hlt
  have hsame : view next = (steps.map view)[index] := by
    rw [hview, <- hget, List.getElem_map]
  rw [List.map_set, hsame, List.set_getElem_self hlt']

theorem map_modify_view {change : PipelineStep -> PipelineStep}
    (hview : forall step, view (change step) = view step)
    (steps : List PipelineStep) (index : Nat) :
    (steps.modify index change).map view = steps.map view := by
  induction steps generalizing index with
  | nil => simp
  | cons step rest ih =>
      cases index with
      | zero => simp [hview]
      | succ index => simp [ih]

theorem resetRange_view
    (hreset : forall step, view (resetStepForRerun step) = view step)
    {steps steps' : List PipelineStep} {index count : Nat}
    (h : resetRange steps index count = some steps') :
    steps'.map view = steps.map view := by
  induction count generalizing steps index with
  | zero =>
      cases h
      rfl
  | succ count ih =>
      unfold resetRange at h
      cases hstep : steps[index]? with
      | none =>
          rw [hstep] at h
          cases h
      | some step =>
          rw [hstep] at h
          rw [ih h, map_set_view hstep (hreset step)]

theorem rerunRange_view {now : Nat}
    (hreset : forall step, view (resetStepForRerun step) = view step)
    (hstart : forall step, view (startStep now step) = view step)
    {run run' : ExecutionInstance} {fromIndex throughIndex : Nat}
    (h : rerunRange now run fromIndex throughIndex = some run') :
    run'.steps.map view = run.steps.map view := by
  unfold rerunRange at h
  cases hrange : resetRange run.steps fromIndex (throughIndex + 1 - fromIndex) with
  | none =>
      rw [hrange] at h
      cases h
  | some steps =>
      rw [hrange] at h
      cases hfirst : steps[fromIndex]? with
      | none =>
          simp only [hfirst] at h
          cases h
      | some first =>
          simp only [hfirst] at h
          cases h
          rw [map_set_view hfirst (hstart first)]
          exact resetRange_view hreset hrange

theorem rerunProducerThrough_view {now : Nat} {rework : Rework}
    (hreset : forall step, view (resetStepForRerun step) = view step)
    (hstart : forall step, view (startStep now step) = view step)
    (hcompanion : forall step, view (rearmCompanion step) = view step)
    (hrework : forall step : PipelineStep,
      view { step with rework := some rework } = view step)
    {run run' : ExecutionInstance} {producerIndex companionIndex : Nat}
    (h : rerunProducerThrough now run producerIndex companionIndex rework =
      some run') :
    run'.steps.map view = run.steps.map view := by
  unfold rerunProducerThrough at h
  cases hrange :
      resetRange run.steps producerIndex (companionIndex + 1 - producerIndex) with
  | none =>
      rw [hrange] at h
      cases h
  | some reset =>
      rw [hrange] at h
      cases hproducer : (reset.modify companionIndex rearmCompanion)[producerIndex]? with
      | none =>
          simp only [hproducer] at h
          cases h
      | some producer =>
          simp only [hproducer] at h
          cases h
          have hview : view (startStep now { producer with rework := some rework }) =
              view producer := by
            rw [hstart, hrework]
          rw [map_set_view hproducer hview, map_modify_view hcompanion]
          exact resetRange_view hreset hrange

end Projections

end Execution
end CatFactory
