import CatFactory.Foundation.Runs
import CatFactory.Execution.Step
import CatFactory.Pipelines.Shape

/-!
# The preamble of a step

Before a step's handler may dispatch it, a fixed row of checks decides whether
the step runs at all.  Some of them stop the run for now; four of them skip the
step for good and advance the run past it.
-/

namespace CatFactory
namespace Pipelines

open Foundation
open Execution (AgentState ExecutionStatus)

variable {num : Type} [LinearOrder num]

/-!
## Whether a gated step runs
-/

def shouldRunGatedStep (estimate : Option (TaskEstimate num)) (gating : StepGating num) :
    Bool :=
  if !gating.enabled then true
  else
    match estimate with
    | none => gating.onMissingEstimate = OnMissingEstimate.run
    | some estimate =>
        gating.minComplexity.any (fun threshold => threshold ≤ estimate.complexity) ||
          gating.minRisk.any (fun threshold => threshold ≤ estimate.risk) ||
          gating.minImpact.any (fun threshold => threshold ≤ estimate.impact)

structure RunServiceScope where
  frontend : Bool
  backend : Bool
deriving DecidableEq

/-- A scope that could not be resolved satisfies every condition. -/
def stepConditionSatisfied (condition : StepRunCondition) (scope : RunServiceScope) : Bool :=
  if !scope.frontend && !scope.backend then true
  else
    match condition.serviceScope with
    | ServiceSide.frontend => scope.frontend
    | ServiceSide.backend => scope.backend

/-- What the preamble reads of the block: its estimate, the number of the pull
request that the task's own fields name, and the number of the one the run opened. -/
structure PreambleBlock (num : Type) where
  estimate : Option (TaskEstimate num)
  taskPrNumber : Option Nat
  pullRequestNumber : Option Nat

def resolvePrHeadNumber (clone : AgentCloneSpec) (block : PreambleBlock num) : Option Nat :=
  if !clone.prHead then none
  else
    match clone.prHeadSource with
    | PrHeadSource.run => block.pullRequestNumber.filter fun number => 0 < number
    | PrHeadSource.task => block.taskPrNumber

def stepNeedsMissingPullRequest (agentKind : String) (block : PreambleBlock num)
    (registry : AgentKindRegistry) : Bool :=
  match (registry.agentStep agentKind).bind AgentStepSpec.clone with
  | none => false
  | some clone =>
      clone.prHead && clone.requirePr && (resolvePrHeadNumber clone block).isNone

/-!
## A run and its steps
-/

inductive StepSkipReason where
  | gated
  | condition
  | producerSkipped
  | runComplete
  | noPullRequest
deriving DecidableEq

/-- What a step takes over from the pipeline at the start of the run. -/
structure StepSpec (num : Type) where
  agentKind : String
  requiresApproval : Bool
  gating : Option (StepGating num)
  condition : Option StepRunCondition

/-- `lastTurnSkipped` is no field of the source: it says how the latest turn of the
step ended, which `skipped` does not, being set once and never cleared. -/
structure StepProgress where
  state : AgentState
  decision : Option String := none
  approval : Option String := none
  skipped : Option StepSkipReason := none
  lastTurnSkipped : Bool := false
deriving DecidableEq

structure RunStep (num : Type) where
  spec : StepSpec num
  progress : StepProgress

/-- `dispatched` says that the preamble let the current step proceed. -/
structure PipelineRun (num : Type) where
  steps : List (RunStep num)
  currentStep : Nat
  status : ExecutionStatus
  inputGate : Bool := false
  dispatched : Bool := false

def enabledIndexes (shape : PipelineShape num) : List Nat :=
  (List.range shape.agentKinds.length).filter shape.isEnabled

def specAt (shape : PipelineShape num) (i : Nat) : StepSpec num where
  agentKind := (shape.agentKinds[i]?).getD ""
  requiresApproval := (entry shape.gates i).getD false
  gating := shape.gatingAt i
  condition := shape.conditionAt i

/-- The steps of a run are the enabled steps of the pipeline. -/
def stepSpecs (shape : PipelineShape num) : List (StepSpec num) :=
  (enabledIndexes shape).map (specAt shape)

def startRun (shape : PipelineShape num) : PipelineRun num where
  steps := (stepSpecs shape).mapIdx fun position spec =>
    { spec := spec
      progress :=
        { state := if position = 0 then AgentState.working else AgentState.pending } }
  currentStep := 0
  status := ExecutionStatus.running

namespace PipelineRun

def specs (run : PipelineRun num) : List (StepSpec num) :=
  run.steps.map RunStep.spec

def progressAt (run : PipelineRun num) (i : Nat) : Option StepProgress :=
  (run.steps[i]?).map RunStep.progress

def isLive (run : PipelineRun num) : Bool :=
  run.status = ExecutionStatus.running || run.status = ExecutionStatus.blocked ||
    run.status = ExecutionStatus.paused

/-- Every step's progress, changed by its position. -/
def updateProgress (run : PipelineRun num) (change : Nat -> StepProgress -> StepProgress) :
    PipelineRun num :=
  { run with
    steps := run.steps.mapIdx fun i step =>
      { step with progress := change i step.progress } }

def updateStep (run : PipelineRun num) (i : Nat) (change : StepProgress -> StepProgress) :
    PipelineRun num :=
  run.updateProgress fun j progress => if j = i then change progress else progress

end PipelineRun

/-- A companion right after a step that was skipped. -/
def producerWasSkipped (run : PipelineRun num) (index : Nat) (registry : AgentKindRegistry) :
    Bool :=
  match run.steps[index]? with
  | none => false
  | some step =>
      isCompanionKind step.spec.agentKind (some registry) &&
        match index with
        | 0 => false
        | before + 1 => (run.progressAt before).any fun progress => progress.skipped.isSome

/-!
## The preamble
-/

/-- What one turn of the driver finds around the run. -/
structure Turn (num : Type) where
  overBudget : Bool
  currentStepIsNonMetered : Bool
  reentrant : Bool
  block : Option (PreambleBlock num)
  inputGateParks : Bool
  scope : RunServiceScope

inductive PreambleOutcome where
  | paused
  | awaitingDecision (id : String)
  | noop
  | inputGate
  | skip (reason : StepSkipReason)
  | proceed
deriving DecidableEq

/-- The four axes that skip a step, in their order. -/
def skipReason (registry : AgentKindRegistry) (run : PipelineRun num) (spec : StepSpec num)
    (block : PreambleBlock num) (scope : RunServiceScope) : Option StepSkipReason :=
  let gatedOut := spec.gating.any fun gating =>
    gating.enabled && !shouldRunGatedStep block.estimate gating
  if gatedOut || producerWasSkipped run run.currentStep registry then
    some (if gatedOut then StepSkipReason.gated else StepSkipReason.producerSkipped)
  else if spec.condition.any fun condition => !stepConditionSatisfied condition scope then
    some StepSkipReason.condition
  else if stepNeedsMissingPullRequest spec.agentKind block registry then
    some StepSkipReason.noPullRequest
  else none

/-- A previously paused run whose budget has freed up resumes. -/
def resumeIfPaused (run : PipelineRun num) : PipelineRun num :=
  if run.status = ExecutionStatus.paused then { run with status := ExecutionStatus.running }
  else run

/-- The decision that a parked step waits for, unless a human action re-enters it. -/
def pendingDecision (progress : StepProgress) (reentrant : Bool) : Option String :=
  if progress.state = AgentState.waitingDecision && !reentrant then
    progress.decision.or progress.approval
  else none

def startCurrentStep (run : PipelineRun num) : PipelineRun num :=
  run.updateStep run.currentStep fun progress => { progress with state := AgentState.working }

/-- The input gate judges a run once, at its first step. -/
def recordInputGate (run : PipelineRun num) : PipelineRun num :=
  if run.currentStep = 0 then { run with inputGate := true } else run

/-- The checks of one step; the run comes back with what they wrote on it. -/
def runStepPreamble (registry : AgentKindRegistry) (run : PipelineRun num)
    (step : RunStep num) (turn : Turn num) : PipelineRun num × PreambleOutcome :=
  if turn.overBudget && !turn.currentStepIsNonMetered then
    ({ run with status := ExecutionStatus.paused }, PreambleOutcome.paused)
  else
    let resumed := resumeIfPaused run
    match pendingDecision step.progress turn.reentrant with
    | some id =>
        ({ resumed with status := ExecutionStatus.blocked },
          PreambleOutcome.awaitingDecision id)
    | none =>
        let started := startCurrentStep resumed
        match turn.block with
        | none => (started, PreambleOutcome.noop)
        | some block =>
            if !started.inputGate && started.currentStep = 0 && turn.inputGateParks then
              ({ recordInputGate started with status := ExecutionStatus.blocked },
                PreambleOutcome.inputGate)
            else
              let judged := recordInputGate started
              match skipReason registry judged step.spec block turn.scope with
              | some reason => (judged, PreambleOutcome.skip reason)
              | none => (judged, PreambleOutcome.proceed)

/-!
## A run taking step after step
-/

namespace PipelineRun

/-- The final step ends the run, any other hands over to the next. -/
def settleStepAndAdvance (run : PipelineRun num) : PipelineRun num :=
  if run.currentStep + 1 = run.steps.length then
    { run with status := ExecutionStatus.done, dispatched := false }
  else
    { run.updateStep (run.currentStep + 1) fun progress =>
        { progress with state := AgentState.working } with
      currentStep := run.currentStep + 1
      status := ExecutionStatus.running
      dispatched := false }

def skipGatedStep (run : PipelineRun num) (reason : StepSkipReason) : PipelineRun num :=
  (run.updateStep run.currentStep fun progress =>
    { progress with
      state := AgentState.done
      skipped := some reason
      lastTurnSkipped := true }).settleStepAndAdvance

/-- Reset `fromIndex` to `throughIndex` and start the first of them. -/
def rerunRange (run : PipelineRun num) (fromIndex throughIndex : Nat) : PipelineRun num :=
  run.updateProgress fun i progress =>
    if i = fromIndex then
      { progress with state := AgentState.working, approval := none }
    else if fromIndex < i && i ≤ throughIndex then
      { progress with state := AgentState.pending, approval := none }
    else progress

/-- Finish the current step and close out the ones after it untouched. -/
def closeOut (run : PipelineRun num) : PipelineRun num :=
  run.updateProgress fun i progress =>
    if i = run.currentStep then { progress with state := AgentState.done }
    else if run.currentStep < i then
      { progress with
        state := AgentState.done
        skipped := some StepSkipReason.runComplete
        lastTurnSkipped := true }
    else progress

def parkCurrentStep (run : PipelineRun num) (decision approval : Option String) :
    PipelineRun num :=
  run.updateStep run.currentStep fun progress =>
    { progress with
      state := AgentState.waitingDecision
      decision := decision
      approval := approval }

/-- A turn of the driver; a handler finishing or parking the step it dispatched; a
loop-back that re-arms a range of steps; a step that ends the run and closes
the rest out; a stop. -/
inductive RunAction (num : Type) where
  | turn (turn : Turn num)
  | finish
  | park (decision approval : Option String)
  | loopBack (fromIndex throughIndex : Nat)
  | endRun
  | fail

def act (registry : AgentKindRegistry) (run : PipelineRun num) :
    RunAction num -> Option (PipelineRun num)
  | .turn turn =>
      if !run.isLive then none
      else
        match run.steps[run.currentStep]? with
        | none => none
        | some step =>
            match runStepPreamble registry run step turn with
            | (after, PreambleOutcome.skip reason) => some (after.skipGatedStep reason)
            | (after, PreambleOutcome.proceed) => some { after with dispatched := true }
            | (after, _) => some after
  | .finish =>
      if !run.isLive || !run.dispatched then none
      else
        some
          (run.updateStep run.currentStep fun progress =>
            { progress with
              state := AgentState.done
              lastTurnSkipped := false }).settleStepAndAdvance
  | .park decision approval =>
      if !run.isLive || !run.dispatched then none
      else
        some
          { run.parkCurrentStep decision approval with
            status := ExecutionStatus.blocked }
  | .loopBack fromIndex throughIndex =>
      if !run.isLive || run.currentStep < fromIndex || run.steps.length ≤ throughIndex then none
      else
        some
          { run.rerunRange fromIndex throughIndex with
            currentStep := fromIndex
            status := ExecutionStatus.running
            dispatched := false }
  | .endRun =>
      if !run.isLive || !run.dispatched then none
      else
        some
          { run.closeOut with
            currentStep := run.steps.length - 1
            status := ExecutionStatus.done
            dispatched := false }
  | .fail => if !run.isLive then none else some { run with status := ExecutionStatus.failed }

end PipelineRun

end Pipelines
end CatFactory
