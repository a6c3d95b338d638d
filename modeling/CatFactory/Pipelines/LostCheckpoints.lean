import CatFactory.Pipelines.Checkpoints

/-!
# The checkpoints a run can lose

Every step that may be skipped is skipped in some run: the turns before it let
the earlier steps go by, whether they run or are skipped themselves.
-/

namespace CatFactory
namespace Pipelines

open Foundation
open Execution (AgentState ExecutionStatus)

variable {num : Type} [LinearOrder num]

/-!
## Reaching a step
-/

/-- The run is live and its current step has just been started. -/
structure Ready (s : PipelineRun num) (position : Nat) : Prop where
  running : s.status = ExecutionStatus.running
  cursor : s.currentStep = position
  started : exists progress, s.progressAt position = some progress ∧
    progress.state = AgentState.working

/-- A turn that nothing stops before the checks on the step itself. -/
def openTurn (block : PreambleBlock num) (scope : RunServiceScope) : Turn num where
  overBudget := false
  currentStepIsNonMetered := false
  reentrant := false
  block := some block
  inputGateParks := false
  scope := scope

omit [LinearOrder num] in
theorem Ready.isLive {s : PipelineRun num} {position : Nat} (h : Ready s position) :
    s.isLive = true := by
  unfold PipelineRun.isLive
  simp [h.running]

omit [LinearOrder num] in
theorem Ready.step {s : PipelineRun num} {position : Nat} (h : Ready s position) :
    exists step, s.steps[s.currentStep]? = some step ∧
      step.progress.state = AgentState.working := by
  rcases h.started with ⟨progress, hprogress, hworking⟩
  unfold PipelineRun.progressAt at hprogress
  rw [h.cursor]
  cases hstep : s.steps[position]? with
  | none =>
      rw [hstep] at hprogress
      cases hprogress
  | some step =>
      rw [hstep] at hprogress
      cases hprogress
      exact ⟨step, rfl, hworking⟩

theorem runStepPreamble_openTurn (registry : AgentKindRegistry) (s : PipelineRun num)
    {step : RunStep num} (hworking : step.progress.state = AgentState.working)
    (block : PreambleBlock num) (scope : RunServiceScope) :
    runStepPreamble registry s step (openTurn block scope) =
      (s.judged,
        match skipReason registry s step.spec block scope with
        | some reason => PreambleOutcome.skip reason
        | none => PreambleOutcome.proceed) := by
  have hjudged := PipelineRun.sameMarks_judged s
  have hsame := hjudged.1.skipReason_eq hjudged.2 registry step.spec block scope
  have hpending : pendingDecision step.progress (openTurn block scope).reentrant = none := by
    unfold pendingDecision
    simp [hworking]
  unfold runStepPreamble
  rw [hpending]
  simp only [openTurn, Bool.false_and, Bool.and_false, Bool.false_eq_true, if_false]
  show (match skipReason registry s.judged step.spec block scope with
    | some reason => (s.judged, PreambleOutcome.skip reason)
    | none => (s.judged, PreambleOutcome.proceed)) = _
  rw [hsame]
  cases skipReason registry s step.spec block scope with
  | none => rfl
  | some reason => rfl

omit [LinearOrder num] in
/-- The run after a settled step, when another step follows. -/
theorem ready_settleStepAndAdvance {s : PipelineRun num}
    (hnext : s.currentStep + 1 < s.steps.length) :
    Ready s.settleStepAndAdvance (s.currentStep + 1) := by
  unfold PipelineRun.settleStepAndAdvance
  rw [if_neg (Nat.ne_of_lt hnext)]
  constructor
  · rfl
  · rfl
  · show exists progress, (s.updateStep (s.currentStep + 1) fun progress =>
        { progress with state := AgentState.working }).progressAt (s.currentStep + 1) =
          some progress ∧ progress.state = AgentState.working
    unfold PipelineRun.updateStep
    rw [PipelineRun.progressAt_updateProgress]
    unfold PipelineRun.progressAt
    rw [List.getElem?_eq_getElem hnext]
    simp

omit [LinearOrder num] in
theorem length_of_specs {s t : PipelineRun num} (h : t.specs = s.specs) :
    t.steps.length = s.steps.length := by
  have hlength := congrArg List.length h
  unfold PipelineRun.specs at hlength
  rw [List.length_map, List.length_map] at hlength
  exact hlength

omit [LinearOrder num] in
theorem ready_of_updateStep {s : PipelineRun num} (hnext : s.currentStep + 1 < s.steps.length)
    (change : StepProgress -> StepProgress) :
    Ready (s.updateStep s.currentStep change).settleStepAndAdvance (s.currentStep + 1) := by
  apply ready_settleStepAndAdvance
  have hlength : (s.updateStep s.currentStep change).steps.length = s.steps.length :=
    length_of_specs (PipelineRun.specs_updateProgress s _)
  show s.currentStep + 1 < (s.updateStep s.currentStep change).steps.length
  rw [hlength]
  exact hnext

omit [LinearOrder num] in
theorem judged_status {s : PipelineRun num} (h : s.status = ExecutionStatus.running) :
    s.judged.status = ExecutionStatus.running := by
  have hresumed : resumeIfPaused s = s := by
    unfold resumeIfPaused
    rw [if_neg (by simp [h])]
  unfold PipelineRun.judged recordInputGate
  rw [hresumed]
  split
  · exact h
  · exact h

/-- A turn that nothing stops, and the handler's work if the step proceeds, bring
the run to its next step; a skip leaves its mark. -/
theorem exists_advance {registry : AgentKindRegistry} {s : PipelineRun num} {position : Nat}
    (h : Ready s position) (hnext : position + 1 < s.steps.length)
    {spec : StepSpec num} (hspec : s.specs[position]? = some spec)
    (block : PreambleBlock num) (scope : RunServiceScope) :
    exists trace t, Run (PipelineRun.act registry) s trace t ∧ Ready t (position + 1) ∧
      t.specs = s.specs ∧
      (skipReason registry s spec block scope ≠ none -> t.skippedAt position = true) := by
  rcases h.step with ⟨step, hstep, hworking⟩
  have hsame := PipelineRun.sameMarks_judged s
  have hcursor : s.judged.currentStep = position := hsame.2.trans h.cursor
  have hlength := length_of_specs hsame.1.specs
  have hnextJudged : s.judged.currentStep + 1 < s.judged.steps.length := by
    rw [hcursor, hlength]
    exact hnext
  have hstepSpec : step.spec = spec := by
    have heq := PipelineRun.specs_eq_some hstep
    rw [h.cursor, hspec] at heq
    exact (Option.some.inj heq).symm
  have hpreamble := runStepPreamble_openTurn registry s hworking block scope
  rw [hstepSpec] at hpreamble
  cases hreason : skipReason registry s spec block scope with
  | some reason =>
      rw [hreason] at hpreamble
      have hact : s.act registry (.turn (openTurn block scope)) =
          some (s.judged.skipGatedStep reason) := by
        simp only [PipelineRun.act, h.isLive, hstep, hpreamble]
        rfl
      have heffect := PipelineRun.skipGatedStep_effect s.judged reason
        (by rw [hcursor, hlength]; exact Nat.lt_of_succ_lt hnext)
      refine ⟨[.turn (openTurn block scope)], _, RunWhere.snoc RunWhere.nil trivial hact, ?_, ?_, ?_⟩
      · have hready := ready_of_updateStep hnextJudged fun progress =>
          { progress with
            state := AgentState.done
            skipped := some reason
            lastTurnSkipped := true }
        rw [hcursor] at hready
        unfold PipelineRun.skipGatedStep
        rw [hcursor]
        exact hready
      · exact heffect.1.trans hsame.1.specs
      · intro _
        rw [heffect.2.1, hcursor]
        simp
  | none =>
      rw [hreason] at hpreamble
      have hact : s.act registry (.turn (openTurn block scope)) =
          some { s.judged with dispatched := true } := by
        simp only [PipelineRun.act, h.isLive, hstep, hpreamble]
        rfl
      have hfinish : PipelineRun.act registry { s.judged with dispatched := true } .finish =
          some (({ s.judged with dispatched := true }.updateStep s.judged.currentStep
            fun progress =>
              { progress with
                state := AgentState.done
                lastTurnSkipped := false }).settleStepAndAdvance) := by
        have hlive : PipelineRun.isLive { s.judged with dispatched := true } = true := by
          unfold PipelineRun.isLive
          simp [judged_status h.running]
        simp only [PipelineRun.act, hlive]
        rfl
      refine ⟨[.turn (openTurn block scope)] ++ [.finish], _,
        RunWhere.snoc (RunWhere.snoc RunWhere.nil trivial hact) trivial hfinish, ?_, ?_, ?_⟩
      · have hready := @ready_of_updateStep num { s.judged with dispatched := true }
          hnextJudged fun progress =>
          { progress with
            state := AgentState.done
            lastTurnSkipped := false }
        rw [← hcursor]
        exact hready
      · rw [(PipelineRun.sameMarks_settleStepAndAdvance _).specs]
        exact (PipelineRun.specs_updateProgress { s.judged with dispatched := true } _).trans
          hsame.1.specs
      · intro hnone
        exact absurd rfl hnone

/-!
## Every step that may be skipped is skipped in some run
-/

omit [LinearOrder num] in
theorem ready_startRun {shape : PipelineShape num} (h : 0 < (stepSpecs shape).length) :
    Ready (startRun shape) 0 := by
  constructor
  · rfl
  · rfl
  · unfold startRun PipelineRun.progressAt
    rw [List.getElem?_mapIdx, List.getElem?_eq_getElem h]
    exact ⟨_, rfl, rfl⟩

theorem exists_reach (registry : AgentKindRegistry) (shape : PipelineShape num) {position : Nat}
    (h : position < (stepSpecs shape).length) :
    exists trace s, Run (PipelineRun.act registry) (startRun shape) trace s ∧
      Ready s position ∧ s.specs = stepSpecs shape := by
  induction position with
  | zero => exact ⟨[], _, RunWhere.nil, ready_startRun h, startRun_specs shape⟩
  | succ position ih =>
      rcases ih (Nat.lt_of_succ_lt h) with ⟨before, s, hbefore, hready, hspecs⟩
      have hlength : s.steps.length = (stepSpecs shape).length := by
        have hlengths := congrArg List.length hspecs
        unfold PipelineRun.specs at hlengths
        rw [List.length_map] at hlengths
        exact hlengths
      have hnext : position + 1 < s.steps.length := by
        rw [hlength]
        exact h
      have hspec : s.specs[position]? = some (stepSpecs shape)[position] := by
        rw [hspecs]
        exact List.getElem?_eq_getElem (Nat.lt_of_succ_lt h)
      let block : PreambleBlock num :=
        { estimate := none, taskPrNumber := none, pullRequestNumber := none }
      rcases @exists_advance num _ registry s position hready hnext _ hspec block
        { frontend := false, backend := false } with ⟨after, t, hafter, htready, htspecs, _⟩
      exact ⟨before ++ after, t, hbefore.append hafter, htready, htspecs.trans hspecs⟩

theorem exists_skipReason_of_ownSkip {registry : AgentKindRegistry} {spec : StepSpec num}
    (hown : OwnSkip registry spec) (run : PipelineRun num) :
    exists block scope, skipReason registry run spec block scope ≠ none := by
  let noPullRequest (estimate : Option (TaskEstimate num)) : PreambleBlock num :=
    { estimate := estimate, taskPrNumber := none, pullRequestNumber := none }
  rcases hown with ⟨gating, hgating, henabled, estimate, hout⟩ | hcondition | hreads
  · refine ⟨noPullRequest estimate, { frontend := false, backend := false }, ?_⟩
    have hgatedOut : (spec.gating.any fun gating =>
        gating.enabled && !shouldRunGatedStep estimate gating) = true := by
      simp [hgating, henabled, hout]
    unfold skipReason
    dsimp only [noPullRequest]
    rw [hgatedOut]
    simp
  · cases hsome : spec.condition with
    | none => exact absurd hsome hcondition
    | some condition =>
        let other : RunServiceScope :=
          { frontend := condition.serviceScope = ServiceSide.backend
            backend := condition.serviceScope = ServiceSide.frontend }
        have hunsatisfied : stepConditionSatisfied condition other = false := by
          unfold stepConditionSatisfied
          cases hside : condition.serviceScope with
          | frontend => simp [other, hside]
          | backend => simp [other, hside]
        refine ⟨noPullRequest none, other, ?_⟩
        unfold skipReason
        dsimp only
        split
        · simp
        · simp [hsome, hunsatisfied]
  · refine ⟨noPullRequest none, { frontend := false, backend := false }, ?_⟩
    have hmissing : stepNeedsMissingPullRequest spec.agentKind (noPullRequest none) registry =
        true := by
      unfold readsRequiredPullRequest at hreads
      unfold stepNeedsMissingPullRequest
      cases hclone : (registry.agentStep spec.agentKind).bind AgentStepSpec.clone with
      | none =>
          rw [hclone] at hreads
          cases hreads
      | some clone =>
          rw [hclone, Option.any_some] at hreads
          simp only [hreads, Bool.true_and]
          unfold resolvePrHeadNumber
          split
          · rfl
          · split
            · rfl
            · rfl
    unfold skipReason
    dsimp only
    split
    · simp
    · split
      · simp
      · simp

/-- A run that reaches the step in a state in which some turn skips it. -/
def SkippedInSomeRun (registry : AgentKindRegistry) (shape : PipelineShape num)
    (position : Nat) : Prop :=
  exists trace s spec block scope,
    Run (PipelineRun.act registry) (startRun shape) trace s ∧ Ready s position ∧
      s.specs = stepSpecs shape ∧ (stepSpecs shape)[position]? = some spec ∧
      skipReason registry s spec block scope ≠ none

theorem skippedInSomeRun_of_maySkip {registry : AgentKindRegistry} {shape : PipelineShape num}
    {position : Nat} (h : MaySkip registry (stepSpecs shape) position) :
    SkippedInSomeRun registry shape position := by
  induction h with
  | own hspec hown =>
      have hlength := (List.getElem?_eq_some_iff.mp hspec).1
      rcases exists_reach registry shape hlength with ⟨trace, s, hrun, hready, hspecs⟩
      rcases exists_skipReason_of_ownSkip hown s with ⟨block, scope, hskip⟩
      exact ⟨trace, s, _, block, scope, hrun, hready, hspecs, hspec, hskip⟩
  | cascade hspec hcompanion hproducer ih =>
      rename_i before companion
      rcases ih with ⟨trace, s, producer, block, scope, hrun, hready, hspecs, hbefore, hskip⟩
      have hlength : before + 1 < s.steps.length := by
        have hlengths := congrArg List.length hspecs
        unfold PipelineRun.specs at hlengths
        rw [List.length_map] at hlengths
        rw [hlengths]
        exact (List.getElem?_eq_some_iff.mp hspec).1
      have hsame : s.specs[before]? = some producer := by
        rw [hspecs]
        exact hbefore
      rcases exists_advance hready hlength hsame block scope with
        ⟨after, t, hafter, htready, htspecs, hmark⟩
      refine ⟨trace ++ after, t, companion, block, scope, hrun.append hafter, htready,
        htspecs.trans hspecs, hspec, ?_⟩
      have hcascade : producerWasSkipped t t.currentStep registry = true := by
        rw [PipelineRun.producerWasSkipped_iff, htready.cursor]
        refine ⟨before, companion, rfl, ?_, hcompanion, hmark hskip⟩
        rw [htspecs, hspecs]
        exact hspec
      unfold skipReason
      dsimp only
      rw [hcascade, Bool.or_true]
      simp

/-!
## Stale skips
-/

/-- No handler finishes a step that an earlier pass of the run skipped. -/
def RunsUnskipped (s : PipelineRun num) (a : PipelineRun.RunAction num) : Prop :=
  a = .finish -> s.skippedAt s.currentStep = false

/-- On a live run every skipped step was skipped by its latest turn. -/
def SkipsCurrent (s : PipelineRun num) : Prop :=
  s.isLive = true -> forall i, s.skippedAt i = true -> s.lastSkippedAt i = true

theorem skipsCurrent_of_act {registry : AgentKindRegistry} {s t : PipelineRun num}
    {a : PipelineRun.RunAction num} (h : SkipsCurrent s) (hruns : RunsUnskipped s a)
    (hact : s.act registry a = some t) : SkipsCurrent t := by
  have hlive := PipelineRun.isLive_of_act hact
  intro htlive i hi
  cases PipelineRun.act_effect hact with
  | same hsame =>
      rw [hsame.skipped] at hi
      rw [hsame.lastSkipped]
      exact h hlive i hi
  | skipped spec block scope reason hspec hreason hspecs hskipped hlast =>
      rw [hskipped, Bool.or_eq_true] at hi
      rw [hlast, Bool.or_eq_true]
      rcases hi with hcursor | hbefore
      · exact Or.inl hcursor
      · exact Or.inr (h hlive i hbefore)
  | finished ha hspecs hskipped hlast =>
      rw [hskipped] at hi
      have hne : i ≠ s.currentStep := by
        intro heq
        rw [heq, hruns ha] at hi
        cases hi
      rw [hlast i hne]
      exact h hlive i hi
  | ended hspecs hdead =>
      rw [hdead] at htlive
      cases htlive

theorem skipsCurrent_of_run {registry : AgentKindRegistry} {shape : PipelineShape num}
    {trace : List (PipelineRun.RunAction num)} {s : PipelineRun num}
    (hrun : RunWhere (PipelineRun.act registry) RunsUnskipped (startRun shape) trace s) :
    SkipsCurrent s := by
  apply hrun.invariant
  · intro _ i hi
    rw [startRun_skippedAt] at hi
    cases hi
  · intro s a t h hruns hact
    exact skipsCurrent_of_act h hruns hact

/-!
## The law of checkpoints
-/

/-- No turn of any run skips a step that carries a human approval gate. -/
def KeepsCheckpoints (registry : AgentKindRegistry) (shape : PipelineShape num) : Prop :=
  forall trace s step turn reason,
    Run (PipelineRun.act registry) (startRun shape) trace s -> s.isLive = true ->
    s.steps[s.currentStep]? = some step -> step.spec.requiresApproval = true ->
      (runStepPreamble registry s step turn).2 ≠ PreambleOutcome.skip reason

theorem keepsCheckpoints_iff {ops : Forms.NumberOps num} {registry : AgentKindRegistry}
    {shape : PipelineShape num} (hregistry : shape.agentKindRegistry = some registry)
    (haccepted : validatePipelineShape ops shape = Except.ok ()) :
    KeepsCheckpoints registry shape <->
      forall position, CheckpointReachable registry (stepSpecs shape) position := by
  constructor
  · intro hkeeps position spec hspec happroval
    have hmay : Not (MaySkip registry (stepSpecs shape) position) := by
      intro hskip
      rcases skippedInSomeRun_of_maySkip hskip with
        ⟨trace, s, found, block, scope, hrun, hready, hspecs, hfound, hreason⟩
      rw [hspec] at hfound
      cases hfound
      rcases hready.step with ⟨step, hstep, hworking⟩
      have hstepSpec : step.spec = spec := by
        have heq := PipelineRun.specs_eq_some hstep
        rw [hready.cursor, hspecs, hspec] at heq
        exact (Option.some.inj heq).symm
      rcases Option.ne_none_iff_exists'.mp hreason with ⟨reason, hreason⟩
      apply hkeeps trace s step (openTurn block scope) reason hrun hready.isLive hstep
      · rw [hstepSpec]
        exact happroval
      · rw [runStepPreamble_openTurn registry s hworking block scope, hstepSpec, hreason]
    exact checkpointReachable_of_not_maySkip hmay spec hspec happroval
  · intro hreachable trace s step turn reason hrun hlive hstep happroval hskip
    have hexplained := explained_of_run hrun
    have hspec := PipelineRun.specs_eq_some hstep
    rcases (PipelineRun.runStepPreamble_spec registry s step turn).2.2 reason hskip with
      ⟨block, _, hreason⟩
    have hmay := hexplained.maySkip hlive hspec hreason
    rw [hexplained.sameSpecs] at hspec
    exact not_maySkip_of_reachable hregistry haccepted hspec happroval
      (hreachable s.currentStep) hmay

theorem producer_of_skip {ops : Forms.NumberOps num} {registry : AgentKindRegistry}
    {shape : PipelineShape num} (hregistry : shape.agentKindRegistry = some registry)
    (haccepted : validatePipelineShape ops shape = Except.ok ()) {s : PipelineRun num}
    (hspecs : s.specs = stepSpecs shape) {step : RunStep num}
    (hstep : s.steps[s.currentStep]? = some step)
    (hproducer : producerWasSkipped s s.currentStep registry = true) :
    exists before producer, s.currentStep = before + 1 ∧
      isCompanionKind step.spec.agentKind (some registry) = true ∧
      s.steps[before]? = some producer ∧
      producer.spec.agentKind ∈ companionTargets step.spec.agentKind (some registry) ∧
      s.skippedAt before = true := by
  rcases (PipelineRun.producerWasSkipped_iff s s.currentStep registry).mp hproducer with
    ⟨before, spec, hcursor, hspec, hcompanion, hskipped⟩
  rw [PipelineRun.specs_eq_some hstep] at hspec
  cases hspec
  have hpresent : exists producer, s.steps[before]? = some producer := by
    cases hbefore : s.steps[before]? with
    | some producer => exact ⟨producer, rfl⟩
    | none =>
        unfold PipelineRun.skippedAt PipelineRun.progressAt at hskipped
        rw [hbefore] at hskipped
        cases hskipped
  rcases hpresent with ⟨producer, hbefore⟩
  refine ⟨before, producer, hcursor, hcompanion, hbefore, ?_, hskipped⟩
  have hplace := PipelineRun.specs_eq_some hstep
  have hproducerPlace := PipelineRun.specs_eq_some hbefore
  rw [hspecs] at hproducerPlace
  rw [hcursor, hspecs] at hplace
  rcases stepSpecs_eq_some hplace with ⟨i, hi, _, henabled, hkind⟩
  rcases stepSpecs_eq_some hproducerPlace with ⟨j, hj, _, _, hproducerKind⟩
  rw [← hregistry] at hcompanion ⊢
  rcases (acceptedStep_of_validate haccepted hkind henabled).placed hcompanion with
    ⟨k, target, hk, htarget, hmem⟩
  have hadjacent : shape.enabledBefore i = some j := by
    rw [enabledBefore_of_position hi]
    exact hj
  rw [hadjacent] at hk
  cases hk
  rw [hproducerKind] at htarget
  cases htarget
  exact hmem

/-- The built-in coder and the built-in re-assessor of what it opened. -/
def builtinRegistry : AgentKindRegistry where
  companionFor := fun _ => none
  gatable := fun _ => none
  agentStep := fun kind =>
    match kind with
    | "coder" =>
        some
          { surface := AgentSurface.containerCoding
            clone := some { branch := CloneBranch.work } }
    | "task-reassessor" =>
        some
          { surface := AgentSurface.containerExplore
            clone := some
              { branch := CloneBranch.base
                prHead := true
                prHeadSource := PrHeadSource.run
                requirePr := true } }
    | _ => none
  variant := fun _ => none
  hasBinaryOutputTrait := fun _ => false

def natOps : Forms.NumberOps Nat where
  parseFinite := String.toNat?
  isInteger := fun _ => true
  lt := fun a b => a < b
  text := toString
  ofNat := fun n => n

/-- A person approves what the re-assessor measured. -/
def approvedReassessment : PipelineShape Nat where
  agentKinds := ["coder", "task-reassessor"]
  gates := some [false, true]
  agentKindRegistry := some builtinRegistry

/-- A person approves the code. -/
def approvedCode : PipelineShape Nat where
  agentKinds := ["coder", "task-reassessor"]
  gates := some [true, false]
  agentKindRegistry := some builtinRegistry

/-- A specification that light tasks do without, its review, and a judge that may
bounce the run back to the coder. -/
def gatedSpec : PipelineShape Nat where
  agentKinds := ["task-estimator", "coder", "spec-writer", "spec-companion", "judge"]
  gating := some
    [none, none,
      some { enabled := true, minComplexity := some 5, minRisk := none, minImpact := none },
      none, none]
  agentKindRegistry := some builtinRegistry

def blockScored (complexity : Nat) : PreambleBlock Nat where
  estimate := some { complexity := complexity, risk := 0, impact := 0 }
  taskPrNumber := none
  pullRequestNumber := none

def turnScored (complexity : Nat) : Turn Nat :=
  openTurn (blockScored complexity) { frontend := false, backend := true }

def codeWritten : List (PipelineRun.RunAction Nat) :=
  [.turn (turnScored 1), .finish]

/-- The first pass skips the specification and its review; the judge bounces the
run back, and in the second pass the specification is written. -/
def specWrittenLate : List (PipelineRun.RunAction Nat) :=
  [.turn (turnScored 1), .finish, .turn (turnScored 1), .finish, .turn (turnScored 1),
    .turn (turnScored 1), .turn (turnScored 1), .loopBack 1 4, .turn (turnScored 9), .finish,
    .turn (turnScored 9), .finish]

theorem approvedReassessment_accepted :
    validatePipelineShape natOps approvedReassessment = Except.ok () := by
  decide +kernel

theorem gatedSpec_accepted : validatePipelineShape natOps gatedSpec = Except.ok () := by
  decide +kernel

theorem approvedCode_accepted : validatePipelineShape natOps approvedCode = Except.ok () := by
  decide +kernel

def runOf (shape : PipelineShape Nat) (trace : List (PipelineRun.RunAction Nat)) :
    PipelineRun Nat :=
  endOf (PipelineRun.act builtinRegistry) (startRun shape) trace

/-- Whether the current step carries a checkpoint, and what its preamble decides. -/
def turnedAt (s : PipelineRun Nat) (turn : Turn Nat) : Option (Bool × PreambleOutcome) :=
  (s.steps[s.currentStep]?).map fun step =>
    (step.spec.requiresApproval, (runStepPreamble builtinRegistry s step turn).2)

theorem approvedCode_reachable (position : Nat) :
    CheckpointReachable builtinRegistry (stepSpecs approvedCode) position := by
  have hspecs : stepSpecs approvedCode = [specAt approvedCode 0, specAt approvedCode 1] := rfl
  intro spec hspec happroval
  rw [hspecs] at hspec
  cases position with
  | zero =>
      cases hspec
      constructor
      · decide +kernel
      · intro hcompanion
        exact absurd hcompanion (by decide +kernel)
  | succ position =>
      cases position with
      | zero =>
          cases hspec
          exact absurd happroval (by decide +kernel)
      | succ position => cases hspec

/-- The first pass up to the review, whose specification was skipped. -/
def specSkipped : List (PipelineRun.RunAction Nat) :=
  [.turn (turnScored 1), .finish, .turn (turnScored 1), .finish, .turn (turnScored 1)]

def testUnskipped (s : PipelineRun Nat) : PipelineRun.RunAction Nat -> Bool
  | .finish => !s.skippedAt s.currentStep
  | _ => true

theorem runsUnskipped_of_test (s : PipelineRun Nat) (a : PipelineRun.RunAction Nat)
    (h : testUnskipped s a = true) : RunsUnskipped s a := by
  intro hfinish
  rw [hfinish] at h
  simpa [testUnskipped] using h

/-- The review is skipped for the specification before it. -/
def SkippedForProducer (s : PipelineRun Nat) : Prop :=
  exists step before producer, s.steps[s.currentStep]? = some step ∧ s.currentStep = before + 1 ∧
    isCompanionKind step.spec.agentKind (some builtinRegistry) = true ∧
    s.steps[before]? = some producer ∧
    producer.spec.agentKind ∈ companionTargets step.spec.agentKind (some builtinRegistry) ∧
    producer.progress.lastTurnSkipped = true

end Pipelines
end CatFactory
