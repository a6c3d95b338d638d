import CatFactory.Pipelines.Preamble

/-!
# Checkpoints and skips

The save-time rules keep a human approval gate off the steps whose own estimate
gate or run condition may skip them, and off the companions of such steps.  Here
it is worked out which checkpoints a run can lose all the same.
-/

namespace CatFactory
namespace Pipelines

open Foundation
open Execution (AgentState ExecutionStatus)

variable {registry : AgentKindRegistry} {num : Type}

namespace PipelineRun

/-!
## What a change of the progress keeps
-/

theorem specs_updateProgress (run : PipelineRun num)
    (change : Nat -> StepProgress -> StepProgress) :
    (run.updateProgress change).specs = run.specs := by
  unfold specs updateProgress
  apply List.ext_getElem?
  intro i
  simp only [List.getElem?_map, List.getElem?_mapIdx, Option.map_map]
  rfl

theorem progressAt_updateProgress (run : PipelineRun num)
    (change : Nat -> StepProgress -> StepProgress) (i : Nat) :
    (run.updateProgress change).progressAt i = (run.progressAt i).map (change i) := by
  unfold progressAt updateProgress
  simp only [List.getElem?_mapIdx, Option.map_map]
  rfl

/-- The step was skipped, in this pass of the run or in an earlier one. -/
def skippedAt (run : PipelineRun num) (i : Nat) : Bool :=
  (run.progressAt i).any fun progress => progress.skipped.isSome

/-- The latest turn of the step skipped it. -/
def lastSkippedAt (run : PipelineRun num) (i : Nat) : Bool :=
  (run.progressAt i).any StepProgress.lastTurnSkipped

/-- Two states of a run that agree on its steps and on which of them were skipped. -/
structure SameMarks (s t : PipelineRun num) : Prop where
  specs : t.specs = s.specs
  skipped : forall i, t.skippedAt i = s.skippedAt i
  lastSkipped : forall i, t.lastSkippedAt i = s.lastSkippedAt i

theorem SameMarks.of_steps {s t : PipelineRun num} (h : t.steps = s.steps) :
    SameMarks s t where
  specs := by unfold PipelineRun.specs; rw [h]
  skipped := by
    intro i
    unfold skippedAt progressAt
    rw [h]
  lastSkipped := by
    intro i
    unfold lastSkippedAt progressAt
    rw [h]

theorem SameMarks.trans {s t u : PipelineRun num} (hst : SameMarks s t)
    (htu : SameMarks t u) : SameMarks s u where
  specs := htu.specs.trans hst.specs
  skipped := fun i => (htu.skipped i).trans (hst.skipped i)
  lastSkipped := fun i => (htu.lastSkipped i).trans (hst.lastSkipped i)

theorem sameMarks_updateProgress (run : PipelineRun num)
    {change : Nat -> StepProgress -> StepProgress}
    (hskipped : forall i progress, (change i progress).skipped = progress.skipped)
    (hlast : forall i progress,
      (change i progress).lastTurnSkipped = progress.lastTurnSkipped) :
    SameMarks run (run.updateProgress change) where
  specs := specs_updateProgress run change
  skipped := by
    intro i
    unfold skippedAt
    rw [progressAt_updateProgress]
    cases run.progressAt i with
    | none => rfl
    | some progress => simp [hskipped]
  lastSkipped := by
    intro i
    unfold lastSkippedAt
    rw [progressAt_updateProgress]
    cases run.progressAt i with
    | none => rfl
    | some progress => simp [hlast]

theorem sameMarks_settleStepAndAdvance (run : PipelineRun num) :
    SameMarks run run.settleStepAndAdvance := by
  unfold settleStepAndAdvance
  split
  · exact SameMarks.of_steps rfl
  · have hstarted : SameMarks run (run.updateStep (run.currentStep + 1) fun progress =>
        { progress with state := AgentState.working }) := by
      apply sameMarks_updateProgress
      · intro i progress
        split
        · rfl
        · rfl
      · intro i progress
        split
        · rfl
        · rfl
    exact hstarted.trans (SameMarks.of_steps rfl)

theorem specs_eq_some {run : PipelineRun num} {i : Nat} {step : RunStep num}
    (h : run.steps[i]? = some step) : run.specs[i]? = some step.spec := by
  unfold specs
  rw [List.getElem?_map, h]
  rfl

/-!
## Skips and what explains them
-/

theorem producerWasSkipped_iff (run : PipelineRun num) (index : Nat)
    (registry : AgentKindRegistry) :
    producerWasSkipped run index registry = true <->
      exists before spec, index = before + 1 ∧ run.specs[index]? = some spec ∧
        isCompanionKind spec.agentKind (some registry) = true ∧
        run.skippedAt before = true := by
  unfold producerWasSkipped specs
  rw [List.getElem?_map]
  cases run.steps[index]? with
  | none => simp
  | some step =>
      cases index with
      | zero => simp
      | succ before =>
          simp only [Bool.and_eq_true, Option.map_some, Nat.add_right_cancel_iff,
            Option.some.injEq]
          constructor
          · intro h
            exact ⟨before, step.spec, rfl, rfl, h.1, h.2⟩
          · intro h
            rcases h with ⟨_, _, rfl, rfl, hcompanion, hskipped⟩
            exact ⟨hcompanion, hskipped⟩

theorem SameMarks.producerWasSkipped_eq {s t : PipelineRun num} (h : SameMarks s t)
    (index : Nat) (registry : AgentKindRegistry) :
    producerWasSkipped t index registry = producerWasSkipped s index registry := by
  rw [Bool.eq_iff_iff, producerWasSkipped_iff, producerWasSkipped_iff, h.specs]
  simp only [h.skipped]

theorem skipGatedStep_effect (run : PipelineRun num) (reason : StepSkipReason)
    (hcursor : run.currentStep < run.steps.length) :
    (run.skipGatedStep reason).specs = run.specs ∧
      (forall i, (run.skipGatedStep reason).skippedAt i =
        (decide (i = run.currentStep) || run.skippedAt i)) ∧
      (forall i, (run.skipGatedStep reason).lastSkippedAt i =
        (decide (i = run.currentStep) || run.lastSkippedAt i)) := by
  unfold skipGatedStep
  have hsettled := sameMarks_settleStepAndAdvance
    (run.updateStep run.currentStep fun progress =>
      { progress with
        state := AgentState.done
        skipped := some reason
        lastTurnSkipped := true })
  have hprogress : exists progress, run.progressAt run.currentStep = some progress := by
    unfold progressAt
    rw [List.getElem?_eq_getElem hcursor]
    exact ⟨_, rfl⟩
  rcases hprogress with ⟨current, hcurrent⟩
  refine ⟨hsettled.specs.trans (specs_updateProgress run _), ?_, ?_⟩
  · intro i
    rw [hsettled.skipped]
    unfold skippedAt updateStep
    rw [progressAt_updateProgress]
    by_cases hi : i = run.currentStep
    · simp [hi, hcurrent]
    · simp [hi]
  · intro i
    rw [hsettled.lastSkipped]
    unfold lastSkippedAt updateStep
    rw [progressAt_updateProgress]
    by_cases hi : i = run.currentStep
    · simp [hi, hcurrent]
    · simp [hi]

theorem resumeIfPaused_steps (run : PipelineRun num) :
    (resumeIfPaused run).steps = run.steps ∧
      (resumeIfPaused run).currentStep = run.currentStep := by
  unfold resumeIfPaused
  split
  · exact ⟨rfl, rfl⟩
  · exact ⟨rfl, rfl⟩

theorem recordInputGate_steps (run : PipelineRun num) :
    (recordInputGate run).steps = run.steps ∧
      (recordInputGate run).currentStep = run.currentStep := by
  unfold recordInputGate
  split
  · exact ⟨rfl, rfl⟩
  · exact ⟨rfl, rfl⟩

theorem sameMarks_startCurrentStep (run : PipelineRun num) :
    SameMarks run (startCurrentStep run) := by
  unfold startCurrentStep updateStep
  apply sameMarks_updateProgress
  · intro i progress
    split
    · rfl
    · rfl
  · intro i progress
    split
    · rfl
    · rfl

theorem sameMarks_parkCurrentStep (run : PipelineRun num)
    (decision approval : Option String) :
    SameMarks run (run.parkCurrentStep decision approval) := by
  unfold parkCurrentStep updateStep
  apply sameMarks_updateProgress
  · intro i progress
    split
    · rfl
    · rfl
  · intro i progress
    split
    · rfl
    · rfl

theorem sameMarks_rerunRange (run : PipelineRun num) (fromIndex throughIndex : Nat) :
    SameMarks run (run.rerunRange fromIndex throughIndex) := by
  unfold rerunRange
  apply sameMarks_updateProgress
  · intro i progress
    split
    · rfl
    · split
      · rfl
      · rfl
  · intro i progress
    split
    · rfl
    · split
      · rfl
      · rfl

theorem specs_closeOut (run : PipelineRun num) : run.closeOut.specs = run.specs :=
  specs_updateProgress run _

/-- The run as the last two checks see it. -/
def judged (run : PipelineRun num) : PipelineRun num :=
  recordInputGate (startCurrentStep (resumeIfPaused run))

theorem sameMarks_judged (run : PipelineRun num) :
    SameMarks run (judged run) ∧ (judged run).currentStep = run.currentStep := by
  have hresumed := resumeIfPaused_steps run
  have hjudged := recordInputGate_steps (startCurrentStep (resumeIfPaused run))
  constructor
  · exact ((SameMarks.of_steps hresumed.1).trans (sameMarks_startCurrentStep _)).trans
      (SameMarks.of_steps hjudged.1)
  · exact hjudged.2.trans hresumed.2

variable [LinearOrder num]

theorem SameMarks.skipReason_eq {s t : PipelineRun num} (h : SameMarks s t)
    (hcursor : t.currentStep = s.currentStep) (registry : AgentKindRegistry)
    (spec : StepSpec num) (block : PreambleBlock num) (scope : RunServiceScope) :
    skipReason registry t spec block scope = skipReason registry s spec block scope := by
  unfold skipReason
  rw [hcursor, h.producerWasSkipped_eq]

/-- What the checks write on the run, and what a skip says. -/
theorem runStepPreamble_spec (registry : AgentKindRegistry) (run : PipelineRun num)
    (step : RunStep num) (turn : Turn num) :
    SameMarks run (runStepPreamble registry run step turn).1 ∧
      (runStepPreamble registry run step turn).1.currentStep = run.currentStep ∧
      forall reason, (runStepPreamble registry run step turn).2 = PreambleOutcome.skip reason ->
        exists block, turn.block = some block ∧
          skipReason registry run step.spec block turn.scope = some reason := by
  have hresumed := resumeIfPaused_steps run
  have hstarted := (SameMarks.of_steps hresumed.1).trans (sameMarks_startCurrentStep _)
  have hjudged := sameMarks_judged run
  unfold runStepPreamble
  split
  · refine ⟨SameMarks.of_steps rfl, rfl, ?_⟩
    intro reason h
    cases h
  · dsimp only
    split
    · refine ⟨SameMarks.of_steps hresumed.1, hresumed.2, ?_⟩
      intro reason h
      cases h
    · split
      · refine ⟨hstarted, hresumed.2, ?_⟩
        intro reason h
        cases h
      · rename_i block hblock
        split
        · refine ⟨hjudged.1.trans (SameMarks.of_steps rfl), hjudged.2, ?_⟩
          intro reason h
          cases h
        · have hsame := hjudged.1.skipReason_eq hjudged.2 registry step.spec block turn.scope
          unfold judged at hsame
          rw [hsame]
          split
          · rename_i found hfound
            refine ⟨hjudged.1, hjudged.2, ?_⟩
            intro reason h
            cases h
            exact ⟨block, hblock, hfound⟩
          · refine ⟨hjudged.1, hjudged.2, ?_⟩
            intro reason h
            cases h

/-- What an action can do to the steps and to their marks. -/
inductive RunEffect (registry : AgentKindRegistry) (s : PipelineRun num) (a : RunAction num)
    (t : PipelineRun num) : Prop where
  | same (h : SameMarks s t)
  | skipped (spec : StepSpec num) (block : PreambleBlock num) (scope : RunServiceScope)
      (reason : StepSkipReason) (hspec : s.specs[s.currentStep]? = some spec)
      (hreason : skipReason registry s spec block scope = some reason)
      (hspecs : t.specs = s.specs)
      (hskipped : forall i, t.skippedAt i = (decide (i = s.currentStep) || s.skippedAt i))
      (hlast : forall i, t.lastSkippedAt i =
        (decide (i = s.currentStep) || s.lastSkippedAt i))
  | finished (ha : a = .finish) (hspecs : t.specs = s.specs)
      (hskipped : forall i, t.skippedAt i = s.skippedAt i)
      (hlast : forall i, i ≠ s.currentStep -> t.lastSkippedAt i = s.lastSkippedAt i)
  | ended (hspecs : t.specs = s.specs) (hlive : t.isLive = false)

theorem act_effect {s t : PipelineRun num} {a : RunAction num}
    (hact : s.act registry a = some t) : RunEffect registry s a t := by
  cases a with
  | turn turn =>
      simp only [act] at hact
      split at hact
      · cases hact
      · split at hact
        · cases hact
        · rename_i step hstep
          have hspec := runStepPreamble_spec registry s step turn
          split at hact
          · rename_i after reason heq
            rw [heq] at hspec
            rcases hspec with ⟨hsame, hcursor, hskip⟩
            rcases hskip reason rfl with ⟨block, _, hreason⟩
            have hlength : after.currentStep < after.steps.length := by
              have hspecs := congrArg List.length hsame.specs
              unfold specs at hspecs
              rw [List.length_map, List.length_map] at hspecs
              rw [hcursor, hspecs]
              exact (List.getElem?_eq_some_iff.mp hstep).1
            have heffect := skipGatedStep_effect after reason hlength
            cases hact
            apply RunEffect.skipped step.spec block turn.scope reason (specs_eq_some hstep) hreason
            · exact heffect.1.trans hsame.specs
            · intro i
              rw [heffect.2.1, hcursor, hsame.skipped]
            · intro i
              rw [heffect.2.2, hcursor, hsame.lastSkipped]
          · rename_i after heq
            rw [heq] at hspec
            cases hact
            exact RunEffect.same (hspec.1.trans (SameMarks.of_steps rfl))
          · rename_i after outcome _ _ heq
            rw [heq] at hspec
            cases hact
            exact RunEffect.same hspec.1
  | finish =>
      simp only [act] at hact
      split at hact
      · cases hact
      · cases hact
        have hsettled := sameMarks_settleStepAndAdvance
          (s.updateStep s.currentStep fun progress =>
            { progress with
              state := AgentState.done
              lastTurnSkipped := false })
        apply RunEffect.finished rfl
        · exact hsettled.specs.trans (specs_updateProgress s _)
        · intro i
          rw [hsettled.skipped]
          unfold skippedAt updateStep
          rw [progressAt_updateProgress]
          by_cases hi : i = s.currentStep
          · cases s.progressAt i with
            | none => rfl
            | some progress => simp [hi]
          · simp [hi]
        · intro i hi
          rw [hsettled.lastSkipped]
          unfold lastSkippedAt updateStep
          rw [progressAt_updateProgress]
          simp [hi]
  | park decision approval =>
      simp only [act] at hact
      split at hact
      · cases hact
      · cases hact
        apply RunEffect.same
        exact (sameMarks_parkCurrentStep s decision approval).trans (SameMarks.of_steps rfl)
  | loopBack fromIndex throughIndex =>
      simp only [act] at hact
      split at hact
      · cases hact
      · cases hact
        apply RunEffect.same
        exact (sameMarks_rerunRange s fromIndex throughIndex).trans (SameMarks.of_steps rfl)
  | endRun =>
      simp only [act] at hact
      split at hact
      · cases hact
      · cases hact
        apply RunEffect.ended
        · exact specs_closeOut s
        · rfl
  | fail =>
      simp only [act] at hact
      split at hact
      · cases hact
      · cases hact
        exact RunEffect.ended rfl rfl

theorem specs_of_act {s t : PipelineRun num} {a : RunAction num}
    (hact : s.act registry a = some t) : t.specs = s.specs := by
  cases act_effect hact with
  | same h => exact h.specs
  | skipped spec block scope reason hspec hreason hspecs hskipped hlast => exact hspecs
  | finished ha hspecs hskipped hlast => exact hspecs
  | ended hspecs hlive => exact hspecs

theorem isLive_of_act {s t : PipelineRun num} {a : RunAction num}
    (hact : s.act registry a = some t) : s.isLive = true := by
  by_contra hlive
  rw [Bool.not_eq_true] at hlive
  cases a <;> simp [act, hlive] at hact

end PipelineRun

/-!
## The steps that a run may skip
-/

variable [LinearOrder num]

/-- One of the step's own axes can skip it, in some state of the task, the board
and the block. -/
def OwnSkip (registry : AgentKindRegistry) (spec : StepSpec num) : Prop :=
  (exists gating, spec.gating = some gating ∧ gating.enabled = true ∧
      exists estimate, shouldRunGatedStep estimate gating = false) ∨
    spec.condition ≠ none ∨ readsRequiredPullRequest spec.agentKind registry = true

/-- The step can be skipped, or is a companion right after one that can be. -/
inductive MaySkip (registry : AgentKindRegistry) (specs : List (StepSpec num)) : Nat -> Prop where
  | own {i : Nat} {spec : StepSpec num} (hspec : specs[i]? = some spec)
      (hown : OwnSkip registry spec) : MaySkip registry specs i
  | cascade {i : Nat} {spec : StepSpec num} (hspec : specs[i + 1]? = some spec)
      (hcompanion : isCompanionKind spec.agentKind (some registry) = true)
      (hproducer : MaySkip registry specs i) : MaySkip registry specs (i + 1)

/-- A skip names an axis of the step itself, or the skip of its producer. -/
theorem skipReason_cases {run : PipelineRun num} {spec : StepSpec num} {block : PreambleBlock num}
    {scope : RunServiceScope} {reason : StepSkipReason}
    (h : skipReason registry run spec block scope = some reason) :
    (OwnSkip registry spec ∧ reason ≠ StepSkipReason.producerSkipped) ∨
      producerWasSkipped run run.currentStep registry = true := by
  unfold skipReason at h
  dsimp only at h
  split at h
  · rename_i hskip
    by_cases hproducer : producerWasSkipped run run.currentStep registry = true
    · exact Or.inr hproducer
    · rw [Bool.or_eq_true] at hskip
      rcases hskip with hgated | hproducer'
      · rw [if_pos hgated] at h
        cases h
        cases hgating : spec.gating with
        | none =>
            rw [hgating] at hgated
            cases hgated
        | some gating =>
            rw [hgating, Option.any_some, Bool.and_eq_true, Bool.not_eq_true'] at hgated
            exact Or.inl ⟨Or.inl ⟨gating, hgating, hgated.1, block.estimate, hgated.2⟩, by simp⟩
      · exact absurd hproducer' hproducer
  · split at h
    · rename_i hcondition
      cases h
      refine Or.inl ⟨Or.inr (Or.inl ?_), by simp⟩
      intro hnone
      rw [hnone] at hcondition
      cases hcondition
    · split at h
      · rename_i hmissing
        cases h
        refine Or.inl ⟨Or.inr (Or.inr ?_), by simp⟩
        unfold stepNeedsMissingPullRequest at hmissing
        unfold readsRequiredPullRequest
        split at hmissing
        · cases hmissing
        · rename_i clone hclone
          rw [hclone]
          simp only [Bool.and_eq_true] at hmissing
          simpa using hmissing.1
      · cases h

/-- The steps are those of the pipeline, and every skip on a live run is explained. -/
structure Explained (registry : AgentKindRegistry) (specs : List (StepSpec num))
    (run : PipelineRun num) : Prop where
  sameSpecs : run.specs = specs
  skipped : run.isLive = true -> forall i, run.skippedAt i = true -> MaySkip registry specs i

omit [LinearOrder num] in
theorem startRun_specs (shape : PipelineShape num) : (startRun shape).specs = stepSpecs shape := by
  unfold startRun PipelineRun.specs
  apply List.ext_getElem?
  intro i
  rw [List.getElem?_map, List.getElem?_mapIdx, Option.map_map]
  cases (stepSpecs shape)[i]? with
  | none => rfl
  | some spec => rfl

omit [LinearOrder num] in
theorem startRun_skippedAt (shape : PipelineShape num) (i : Nat) :
    (startRun shape).skippedAt i = false := by
  unfold startRun PipelineRun.skippedAt PipelineRun.progressAt
  simp only [List.getElem?_mapIdx]
  cases (stepSpecs shape)[i]? with
  | none => rfl
  | some spec => rfl

theorem startRun_explained (registry : AgentKindRegistry) (shape : PipelineShape num) :
    Explained registry (stepSpecs shape) (startRun shape) where
  sameSpecs := startRun_specs shape
  skipped := by
    intro _ i hskipped
    rw [startRun_skippedAt] at hskipped
    cases hskipped

/-- A skip at the cursor is one of those that the pipeline allows. -/
theorem Explained.maySkip {specs : List (StepSpec num)} {run : PipelineRun num}
    (h : Explained registry specs run) (hlive : run.isLive = true) {spec : StepSpec num}
    {block : PreambleBlock num} {scope : RunServiceScope} {reason : StepSkipReason}
    (hspec : run.specs[run.currentStep]? = some spec)
    (hreason : skipReason registry run spec block scope = some reason) :
    MaySkip registry specs run.currentStep := by
  rcases skipReason_cases hreason with hown | hproducer
  · rw [h.sameSpecs] at hspec
    exact MaySkip.own hspec hown.1
  · rcases (PipelineRun.producerWasSkipped_iff run run.currentStep registry).mp hproducer with
      ⟨before, companion, hindex, hcompanion, hkind, hskipped⟩
    rw [hindex, h.sameSpecs] at hcompanion
    rw [hindex]
    exact MaySkip.cascade hcompanion hkind (h.skipped hlive before hskipped)

theorem explained_of_act {specs : List (StepSpec num)} {s t : PipelineRun num}
    {a : PipelineRun.RunAction num} (h : Explained registry specs s)
    (hact : s.act registry a = some t) : Explained registry specs t := by
  have hlive := PipelineRun.isLive_of_act hact
  constructor
  · exact (PipelineRun.specs_of_act hact).trans h.sameSpecs
  · intro htlive i hi
    cases PipelineRun.act_effect hact with
    | same hsame =>
        rw [hsame.skipped] at hi
        exact h.skipped hlive i hi
    | skipped spec block scope reason hspec hreason hspecs hskipped hlast =>
        rw [hskipped, Bool.or_eq_true, decide_eq_true_eq] at hi
        rcases hi with hcursor | hbefore
        · rw [hcursor]
          exact h.maySkip hlive hspec hreason
        · exact h.skipped hlive i hbefore
    | finished ha hspecs hskipped hlast =>
        rw [hskipped] at hi
        exact h.skipped hlive i hi
    | ended hspecs hdead =>
        rw [hdead] at htlive
        cases htlive

theorem explained_of_run {shape : PipelineShape num} {trace : List (PipelineRun.RunAction num)}
    {s : PipelineRun num} (hrun : Run (PipelineRun.act registry) (startRun shape) trace s) :
    Explained registry (stepSpecs shape) s := by
  apply hrun.invariant
  · exact startRun_explained registry shape
  · intro s a t h _ hact
    exact explained_of_act h hact

/-!
## What an accepted shape says
-/

theorem bind_eq_ok {first second : Except String Unit} :
    (first >>= fun _ => second) = Except.ok () <->
      first = Except.ok () ∧ second = Except.ok () := by
  cases first with
  | error message =>
      constructor
      · intro h
        cases h
      · intro h
        cases h.1
  | ok =>
      constructor
      · intro h
        exact ⟨rfl, h⟩
      · intro h
        exact h.2

theorem eq_ok_of_forM {value : Type} {rule : value -> Except String Unit} {values : List value}
    (h : values.forM rule = Except.ok ()) : forall v, v ∈ values -> rule v = Except.ok () := by
  induction values with
  | nil =>
      intro v hv
      cases hv
  | cons first rest ih =>
      rcases bind_eq_ok.mp h with ⟨hfirst, hrest⟩
      intro v hv
      rcases List.mem_cons.mp hv with heq | hmem
      · rw [heq]
        exact hfirst
      · exact ih hrest v hmem

theorem refuseIf_eq_ok {condition : Bool} {message : String}
    (h : refuseIf condition message = Except.ok ()) : condition = false := by
  unfold refuseIf at h
  split at h
  · cases h
  · rename_i hcondition
    simpa using hcondition

omit [LinearOrder num] in
theorem forEachEnabled_eq_ok {shape : PipelineShape num}
    {rule : Nat -> String -> Except String Unit} (h : shape.forEachEnabled rule = Except.ok ())
    {i : Nat} {kind : String} (hkind : shape.agentKinds[i]? = some kind)
    (henabled : shape.isEnabled i = true) : rule i kind = Except.ok () := by
  have hlength : i < shape.agentKinds.length := (List.getElem?_eq_some_iff.mp hkind).1
  have hi := eq_ok_of_forM h i (List.mem_range.mpr hlength)
  simpa only [hkind, henabled, if_true] using hi

/-- What the rules of an accepted shape say of one enabled step. -/
structure AcceptedStep (shape : PipelineShape num) (i : Nat) (kind : String) : Prop where
  ungated : shape.gateOn i = true -> stepMaySkip shape i = false
  producer : shape.gateOn i = true -> isCompanionKind kind shape.agentKindRegistry = true ->
    forall j, shape.enabledBefore i = some j -> stepMaySkip shape j = false
  placed : isCompanionKind kind shape.agentKindRegistry = true ->
    exists j producer, shape.enabledBefore i = some j ∧
      shape.agentKinds[j]? = some producer ∧
      producer ∈ companionTargets kind shape.agentKindRegistry

omit [LinearOrder num] in
theorem enabledBefore_lt {shape : PipelineShape num} {i j : Nat}
    (h : shape.enabledBefore i = some j) : j < i := by
  induction i with
  | zero => cases h
  | succ i ih =>
      unfold PipelineShape.enabledBefore at h
      split at h
      · cases h
        exact Nat.lt_succ_self _
      · exact Nat.lt_succ_of_lt (ih h)

theorem acceptedStep_of_validate {ops : Forms.NumberOps num} {shape : PipelineShape num}
    (haccepted : validatePipelineShape ops shape = Except.ok ()) {i : Nat} {kind : String}
    (hkind : shape.agentKinds[i]? = some kind) (henabled : shape.isEnabled i = true) :
    AcceptedStep shape i kind := by
  unfold validatePipelineShape at haccepted
  rcases bind_eq_ok.mp haccepted with ⟨hplacement, hrest⟩
  rcases bind_eq_ok.mp hrest with ⟨hgating, hrest⟩
  rcases bind_eq_ok.mp hrest with ⟨hconditions, hrest⟩
  rcases bind_eq_ok.mp hrest with ⟨hcheckpoints, _⟩
  have hplaced := forEachEnabled_eq_ok hplacement hkind henabled
  have hgated := forEachEnabled_eq_ok hgating hkind henabled
  have hcondition := forEachEnabled_eq_ok hconditions hkind henabled
  have hcheckpoint := forEachEnabled_eq_ok hcheckpoints hkind henabled
  have hungated : shape.gateOn i = true -> stepMaySkip shape i = false := by
    intro hgate
    unfold stepMaySkip
    rw [Bool.or_eq_false_iff]
    constructor
    · cases hat : shape.gatingAt i with
      | none => rfl
      | some gating =>
          by_contra hon
          simp only [Option.any_some, Bool.not_eq_false] at hon
          simp only [hat, hon, if_true] at hgated
          rcases bind_eq_ok.mp (bind_eq_ok.mp hgated).2 with ⟨hrefused, _⟩
          have hoff := refuseIf_eq_ok hrefused
          rw [hgate] at hoff
          cases hoff
    · by_contra hon
      simp only [Bool.not_eq_false] at hon
      rw [if_pos hon] at hcondition
      have hoff := refuseIf_eq_ok (bind_eq_ok.mp hcondition).2
      rw [hgate] at hoff
      cases hoff
  constructor
  · exact hungated
  · intro hgate hcompanion j hbefore
    rw [hgate, hcompanion] at hcheckpoint
    simp only [Bool.and_self, if_true] at hcheckpoint
    by_contra hskip
    rw [Bool.not_eq_false] at hskip
    have hproducer : checkpointSkippedBy shape i = some j := by
      unfold checkpointSkippedBy
      simp [hungated hgate, hkind, hcompanion, hbefore, hskip]
    rw [hproducer] at hcheckpoint
    have hne : j ≠ i := Nat.ne_of_lt (enabledBefore_lt hbefore)
    simp only [hne, if_false] at hcheckpoint
    cases hcheckpoint
  · intro hcompanion
    rw [if_pos hcompanion] at hplaced
    have hall := refuseIf_eq_ok hplaced
    cases hbefore : shape.enabledBefore i with
    | none =>
        rw [hbefore] at hall
        cases hall
    | some j =>
        rw [hbefore, Option.bind_some] at hall
        cases hproducer : shape.agentKinds[j]? with
        | none =>
            rw [hproducer] at hall
            cases hall
        | some producer =>
            rw [hproducer] at hall
            exact ⟨j, producer, rfl, hproducer, by simpa using hall⟩

/-!
## From positions of the run to positions of the pipeline
-/

omit [LinearOrder num] in
theorem enabledBefore_eq_getLast (shape : PipelineShape num) (n : Nat) :
    shape.enabledBefore n = ((List.range n).filter shape.isEnabled).getLast? := by
  induction n with
  | zero => rfl
  | succ n ih =>
      unfold PipelineShape.enabledBefore
      rw [List.range_succ, List.filter_append]
      cases henabled : shape.isEnabled n with
      | true => simp [henabled]
      | false => simp [henabled, ih]

omit [LinearOrder num] in
theorem enabledBefore_of_position {shape : PipelineShape num} {n position i : Nat}
    (h : ((List.range n).filter shape.isEnabled)[position + 1]? = some i) :
    shape.enabledBefore i = ((List.range n).filter shape.isEnabled)[position]? := by
  induction n with
  | zero => cases h
  | succ n ih =>
      rw [List.range_succ, List.filter_append] at h ⊢
      cases henabled : shape.isEnabled n with
      | false =>
          simp only [List.filter_cons, henabled, List.filter_nil, List.append_nil,
            Bool.false_eq_true, if_false] at h ⊢
          exact ih h
      | true =>
          simp only [List.filter_cons, henabled, List.filter_nil, if_true] at h ⊢
          by_cases hinside : position + 1 < ((List.range n).filter shape.isEnabled).length
          · rw [List.getElem?_append_left hinside] at h
            rw [List.getElem?_append_left (Nat.lt_of_succ_lt hinside)]
            exact ih h
          · have hbound := (List.getElem?_eq_some_iff.mp h).1
            rw [List.length_append, List.length_singleton] at hbound
            have hlast : position + 1 = ((List.range n).filter shape.isEnabled).length := by
              omega
            rw [hlast, List.getElem?_concat_length] at h
            cases h
            rw [enabledBefore_eq_getLast, List.getLast?_eq_getElem?, ← hlast,
              List.getElem?_append_left (by omega)]
            rfl

omit [LinearOrder num] in
/-- The step of a run at a position, in the pipeline it was built from. -/
theorem stepSpecs_eq_some {shape : PipelineShape num} {position : Nat} {spec : StepSpec num}
    (h : (stepSpecs shape)[position]? = some spec) :
    exists i, (enabledIndexes shape)[position]? = some i ∧ spec = specAt shape i ∧
      shape.isEnabled i = true ∧ shape.agentKinds[i]? = some spec.agentKind := by
  unfold stepSpecs at h
  rw [List.getElem?_map] at h
  cases hi : (enabledIndexes shape)[position]? with
  | none =>
      rw [hi] at h
      cases h
  | some i =>
      rw [hi] at h
      cases h
      have hmem := List.mem_filter.mp (List.mem_of_getElem? hi)
      refine ⟨i, rfl, rfl, hmem.2, ?_⟩
      have hlength := List.mem_range.mp hmem.1
      unfold specAt
      rw [List.getElem?_eq_getElem hlength]
      rfl

omit [LinearOrder num] in
theorem gateOn_of_requiresApproval {shape : PipelineShape num} {i : Nat}
    (h : (specAt shape i).requiresApproval = true) : shape.gateOn i = true := by
  unfold specAt at h
  unfold PipelineShape.gateOn
  cases hgate : entry shape.gates i with
  | none =>
      rw [hgate] at h
      cases h
  | some gate =>
      rw [hgate] at h
      have hon : gate = true := h
      simp [hon]

/-- A step that the save-time rules hold unskippable skips on its pull request only. -/
theorem reads_of_ownSkip {shape : PipelineShape num} {i : Nat}
    (hstep : stepMaySkip shape i = false) (hown : OwnSkip registry (specAt shape i)) :
    readsRequiredPullRequest (specAt shape i).agentKind registry = true := by
  unfold stepMaySkip at hstep
  rw [Bool.or_eq_false_iff] at hstep
  rcases hown with ⟨gating, hgating, henabled, _⟩ | hcondition | hreads
  · have hat : shape.gatingAt i = some gating := hgating
    rw [hat, Option.any_some, henabled] at hstep
    cases hstep.1
  · have hat : (shape.conditionAt i).isSome = true := Option.isSome_iff_ne_none.mpr hcondition
    rw [hat] at hstep
    cases hstep.2
  · exact hreads

/-!
## Checkpoints out of reach of a skip
-/

/-- A checkpoint on a step that reads no required pull request, and if it is on a
companion, neither does its producer, which is no companion of a step that may
be skipped. -/
def CheckpointReachable (registry : AgentKindRegistry) (specs : List (StepSpec num))
    (position : Nat) : Prop :=
  forall spec, specs[position]? = some spec -> spec.requiresApproval = true ->
    readsRequiredPullRequest spec.agentKind registry = false ∧
      (isCompanionKind spec.agentKind (some registry) = true ->
        forall before producer, position = before + 1 -> specs[before]? = some producer ->
          readsRequiredPullRequest producer.agentKind registry = false ∧
            (isCompanionKind producer.agentKind (some registry) = true ->
              forall first, before = first + 1 -> Not (MaySkip registry specs first)))

theorem checkpointReachable_of_not_maySkip {specs : List (StepSpec num)} {position : Nat}
    (h : Not (MaySkip registry specs position)) :
    CheckpointReachable registry specs position := by
  intro spec hspec _
  constructor
  · by_contra hreads
    rw [Bool.not_eq_false] at hreads
    exact h (MaySkip.own hspec (Or.inr (Or.inr hreads)))
  · intro hcompanion before producer hposition hproducer
    rw [hposition] at hspec h
    constructor
    · by_contra hreads
      rw [Bool.not_eq_false] at hreads
      exact h (MaySkip.cascade hspec hcompanion
        (MaySkip.own hproducer (Or.inr (Or.inr hreads))))
    · intro hchained first hbefore hfirst
      rw [hbefore] at hproducer hspec h
      exact h (MaySkip.cascade hspec hcompanion
        (MaySkip.cascade hproducer hchained hfirst))

theorem not_maySkip_of_reachable {ops : Forms.NumberOps num} {shape : PipelineShape num}
    (hregistry : shape.agentKindRegistry = some registry)
    (haccepted : validatePipelineShape ops shape = Except.ok ()) {position : Nat}
    {spec : StepSpec num} (hspec : (stepSpecs shape)[position]? = some spec)
    (happroval : spec.requiresApproval = true)
    (hreachable : CheckpointReachable registry (stepSpecs shape) position) :
    Not (MaySkip registry (stepSpecs shape) position) := by
  rcases stepSpecs_eq_some hspec with ⟨i, hi, hat, henabled, hkind⟩
  have hstep := acceptedStep_of_validate haccepted hkind henabled
  have hgate : shape.gateOn i = true := by
    apply gateOn_of_requiresApproval
    rw [← hat]
    exact happroval
  have hreads := hreachable spec hspec happroval
  intro hskip
  cases hskip with
  | own hsame hown =>
      rw [hspec] at hsame
      cases hsame
      rw [hat] at hown hreads
      have hread := reads_of_ownSkip (hstep.ungated hgate) hown
      rw [hread] at hreads
      cases hreads.1
  | cascade hsame hcompanion hproducer =>
      rename_i before companion
      rw [hspec] at hsame
      cases hsame
      have hcompanion' := hcompanion
      rw [← hregistry] at hcompanion'
      cases hproducer with
      | own hbefore hown =>
          rename_i producer
          rcases stepSpecs_eq_some hbefore with ⟨j, hj, hatProducer, _, _⟩
          have hadjacent : shape.enabledBefore i = some j := by
            rw [enabledBefore_of_position hi]
            exact hj
          have hunskipped := hstep.producer hgate hcompanion' j hadjacent
          have hsafe := (hreads.2 hcompanion before producer rfl hbefore).1
          rw [hatProducer] at hown hsafe
          rw [reads_of_ownSkip hunskipped hown] at hsafe
          cases hsafe
      | cascade hbefore hchained hfirst =>
          rename_i first producer
          exact (hreads.2 hcompanion (first + 1) producer rfl hbefore).2 hchained first rfl hfirst

end Pipelines
end CatFactory
