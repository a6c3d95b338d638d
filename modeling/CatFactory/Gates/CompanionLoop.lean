import CatFactory.Foundation.Runs
import CatFactory.Gates.CompanionGrading
import CatFactory.Gates.DecisionEffects

/-!
# The rework loop of a companion

A companion grades its producer, sends it back, and stops at its cap; people
grant rounds, send the work back themselves, or let it through.
-/

namespace CatFactory
namespace Gates

open Execution (AgentState ExecutionStatus StepApprovalStatus ReworkRequester)
open Foundation Reviews

/-!
## The loop as a system
-/

/-- A run with a companion that has graded nothing yet and has a producer before
it. -/
structure CompanionPair (registry : Registry) (c : Nat) where
  run : Run
  step : Step
  step_at : run.steps[c]? = some step
  registered : registry.isCompanionKind step.agentKind = true
  producer : Nat
  producer_at : companionProducerIndex registry run c = some producer
  unspent : forall companion, step.companion = some companion -> companion.attempts = 0

/-- The run and the extra rounds that people granted. -/
structure LoopRun where
  run : Run
  granted : Nat := 0
deriving DecidableEq

inductive LoopAction where
  /-- The step under the cursor, not the companion, completes; `rework` is what is
  left of the request it answered. -/
  | work (now : Nat) (output : String) (rework : Option Rework)
  /-- The step under the cursor, not the companion, sends its own producer back, or
  has the steps from one before it on run again. -/
  | loopBack (now target : Nat) (rework : Option Rework)
  | grade (now : Nat) (approvalId : String) (resolvesOwnCaps : Bool) (grading : Grading)
  | answer (now : Nat) (choice : IterationCapChoice)
  | requestChanges (now : Nat) (review : StepReview) (actor : GateActor)
  | approve (now : Nat) (proposal : Option String) (actor : GateActor)
deriving DecidableEq

/-- The approval on the companion's step, when its id leads back to that step. -/
def companionGate (c : Nat) (run : Run) : Option String :=
  (run.steps[c]?.bind fun step => step.approval.map StepApproval.id).filter fun id =>
    (gateOf run id).map Prod.fst = some c

def completeStep (now : Nat) (output : String) (rework : Option Rework) (step : Step) :
    Step :=
  { finishStep now step with
    progress := 1
    output := some output
    rework := rework }

/-- The companion's step is at work under the cursor. -/
def isGrading (c : Nat) (run : Run) : Bool :=
  run.status = ExecutionStatus.running && run.currentStep = c &&
    run.steps[c]?.any fun step => step.state = AgentState.working

def loopAct (registry : Registry) (defaultThreshold : Rat) (c : Nat) (s : LoopRun) :
    LoopAction -> Option LoopRun
  | .work now output rework =>
      if s.run.status = ExecutionStatus.running ∧ s.run.currentStep ≠ c ∧
          s.run.currentStep < s.run.steps.length then
        some
          { s with
            run := settleStepAndAdvance now
              { s.run with
                steps := s.run.steps.modify s.run.currentStep
                  (completeStep now output rework) } }
      else none
  | .loopBack now target rework =>
      if s.run.status = ExecutionStatus.running ∧ s.run.currentStep ≠ c ∧
          target < s.run.currentStep ∧ s.run.currentStep < s.run.steps.length then
        some
          { s with
            run := match rework with
              | some rework => rerunProducerThrough now target s.run.currentStep rework s.run
              | none => rerunRange now target s.run.currentStep s.run }
      else none
  | .grade now approvalId resolvesOwnCaps grading =>
      if isGrading c s.run then
        (applyAssessment registry defaultThreshold now approvalId resolvesOwnCaps grading
          s.run).map fun graded => { s with run := graded.1 }
      else none
  | .answer now choice =>
      (companionGate c s.run).bind fun id =>
        (resolveCompanionExceeded registry now id choice s.run).toOption.map fun run =>
          { run := run
            granted := if choice = .extraRound ∧ run ≠ s.run then s.granted + 1 else s.granted }
  | .requestChanges now review actor =>
      (companionGate c s.run).bind fun id =>
        (requestStepChanges registry now id review actor s.run).toOption.map fun run =>
          { s with run := run }
  | .approve now proposal actor =>
      (companionGate c s.run).bind fun id =>
        (approveStep registry now s.run.id id proposal actor s.run).toOption.map fun run =>
          { s with run := run }

/-- The companion at `c`, as it is seeded where the step has none. -/
def companionAt (defaultThreshold : Rat) (c : Nat) (run : Run) : Option Companion :=
  run.steps[c]?.map (seededCompanion defaultThreshold)

/-!
## What a step of the loop keeps
-/

def kinds (run : Run) : List String :=
  run.steps.map Step.agentKind

theorem map_modify_same {item value : Type} {view : item -> value}
    {change : item -> item} (h : forall x, view (change x) = view x) (xs : List item)
    (i : Nat) : (xs.modify i change).map view = xs.map view := by
  apply List.ext_getElem?
  intro j
  simp only [List.getElem?_map, List.getElem?_modify]
  cases xs[j]? with
  | none => rfl
  | some x =>
      by_cases hij : i = j
      · simp [hij, h]
      · simp [hij]

theorem map_set_same {item value : Type} {view : item -> value} {xs : List item} {i : Nat}
    {x y : item} (hx : xs[i]? = some x) (h : view y = view x) :
    (xs.set i y).map view = xs.map view := by
  rcases List.getElem?_eq_some_iff.mp hx with ⟨hlt, hget⟩
  have hlt' : i < (xs.map view).length := by simpa using hlt
  have hsame : view y = (xs.map view)[i] := by
    rw [h, <- hget, List.getElem_map]
  rw [List.map_set, hsame, List.set_getElem_self hlt']

theorem nearestStepIndexBefore_congr {q : String -> Bool} {steps steps' : List Step}
    (h : steps'.map Step.agentKind = steps.map Step.agentKind) (i : Nat) :
    nearestStepIndexBefore (fun s => q s.agentKind) steps' i =
      nearestStepIndexBefore (fun s => q s.agentKind) steps i := by
  have hany (j : Nat) : (steps'[j]?.any fun s => q s.agentKind) =
      (steps[j]?.any fun s => q s.agentKind) := by
    have hj := congrArg (fun l => l[j]?.any q) h
    simpa [List.getElem?_map, Option.any_map] using hj
  induction i with
  | zero => rfl
  | succ i ih => simp only [nearestStepIndexBefore, hany, ih]

theorem companionProducerIndex_congr {registry : Registry} {run run' : Run}
    (h : kinds run' = kinds run) (c : Nat) :
    companionProducerIndex registry run' c = companionProducerIndex registry run c := by
  have hkind : run'.steps[c]?.map Step.agentKind = run.steps[c]?.map Step.agentKind := by
    have hc := congrArg (fun l => l[c]?) h
    simpa [kinds] using hc
  unfold companionProducerIndex
  cases hstep : run.steps[c]? with
  | none =>
      have hnone : run'.steps[c]? = none := by simpa [hstep] using hkind
      rw [hnone]
  | some step =>
      rcases Option.map_eq_some_iff.mp (hkind.trans (by rw [hstep]; rfl)) with
        ⟨step', hstep', hsame⟩
      simp only [hstep', hsame]
      exact @nearestStepIndexBefore_congr
        (fun kind => (registry.companionTargets step.agentKind).contains kind) _ _ h c

theorem kinds_resetRange (p c : Nat) (steps : List Step) :
    (resetRange p c steps).map Step.agentKind = steps.map Step.agentKind := by
  apply List.ext_getElem?
  intro j
  simp only [resetRange, List.getElem?_map, List.getElem?_mapIdx]
  cases steps[j]? with
  | none => rfl
  | some step =>
      simp only [Option.map_some]
      split
      · rfl
      · rfl

theorem kinds_rerun (now p c : Nat) (rework : Rework) (run : Run) :
    kinds (rerunProducerThrough now p c rework run) = kinds run := by
  refine (map_modify_same ?_ _ _).trans ?_
  · intro step
    exact startStep_agentKind now _
  · refine (map_modify_same ?_ _ _).trans (kinds_resetRange p c run.steps)
    intro step
    rfl

theorem kinds_rerunRange (now p c : Nat) (run : Run) :
    kinds (rerunRange now p c run) = kinds run :=
  (map_modify_same (fun step => startStep_agentKind now step) _ _).trans
    (kinds_resetRange p c run.steps)

theorem kinds_advance (now i : Nat) (run : Run) :
    kinds (advanceRunPastGate now i run) = kinds run := by
  have hfinish : (run.steps.modify i fun step =>
      { finishStep now step with progress := 1 }).map Step.agentKind = kinds run := by
    refine map_modify_same ?_ _ _
    intro step
    rfl
  unfold advanceRunPastGate
  split
  · exact hfinish
  · exact (map_modify_same (fun step => startStep_agentKind now step) _ _).trans hfinish

/-- Past the loop-back, the companion's flags are clear. -/
theorem rerun_at {now p c : Nat} {rework : Rework} {run : Run} (hlt : p < c) :
    (rerunProducerThrough now p c rework run).steps[c]? =
      run.steps[c]?.map fun step => rearmCompanion (resetStepForRerun step) := by
  have hne : p ≠ c := Nat.ne_of_lt hlt
  simp only [rerunProducerThrough, resetRange, List.getElem?_modify, List.getElem?_mapIdx]
  cases run.steps[c]? with
  | none => rfl
  | some step => simp [hne, Nat.le_of_lt hlt]

section Loop

variable {defaultThreshold : Rat} {c : Nat}

theorem companionAt_of_steps {run run' : Run} {f : Step -> Step}
    (hsteps : run'.steps[c]? = run.steps[c]?.map f)
    (hsame : forall step, (f step).companion = step.companion) :
    companionAt defaultThreshold c run' = companionAt defaultThreshold c run := by
  unfold companionAt
  rw [hsteps, Option.map_map]
  congr 1
  funext step
  simp [seededCompanion, hsame]

theorem companionAt_modify {run run' : Run} {i : Nat} {change : Step -> Step}
    (hsteps : run'.steps = run.steps.modify i change)
    (hsame : forall step, (change step).companion = step.companion) :
    companionAt defaultThreshold c run' = companionAt defaultThreshold c run := by
  have hget : run'.steps[c]? =
      run.steps[c]?.map fun step => if i = c then change step else step := by
    rw [hsteps, List.getElem?_modify]
    rfl
  apply companionAt_of_steps hget
  intro step
  split
  · exact hsame step
  · rfl

theorem companionAt_advance (now i : Nat) (run : Run) :
    companionAt defaultThreshold c (advanceRunPastGate now i run) =
      companionAt defaultThreshold c run := by
  have hfinish (status : ExecutionStatus) :
      companionAt defaultThreshold c
        { run with
          steps := run.steps.modify i fun step => { finishStep now step with progress := 1 }
          status := status } = companionAt defaultThreshold c run :=
    @companionAt_modify _ _ run _ _ _ rfl (fun _ => rfl)
  unfold advanceRunPastGate
  split
  · exact hfinish _
  · rw [<- hfinish run.status]
    exact companionAt_modify rfl (fun step => startStep_companion now step)

theorem companionAt_settle (now : Nat) (run : Run) :
    companionAt defaultThreshold c (settleStepAndAdvance now run) =
      companionAt defaultThreshold c run := by
  unfold settleStepAndAdvance
  split
  · rfl
  · exact companionAt_modify rfl (fun step => startStep_companion now step)

theorem kinds_settle (now : Nat) (run : Run) :
    kinds (settleStepAndAdvance now run) = kinds run := by
  unfold kinds settleStepAndAdvance
  split
  · rfl
  · exact map_modify_same (fun step => startStep_agentKind now step) _ _

/-- One round is charged, and the flags are clear. -/
theorem loopCompanionProducer_spec {registry : Registry} {now p : Nat} {rework : Rework}
    {run run' : Run} (hproducer : companionProducerIndex registry run c = some p)
    (h : loopCompanionProducer registry now c rework run = some run') :
    kinds run' = kinds run ∧ run'.currentStep = p ∧ run'.status = unblock run.status ∧
      exists companion, companionAt defaultThreshold c run = some companion ∧
        companionAt defaultThreshold c run' = some
          { companion with
            attempts := companion.attempts + 1
            exceeded := false
            stalled := false
            capSettledByPolicy := false } := by
  have hlt := companionProducerIndex_lt hproducer
  unfold loopCompanionProducer at h
  cases hstep : run.steps[c]? with
  | none => simp [hstep] at h
  | some step =>
      cases hcompanion : step.companion with
      | none => simp [hstep, hcompanion] at h
      | some companion =>
          simp only [hstep, Option.bind_some, hcompanion, hproducer, Option.some.injEq] at h
          subst h
          refine ⟨?_, rfl, rfl, companion, ?_, ?_⟩
          · refine (kinds_rerun now p c rework _).trans (map_modify_same ?_ _ _)
            intro step
            rfl
          · simp [companionAt, hstep, seededCompanion, hcompanion]
          · have hget := @rerun_at now p c rework
              { run with steps := run.steps.modify c chargeAttempt } hlt
            unfold companionAt
            simp only [hget]
            simp [hstep, seededCompanion, rearmCompanion, resetStepForRerun, chargeAttempt,
              hcompanion]

end Loop

/-!
## What a verdict leads to
-/

theorem companionParkReasonFor_eq (comments : List StepReviewComment) :
    companionParkReasonFor comments = CompanionParkReason.blockingFindings <->
      hasBlockingReviewComments comments = true := by
  unfold companionParkReasonFor
  split
  · rename_i h
    simp [h]
  · rename_i h
    simp [h]

theorem dispose_pass {input : CompanionDispositionInput} (hproducer : input.hasProducer = true)
    (h : disposeCompanionVerdict input = .pass) :
    hasBlockingReviewComments input.comments = false ∧ input.threshold ≤ input.rating := by
  simp only [disposeCompanionVerdict, hproducer, Bool.not_true, Bool.false_eq_true,
    if_false] at h
  split at h
  · split at h <;> cases h
  · rename_i hblocking
    split at h
    · cases h
    · split at h
      · rename_i hrating
        exact ⟨by simpa using hblocking, hrating⟩
      · split at h <;> cases h

theorem dispose_rework {input : CompanionDispositionInput}
    (h : disposeCompanionVerdict input = .rework) : input.attempts < input.maxAttempts := by
  simp only [disposeCompanionVerdict] at h
  split at h
  · cases h
  · split at h
    · split at h
      · rename_i hbudget
        simpa using hbudget
      · cases h
    · split at h
      · rename_i hfirst
        simpa using hfirst.2.1
      · split at h
        · cases h
        · split at h
          · rename_i hbudget
            simpa using hbudget
          · cases h

theorem dispose_park {input : CompanionDispositionInput} {reason : CompanionParkReason}
    (h : disposeCompanionVerdict input = .park reason) :
    reason = companionParkReasonFor input.comments := by
  simp only [disposeCompanionVerdict] at h
  split at h
  · cases h
  · split at h
    · split at h
      · cases h
      · cases h
        rfl
    · split at h
      · cases h
      · split at h
        · cases h
        · split at h
          · cases h
          · cases h
            rfl

theorem parkForUnproductiveLoop_spec {registry : Registry} {producer : Option Step}
    {verdicts : List CompanionVerdict} {input : CompanionDispositionInput}
    {decision : CompanionDisposition} {reason : CompanionParkReason}
    (h : parkForUnproductiveLoop registry producer verdicts input decision = some reason) :
    reason = companionParkReasonFor input.comments := by
  unfold parkForUnproductiveLoop at h
  split at h
  · split at h
    · cases h
      rfl
    · cases h
  · cases h

/-- The companion on a step, by its budget and its cap flag. -/
def BudgetOn (attempts maxAttempts : Nat) (exceeded : Bool) (step : Step) : Prop :=
  exists companion, step.companion = some companion ∧ companion.attempts = attempts ∧
    companion.maxAttempts = maxAttempts ∧ companion.exceeded = exceeded

theorem BudgetOn.set {attempts maxAttempts : Nat} {exceeded : Bool} {step : Step}
    {change : Companion -> Companion} {b : Bool}
    (h : BudgetOn attempts maxAttempts exceeded step)
    (hattempts : forall x, (change x).attempts = x.attempts)
    (hmax : forall x, (change x).maxAttempts = x.maxAttempts)
    (hexceeded : forall x, x.exceeded = exceeded -> (change x).exceeded = b) :
    BudgetOn attempts maxAttempts b (setCompanion change step) := by
  rcases h with ⟨companion, hhas, ha, hm, he⟩
  refine ⟨change companion, ?_, ?_, ?_, hexceeded companion he⟩
  · simp [setCompanion, hhas]
  · rw [hattempts, ha]
  · rw [hmax, hm]

/-- The ways a grading ends, for a companion with a producer. -/
inductive Graded (registry : Registry) (now : Nat) (resolvesOwnCaps : Bool)
    (grading : Grading) (companion : Companion) (old : Step) (run run' : Run) :
    GradeExit -> Prop where
  | unparseable {step : Step} (kind : step.agentKind = old.agentKind)
      (same : step.companion = some companion)
      (failed : run' = failRun { run with steps := run.steps.set run.currentStep step }) :
      Graded registry now resolvesOwnCaps grading companion old run run' .unparseable
  | passed {assessment : CompanionAssessment} {approvalId : String}
      {producer : Option Step} {step : Step}
      (parsed : grading.assessment = some assessment)
      (clear : hasBlockingReviewComments assessment.comments = false)
      (bar : companion.threshold ≤ assessment.rating)
      (kind : step.agentKind = old.agentKind)
      (kept : BudgetOn companion.attempts companion.maxAttempts companion.exceeded step)
      (resolved : run' = resolvePassedCompanion now approvalId producer step run) :
      Graded registry now resolvesOwnCaps grading companion old run run' .passed
  | settledByPolicy {assessment : CompanionAssessment} {approvalId : String}
      {producer : Option Step} {step : Step}
      (parsed : grading.assessment = some assessment)
      (clear : hasBlockingReviewComments assessment.comments = false)
      (policy : resolvesOwnCaps = true)
      (kind : step.agentKind = old.agentKind)
      (kept : BudgetOn companion.attempts companion.maxAttempts companion.exceeded step)
      (resolved : run' = resolvePassedCompanion now approvalId producer step run) :
      Graded registry now resolvesOwnCaps grading companion old run run' .settledByPolicy
  | parked {assessment : CompanionAssessment} {reason : CompanionParkReason} {step : Step}
      (parsed : grading.assessment = some assessment)
      (why : reason = companionParkReasonFor assessment.comments)
      (attended : reason = .blockingFindings ∨ resolvesOwnCaps = false)
      (kind : step.agentKind = old.agentKind)
      (capped : BudgetOn companion.attempts companion.maxAttempts true step)
      (waits : stepAwaitsDecision step = true)
      (blocked : run' =
        { run with
          steps := run.steps.set run.currentStep step
          status := ExecutionStatus.blocked }) :
      Graded registry now resolvesOwnCaps grading companion old run run' (.parked reason)
  | reworked {rework : Rework} {step : Step}
      (budget : companion.attempts < companion.maxAttempts)
      (kind : step.agentKind = old.agentKind)
      (kept : BudgetOn companion.attempts companion.maxAttempts companion.exceeded step)
      (looped : loopCompanionProducer registry now run.currentStep rework
        { run with steps := run.steps.set run.currentStep step } = some run') :
      Graded registry now resolvesOwnCaps grading companion old run run' .reworked

theorem takeCapExit_graded {registry : Registry} {now : Nat} {approvalId : String}
    {resolvesOwnCaps : Bool} {grading : Grading} {companion : Companion}
    {old step : Step} {producer : Option Step} {run run' : Run} {exit : GradeExit}
    {assessment : CompanionAssessment} {reason : CompanionParkReason}
    (hparsed : grading.assessment = some assessment)
    (hreason : reason = companionParkReasonFor assessment.comments)
    (hkind : step.agentKind = old.agentKind)
    (hkept : BudgetOn companion.attempts companion.maxAttempts companion.exceeded step)
    (h : takeCapExit now approvalId resolvesOwnCaps reason producer step run = (run', exit)) :
    Graded registry now resolvesOwnCaps grading companion old run run' exit := by
  unfold takeCapExit at h
  split at h
  · rename_i hpolicy
    cases h
    have hclear : hasBlockingReviewComments assessment.comments = false := by
      cases hblocking : hasBlockingReviewComments assessment.comments with
      | false => rfl
      | true =>
          have hfindings := (companionParkReasonFor_eq assessment.comments).mpr hblocking
          rw [<- hreason, hpolicy.1] at hfindings
          cases hfindings
    refine Graded.settledByPolicy hparsed hclear hpolicy.2 ?_ ?_ rfl
    · exact hkind
    · exact hkept.set (fun _ => rfl) (fun _ => rfl) (fun _ he => he)
  · rename_i hpolicy
    cases h
    have hcapped : BudgetOn companion.attempts companion.maxAttempts true
        (setCompanion (fun c => { c with exceeded := true }) step) :=
      hkept.set (fun _ => rfl) (fun _ => rfl) (fun _ _ => rfl)
    refine Graded.parked hparsed hreason ?_ ?_ ?_ ?_ rfl
    · cases reason with
      | blockingFindings => exact Or.inl rfl
      | budgetSpent =>
          right
          simpa using hpolicy
    · exact hkind
    · exact hcapped
    · rfl

/-- What `applyAssessment` does, for a companion with a producer. -/
theorem applyAssessment_graded {registry : Registry} {defaultThreshold : Rat} {now p : Nat}
    {approvalId : String} {resolvesOwnCaps : Bool} {grading : Grading} {run run' : Run}
    {exit : GradeExit} {old : Step} (hold : run.steps[run.currentStep]? = some old)
    (hproducer : companionProducerIndex registry run run.currentStep = some p)
    (h : applyAssessment registry defaultThreshold now approvalId resolvesOwnCaps grading
      run = some (run', exit)) :
    Graded registry now resolvesOwnCaps grading (seededCompanion defaultThreshold old) old
      run run' exit := by
  simp only [applyAssessment, hold, hproducer, Option.isSome_some] at h
  cases hparsed : grading.assessment with
  | none =>
      simp only [hparsed, and_self, if_true, Option.some.injEq, Prod.mk.injEq] at h
      rcases h with ⟨rfl, rfl⟩
      refine Graded.unparseable ?_ ?_ rfl
      · rfl
      · rfl
  | some assessment =>
      simp only [hparsed, reduceCtorEq, and_false, if_false, dispositionInput, if_true,
        Option.map_some, Option.getD_some] at h
      have hkept (rating : Rat) (passed : Bool) :
          BudgetOn (seededCompanion defaultThreshold old).attempts
            (seededCompanion defaultThreshold old).maxAttempts
            (seededCompanion defaultThreshold old).exceeded
            (recordCompanionVerdict (some assessment) rating passed grading.output
              (seededCompanion defaultThreshold old) old) :=
        ⟨_, rfl, rfl, rfl, rfl⟩
      split at h
      · rename_i hdecision
        cases h
        have hpass := dispose_pass rfl hdecision
        refine Graded.passed hparsed hpass.1 hpass.2 ?_ ?_ rfl
        · rfl
        · exact hkept _ _
      · rename_i hdecision
        split at h
        · rename_i reason _ hstalled
          have hreason := parkForUnproductiveLoop_spec hstalled
          simp only [Option.some.injEq] at h
          refine takeCapExit_graded hparsed hreason ?_ ?_ h
          · rfl
          · exact (hkept _ _).set (fun _ => rfl) (fun _ => rfl) (fun _ he => he)
        · rename_i reason _ hpark
          simp only [Option.some.injEq] at h
          refine takeCapExit_graded hparsed (dispose_park hpark) ?_ ?_ h
          · rfl
          · exact hkept _ _
        · rename_i hnopark
          rcases Option.map_eq_some_iff.mp h with ⟨looped, hlooped, heq⟩
          cases heq
          have hrework : disposeCompanionVerdict
              { rating := assessment.rating
                threshold := (seededCompanion defaultThreshold old).threshold
                comments := assessment.comments
                attempts := (seededCompanion defaultThreshold old).attempts
                maxAttempts := (seededCompanion defaultThreshold old).maxAttempts
                hasProducer := true } = .rework := by
            cases hd : disposeCompanionVerdict _ with
            | pass => exact absurd hd hdecision
            | rework => rfl
            | park reason => exact absurd hd (hnopark reason)
          refine Graded.reworked (dispose_rework hrework) ?_ ?_ hlooped
          · rfl
          · exact hkept _ _

end Gates
end CatFactory
