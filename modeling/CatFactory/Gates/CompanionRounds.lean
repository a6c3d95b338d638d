import CatFactory.Gates.CompanionLoop
import CatFactory.Gates.ResolvedOnce

/-!
# The rounds of a companion

Every action of the loop charges one attempt, charges nothing, or lets the run
past.  The budget is what the loop started with and what people granted.
-/

namespace CatFactory
namespace Gates

open Execution (AgentState ExecutionStatus StepApprovalStatus ReworkRequester)
open Foundation Reviews

variable {actor : GateActor} {now p : Nat}

/-!
## What one action of the loop does
-/

/-- The run is past the companion. -/
def isPast (c : Nat) (run : Run) : Bool :=
  decide (c < run.currentStep) || decide (run.status = ExecutionStatus.done)

/-- The attempts the companion spent, and those it may spend. -/
def budgetAt (defaultThreshold : Rat) (c : Nat) (run : Run) : Option (Nat × Nat) :=
  (companionAt defaultThreshold c run).map fun companion =>
    (companion.attempts, companion.maxAttempts)

def exceededAt (defaultThreshold : Rat) (c : Nat) (run : Run) : Bool :=
  (companionAt defaultThreshold c run).any Companion.exceeded

/-- No flag says how the loop ended. -/
def FlagsClear (defaultThreshold : Rat) (c : Nat) (run : Run) : Prop :=
  exists companion, companionAt defaultThreshold c run = some companion ∧
    companion.exceeded = false ∧ companion.stalled = false ∧
    companion.capSettledByPolicy = false

/-- What takes the cursor back to the companion or before it leaves no flag. -/
def RearmsClear (defaultThreshold : Rat) (c : Nat) (s t : LoopRun) : Prop :=
  c ≤ s.run.currentStep -> t.run.currentStep ≤ c -> t.run.currentStep < s.run.currentStep ->
    FlagsClear defaultThreshold c t.run

/-- The loop-back of another step over the companion finds no flag on it. -/
def LoopsBackClear (defaultThreshold : Rat) (c : Nat) (s : LoopRun) : LoopAction -> Prop
  | .loopBack _ target _ =>
      target ≤ c -> c < s.run.currentStep -> FlagsClear defaultThreshold c s.run
  | _ => True

/-- Who may let the run past its companion: a verdict that clears the bar, the
policy, or a person. -/
inductive LetThrough (registry : Registry) (defaultThreshold : Rat) (c : Nat)
    (s t : LoopRun) : LoopAction -> Prop where
  | verdict {now : Nat} {approvalId : String} {resolvesOwnCaps : Bool} {grading : Grading}
      {assessment : CompanionAssessment} {companion : Companion}
      (graded : applyAssessment registry defaultThreshold now approvalId resolvesOwnCaps
        grading s.run = some (t.run, .passed))
      (parsed : grading.assessment = some assessment)
      (holds : companionAt defaultThreshold c s.run = some companion)
      (bar : companion.threshold ≤ assessment.rating)
      (clear : hasBlockingReviewComments assessment.comments = false) :
      LetThrough registry defaultThreshold c s t
        (.grade now approvalId resolvesOwnCaps grading)
  | policy {now : Nat} {approvalId : String} {grading : Grading}
      {assessment : CompanionAssessment}
      (graded : applyAssessment registry defaultThreshold now approvalId true grading
        s.run = some (t.run, .settledByPolicy))
      (parsed : grading.assessment = some assessment)
      (clear : hasBlockingReviewComments assessment.comments = false) :
      LetThrough registry defaultThreshold c s t (.grade now approvalId true grading)
  | proceed {now : Nat} :
      LetThrough registry defaultThreshold c s t (.answer now .proceed)
  | approve {now : Nat} {proposal : Option String} {actor : GateActor} :
      LetThrough registry defaultThreshold c s t (.approve now proposal actor)

/-- The companion waits for a person at its cap, and the reason is the open blocker
exactly when the round that was graded has one. -/
structure ParksFor (defaultThreshold : Rat) (c : Nat) (t : LoopRun) (grading : Grading)
    (reason : CompanionParkReason) : Prop where
  reason_iff : exists assessment, grading.assessment = some assessment ∧
    (reason = CompanionParkReason.blockingFindings <->
      hasBlockingReviewComments assessment.comments = true)
  exceeded : exceededAt defaultThreshold c t.run = true
  waits : exists step, t.run.steps[c]? = some step ∧ stepAwaitsDecision step = true

/-- The laws of one action. -/
structure LoopLaw (registry : Registry) (defaultThreshold : Rat) (c : Nat)
    (s t : LoopRun) (a : LoopAction) : Prop where
  charges : (budgetAt defaultThreshold c t.run).map Prod.fst =
      (budgetAt defaultThreshold c s.run).map Prod.fst ∨
    exists now rework base attempts,
      loopCompanionProducer registry now c rework base = some t.run ∧
      (budgetAt defaultThreshold c base).map Prod.fst = some attempts ∧
      (budgetAt defaultThreshold c s.run).map Prod.fst = some attempts ∧
      (budgetAt defaultThreshold c t.run).map Prod.fst = some (attempts + 1)
  passes : isPast c s.run = false -> isPast c t.run = true ->
    LetThrough registry defaultThreshold c s t a
  caps : exceededAt defaultThreshold c s.run = false ->
    exceededAt defaultThreshold c t.run = true ->
      exists now approvalId resolvesOwnCaps grading reason,
        a = .grade now approvalId resolvesOwnCaps grading ∧
        applyAssessment registry defaultThreshold now approvalId resolvesOwnCaps grading
          s.run = some (t.run, .parked reason)
  parks : forall now approvalId resolvesOwnCaps grading reason,
    a = .grade now approvalId resolvesOwnCaps grading ->
    applyAssessment registry defaultThreshold now approvalId resolvesOwnCaps grading
      s.run = some (t.run, .parked reason) ->
        ParksFor defaultThreshold c t grading reason
  rearms : RearmsClear defaultThreshold c s t <-> LoopsBackClear defaultThreshold c s a

/-- An action that charges nothing. -/
structure Settles (defaultThreshold : Rat) (c : Nat) (s t : LoopRun) : Prop where
  kinds_same : kinds t.run = kinds s.run
  budget_same : budgetAt defaultThreshold c t.run = budgetAt defaultThreshold c s.run
  granted_same : t.granted = s.granted

/-- An action that charges one attempt, granted or from the budget. -/
structure Charges (registry : Registry) (defaultThreshold : Rat) (c : Nat)
    (s t : LoopRun) : Prop where
  kinds_same : kinds t.run = kinds s.run
  looped : exists now rework base, loopCompanionProducer registry now c rework base =
    some t.run ∧ (budgetAt defaultThreshold c base).map Prod.fst =
      (budgetAt defaultThreshold c s.run).map Prod.fst
  charged : exists attempts maxAttempts extra,
    budgetAt defaultThreshold c s.run = some (attempts, maxAttempts) ∧
    budgetAt defaultThreshold c t.run = some (attempts + 1, maxAttempts + extra) ∧
    attempts + 1 ≤ maxAttempts + extra ∧ t.granted = s.granted + extra

/-- The ways one action of the loop ends. -/
inductive LoopStep (registry : Registry) (defaultThreshold : Rat) (c : Nat)
    (s t : LoopRun) : LoopAction -> Prop where
  | quiet {a : LoopAction} (settles : Settles defaultThreshold c s t)
      (capped : exceededAt defaultThreshold c t.run = exceededAt defaultThreshold c s.run)
      (stays : isPast c t.run = true -> isPast c s.run = true)
      (ahead : t.run.currentStep ≤ c -> s.run.currentStep ≤ t.run.currentStep) :
      LoopStep registry defaultThreshold c s t a
  | elsewhere {now target : Nat} {rework : Option Rework} (settles : Settles defaultThreshold c s t)
      (capped : exceededAt defaultThreshold c t.run = exceededAt defaultThreshold c s.run)
      (stays : isPast c t.run = true -> isPast c s.run = true) :
      LoopStep registry defaultThreshold c s t (.loopBack now target rework)
  | letThrough {a : LoopAction} (settles : Settles defaultThreshold c s t)
      (capped : exceededAt defaultThreshold c t.run = true ->
        exceededAt defaultThreshold c s.run = true)
      (ahead : t.run.currentStep ≤ c -> s.run.currentStep ≤ t.run.currentStep)
      (allowed : LetThrough registry defaultThreshold c s t a) :
      LoopStep registry defaultThreshold c s t a
  | parked {now : Nat} {approvalId : String} {resolvesOwnCaps : Bool} {grading : Grading}
      {reason : CompanionParkReason} (settles : Settles defaultThreshold c s t)
      (stays : isPast c t.run = true -> isPast c s.run = true)
      (ahead : t.run.currentStep ≤ c -> s.run.currentStep ≤ t.run.currentStep)
      (graded : applyAssessment registry defaultThreshold now approvalId resolvesOwnCaps
        grading s.run = some (t.run, .parked reason)) :
      LoopStep registry defaultThreshold c s t
        (.grade now approvalId resolvesOwnCaps grading)
  | charged {a : LoopAction} (charges : Charges registry defaultThreshold c s t)
      (clear : FlagsClear defaultThreshold c t.run)
      (stays : isPast c t.run = true -> isPast c s.run = true) :
      LoopStep registry defaultThreshold c s t a
  | sentBack {a : LoopAction} (settles : Settles defaultThreshold c s t)
      (clear : FlagsClear defaultThreshold c t.run)
      (stays : isPast c t.run = true -> isPast c s.run = true) :
      LoopStep registry defaultThreshold c s t a

/-!
## The actions, one by one
-/

section Actions

variable {registry : Registry} {defaultThreshold : Rat} {c : Nat}

theorem companionAt_set {run run' : Run} {old step x : Step}
    (hold : run.steps[c]? = some old) (hsteps : run'.steps = run.steps.set c x)
    (hsame : x.companion = step.companion) :
    companionAt defaultThreshold c run' = some (seededCompanion defaultThreshold step) := by
  rcases List.getElem?_eq_some_iff.mp hold with ⟨hlt, _⟩
  simp [companionAt, hsteps, hlt, seededCompanion, hsame]

/-- The companion of a rewritten step has the same budget. -/
def SameBudget (defaultThreshold : Rat) (exceeded : Bool) (old step : Step) : Prop :=
  (seededCompanion defaultThreshold step).attempts =
      (seededCompanion defaultThreshold old).attempts ∧
    (seededCompanion defaultThreshold step).maxAttempts =
      (seededCompanion defaultThreshold old).maxAttempts ∧
    (seededCompanion defaultThreshold step).exceeded = exceeded

theorem sameBudget_of_budgetOn {exceeded : Bool} {old step : Step}
    (h : BudgetOn (seededCompanion defaultThreshold old).attempts
      (seededCompanion defaultThreshold old).maxAttempts exceeded step) :
    SameBudget defaultThreshold exceeded old step := by
  rcases h with ⟨companion, hhas, ha, hm, he⟩
  simp [SameBudget, seededCompanion, hhas, ha, hm, he]

theorem resolvePassedCompanion_spec {now : Nat} {approvalId : String}
    {producer : Option Step} {old step : Step} {run : Run} (hcursor : run.currentStep = c)
    (hold : run.steps[c]? = some old) (hkind : step.agentKind = old.agentKind) :
    kinds (resolvePassedCompanion now approvalId producer step run) = kinds run ∧
      companionAt defaultThreshold c
        (resolvePassedCompanion now approvalId producer step run) =
          some (seededCompanion defaultThreshold step) ∧
      c ≤ (resolvePassedCompanion now approvalId producer step run).currentStep := by
  subst hcursor
  unfold resolvePassedCompanion
  simp only
  split
  · refine ⟨map_set_same hold hkind, ?_, Nat.le_refl _⟩
    exact companionAt_set hold rfl rfl
  · refine ⟨?_, ?_, ?_⟩
    · rw [kinds_settle]
      exact map_set_same hold hkind
    · rw [companionAt_settle]
      exact companionAt_set hold rfl rfl
    · unfold settleStepAndAdvance
      split
      · exact Nat.le_refl _
      · exact Nat.le_succ _

theorem isPast_of_same {run run' : Run} (hcursor : run'.currentStep ≤ run.currentStep)
    (hstatus : run'.status = ExecutionStatus.done -> run.status = ExecutionStatus.done)
    (h : isPast c run' = true) : isPast c run = true := by
  simp only [isPast, Bool.or_eq_true, decide_eq_true_eq] at h ⊢
  rcases h with h | h
  · exact Or.inl (Nat.lt_of_lt_of_le h hcursor)
  · exact Or.inr (hstatus h)

theorem unblock_done {status : ExecutionStatus} (h : unblock status = ExecutionStatus.done) :
    status = ExecutionStatus.done := by
  unfold unblock at h
  split at h
  · cases h
  · exact h

/-- A loop-back to the producer goes past nothing. -/
theorem isPast_back {run run' : Run} {p : Nat} (hlt : p < c) (hcursor : run'.currentStep = p)
    (hstatus : run'.status = unblock run.status) (h : isPast c run' = true) :
    isPast c run = true := by
  simp only [isPast, hcursor, hstatus, Bool.or_eq_true, decide_eq_true_eq] at h ⊢
  rcases h with h | h
  · omega
  · exact Or.inr (unblock_done h)

theorem failRun_status_done {run : Run} (h : (failRun run).status = ExecutionStatus.done) :
    run.status = ExecutionStatus.done := by
  unfold failRun at h
  split at h
  · exact h
  · cases h

theorem failRun_steps (run : Run) : (failRun run).steps = run.steps := by
  unfold failRun
  split <;> rfl

theorem failRun_currentStep (run : Run) : (failRun run).currentStep = run.currentStep := by
  unfold failRun
  split <;> rfl

/-- The view of the companion carries its budget and its cap flag. -/
theorem settles_of_companionAt {s t : LoopRun} (hkinds : kinds t.run = kinds s.run)
    (hsame : companionAt defaultThreshold c t.run = companionAt defaultThreshold c s.run)
    (hgranted : t.granted = s.granted) :
    Settles defaultThreshold c s t ∧
      exceededAt defaultThreshold c t.run = exceededAt defaultThreshold c s.run := by
  constructor
  · exact ⟨hkinds, by unfold budgetAt; rw [hsame], hgranted⟩
  · unfold exceededAt
    rw [hsame]

theorem settles_of_seeded {s t : LoopRun} {old step : Step} {exceeded : Bool}
    (hkinds : kinds t.run = kinds s.run)
    (hold : companionAt defaultThreshold c s.run = some (seededCompanion defaultThreshold old))
    (hkept : SameBudget defaultThreshold exceeded old step)
    (hstep : companionAt defaultThreshold c t.run =
      some (seededCompanion defaultThreshold step))
    (hgranted : t.granted = s.granted) :
    Settles defaultThreshold c s t ∧ exceededAt defaultThreshold c t.run = exceeded := by
  rcases hkept with ⟨ha, hm, he⟩
  constructor
  · refine ⟨hkinds, ?_, hgranted⟩
    simp [budgetAt, hstep, hold, ha, hm]
  · simp [exceededAt, hstep, he]

/-- A charge through the loop, on a base with the same attempts. -/
theorem charged_step {s t : LoopRun} {now p extra : Nat} {rework : Rework} {base : Run}
    {a : LoopAction} {companion : Companion}
    (hproducer : companionProducerIndex registry s.run c = some p)
    (hkinds : kinds base = kinds s.run)
    (hstatus : base.status = s.run.status)
    (hloop : loopCompanionProducer registry now c rework base = some t.run)
    (hcompanion : companionAt defaultThreshold c s.run = some companion)
    (hbase : budgetAt defaultThreshold c base =
      some (companion.attempts, companion.maxAttempts + extra))
    (hbound : companion.attempts + 1 ≤ companion.maxAttempts + extra)
    (hgranted : t.granted = s.granted + extra) :
    LoopStep registry defaultThreshold c s t a := by
  have hproducer' : companionProducerIndex registry base c = some p := by
    rw [companionProducerIndex_congr hkinds, hproducer]
  rcases @loopCompanionProducer_spec defaultThreshold _ _ _ _ _ _ _ hproducer' hloop with
    ⟨hkinds', hcursor, hstatus', old, hold, hnew⟩
  have hbudget : budgetAt defaultThreshold c s.run =
      some (companion.attempts, companion.maxAttempts) := by
    simp [budgetAt, hcompanion]
  simp only [budgetAt, hold, Option.map_some, Option.some.injEq, Prod.mk.injEq] at hbase
  refine LoopStep.charged ⟨hkinds'.trans hkinds, ⟨now, rework, base, hloop, ?_⟩,
    ⟨companion.attempts, companion.maxAttempts, extra, hbudget, ?_, hbound, hgranted⟩⟩
    ⟨_, hnew, rfl, rfl, rfl⟩ ?_
  · simp [budgetAt, hold, hcompanion, hbase.1]
  · simp [budgetAt, hnew, hbase.1, hbase.2]
  · exact isPast_back (companionProducerIndex_lt hproducer) hcursor
      (hstatus'.trans (congrArg unblock hstatus))

theorem work_step {s t : LoopRun} {now : Nat} {output : String} {rework : Option Rework}
    (hc : c < s.run.steps.length)
    (h : loopAct registry defaultThreshold c s (.work now output rework) = some t) :
    LoopStep registry defaultThreshold c s t (.work now output rework) := by
  simp only [loopAct] at h
  split at h
  · rename_i henabled
    cases h
    have hkinds : kinds (settleStepAndAdvance now
        { s.run with
          steps := s.run.steps.modify s.run.currentStep (completeStep now output rework) }) =
        kinds s.run := by
      rw [kinds_settle]
      refine map_modify_same ?_ _ _
      intro step
      rfl
    have hsame : companionAt defaultThreshold c (settleStepAndAdvance now
        { s.run with
          steps := s.run.steps.modify s.run.currentStep (completeStep now output rework) }) =
        companionAt defaultThreshold c s.run := by
      rw [companionAt_settle]
      exact companionAt_modify rfl (fun _ => rfl)
    have hsettles := @settles_of_companionAt _ _ s ⟨_, s.granted⟩ hkinds hsame rfl
    refine LoopStep.quiet hsettles.1 hsettles.2 ?_ ?_
    · intro hpast
      simp only [settleStepAndAdvance, List.length_modify] at hpast
      split at hpast
      · rename_i hlast
        simp only [isPast, Bool.or_eq_true, decide_eq_true_eq]
        left
        omega
      · simp only [isPast, Bool.or_eq_true, decide_eq_true_eq] at hpast ⊢
        rcases hpast with hpast | hpast
        · left
          omega
        · exact Or.inr hpast
    · intro _
      simp only [settleStepAndAdvance]
      split
      · exact Nat.le_refl _
      · exact Nat.le_succ _
  · cases h

theorem resetWithin_companion (p i c : Nat) (step : Step) :
    (if p ≤ c ∧ c ≤ i then resetStepForRerun step else step).companion = step.companion := by
  split
  · rfl
  · rfl

/-- A loop-back that another step graded leaves the companion as it is. -/
theorem companionAt_rerun {now p i : Nat} {rework : Rework} {run : Run} (hne : i ≠ c) :
    companionAt defaultThreshold c (rerunProducerThrough now p i rework run) =
      companionAt defaultThreshold c run := by
  have hget : (rerunProducerThrough now p i rework run).steps[c]? =
      run.steps[c]?.map fun step =>
        let reset := if p ≤ c ∧ c ≤ i then resetStepForRerun step else step
        if p = c then startStep now { reset with rework := some rework } else reset := by
    simp only [rerunProducerThrough, resetRange, List.getElem?_modify, List.getElem?_mapIdx]
    cases run.steps[c]? with
    | none => rfl
    | some step =>
        by_cases hp : p = c
        · simp [hne, hp]
        · simp [hne, hp]
  apply companionAt_of_steps hget
  intro step
  by_cases hp : p = c
  · simp only [if_pos hp, startStep_companion]
    exact resetWithin_companion p i c step
  · simp only [if_neg hp]
    exact resetWithin_companion p i c step

theorem companionAt_rerunRange {now p i : Nat} {run : Run} :
    companionAt defaultThreshold c (rerunRange now p i run) =
      companionAt defaultThreshold c run := by
  have hget : (resetRange p i run.steps)[c]? = run.steps[c]?.map fun step =>
      if p ≤ c ∧ c ≤ i then resetStepForRerun step else step := by
    simp only [resetRange, List.getElem?_mapIdx]
  rw [@companionAt_modify defaultThreshold c { run with steps := resetRange p i run.steps }
    _ _ _ rfl (fun step => startStep_companion now step)]
  exact companionAt_of_steps hget (resetWithin_companion p i c)

theorem loopBack_same {s t : LoopRun} {now target : Nat} {rework : Option Rework}
    (h : loopAct registry defaultThreshold c s (.loopBack now target rework) = some t) :
    (companionAt defaultThreshold c t.run = companionAt defaultThreshold c s.run ∧
      kinds t.run = kinds s.run ∧ t.granted = s.granted ∧ t.run.status = s.run.status) ∧
    s.run.currentStep ≠ c ∧ target < s.run.currentStep ∧ t.run.currentStep = target := by
  simp only [loopAct] at h
  split at h
  · rename_i henabled
    cases h
    rcases henabled with ⟨_, hne, hback, _⟩
    refine ⟨?_, hne, hback, ?_⟩
    · cases rework with
      | none => exact ⟨companionAt_rerunRange, kinds_rerunRange now target _ s.run, rfl, rfl⟩
      | some rework =>
          exact ⟨companionAt_rerun hne, kinds_rerun now target _ rework s.run, rfl, rfl⟩
    · cases rework with
      | none => rfl
      | some rework => rfl
  · cases h

theorem loopBack_step {s t : LoopRun} {now target : Nat} {rework : Option Rework}
    (h : loopAct registry defaultThreshold c s (.loopBack now target rework) = some t) :
    LoopStep registry defaultThreshold c s t (.loopBack now target rework) := by
  rcases loopBack_same h with ⟨⟨hsame, hkinds, hgranted, hstatus⟩, _, hback, hcursor⟩
  have hsettles := settles_of_companionAt hkinds hsame hgranted
  refine LoopStep.elsewhere hsettles.1 hsettles.2 (isPast_of_same ?_ ?_)
  · rw [hcursor]
    exact Nat.le_of_lt hback
  · rw [hstatus]
    exact id

theorem graded_step {s t : LoopRun} {approvalId : String} {resolvesOwnCaps : Bool}
    {grading : Grading} {exit : GradeExit} {old : Step}
    (hproducer : companionProducerIndex registry s.run c = some p)
    (hcursor : s.run.currentStep = c) (hold : s.run.steps[c]? = some old)
    (hgranted : t.granted = s.granted)
    (hgraded : applyAssessment registry defaultThreshold now approvalId resolvesOwnCaps
    grading s.run = some (t.run, exit)) :
    LoopStep registry defaultThreshold c s t
      (.grade now approvalId resolvesOwnCaps grading) := by
  have hview : companionAt defaultThreshold c s.run =
      some (seededCompanion defaultThreshold old) := by
    simp [companionAt, hold]
  have hset {step : Step} (hkind : step.agentKind = old.agentKind) :
      (s.run.steps.set c step).map Step.agentKind = kinds s.run :=
    map_set_same hold hkind
  subst hcursor
  cases applyAssessment_graded hold hproducer hgraded with
  | @unparseable step kind same failed =>
      have hkinds : kinds t.run = kinds s.run := by
        rw [kinds, failed, failRun_steps]
        exact hset kind
      have hsteps : t.run.steps = s.run.steps.set s.run.currentStep step := by
        rw [failed, failRun_steps]
      have hcur : t.run.currentStep = s.run.currentStep := by
        rw [failed, failRun_currentStep]
      have hdone : t.run.status = ExecutionStatus.done ->
          s.run.status = ExecutionStatus.done := by
        intro hstatus
        rw [failed] at hstatus
        have hbase := failRun_status_done hstatus
        exact hbase
      have hsettles := settles_of_seeded hkinds hview
        (sameBudget_of_budgetOn ⟨_, same, rfl, rfl, rfl⟩)
        (companionAt_set hold hsteps rfl) hgranted
      refine LoopStep.quiet hsettles.1 ?_ ?_ ?_
      · rw [hsettles.2]
        simp [exceededAt, hview]
      · exact isPast_of_same (Nat.le_of_eq hcur) hdone
      · intro _
        exact Nat.le_of_eq hcur.symm
  | passed parsed clear bar kind kept resolved =>
      rcases @resolvePassedCompanion_spec defaultThreshold _ now _ _ old _ s.run rfl hold kind
        with ⟨hkinds, hstep, hahead⟩
      rw [<- resolved] at hkinds hstep hahead
      have hsettles := settles_of_seeded hkinds hview (sameBudget_of_budgetOn kept) hstep
        hgranted
      refine LoopStep.letThrough hsettles.1 ?_ ?_ ?_
      · rw [hsettles.2]
        simp [exceededAt, hview]
      · intro _
        exact hahead
      · exact LetThrough.verdict hgraded parsed hview bar clear
  | settledByPolicy parsed clear policy kind kept resolved =>
      rcases @resolvePassedCompanion_spec defaultThreshold _ now _ _ old _ s.run rfl hold kind
        with ⟨hkinds, hstep, hahead⟩
      rw [<- resolved] at hkinds hstep hahead
      have hsettles := settles_of_seeded hkinds hview (sameBudget_of_budgetOn kept) hstep
        hgranted
      subst policy
      refine LoopStep.letThrough hsettles.1 ?_ ?_ ?_
      · rw [hsettles.2]
        simp [exceededAt, hview]
      · intro _
        exact hahead
      · exact LetThrough.policy hgraded parsed clear
  | @parked _ _ step parsed why attended kind capped waits blocked =>
      have hkinds : kinds t.run = kinds s.run := by
        rw [kinds, blocked]
        exact hset kind
      have hsteps : t.run.steps = s.run.steps.set s.run.currentStep step := by
        rw [blocked]
      have hcur : t.run.currentStep = s.run.currentStep := by
        rw [blocked]
      have hsettles := settles_of_seeded hkinds hview (sameBudget_of_budgetOn capped)
        (companionAt_set hold hsteps rfl) hgranted
      refine LoopStep.parked hsettles.1 ?_ ?_ hgraded
      · apply isPast_of_same (Nat.le_of_eq hcur)
        intro hdone
        rw [blocked] at hdone
        cases hdone
      · intro _
        exact Nat.le_of_eq hcur.symm
  | @reworked rework step budget kind kept looped =>
      have hkinds : kinds { s.run with steps := s.run.steps.set s.run.currentStep step } =
          kinds s.run := hset kind
      have hbase : companionAt defaultThreshold s.run.currentStep
          { s.run with steps := s.run.steps.set s.run.currentStep step } =
            some (seededCompanion defaultThreshold step) :=
        companionAt_set hold rfl rfl
      rcases sameBudget_of_budgetOn kept with ⟨ha, hm, _⟩
      refine @charged_step registry defaultThreshold _ s t now p 0 rework _ _ _ hproducer hkinds
        rfl looped hview ?_ budget hgranted
      simp [budgetAt, hbase, ha, hm]

theorem grade_step {s t : LoopRun} {approvalId : String} {resolvesOwnCaps : Bool}
    {grading : Grading} (hproducer : companionProducerIndex registry s.run c = some p)
    (h : loopAct registry defaultThreshold c s (.grade now approvalId resolvesOwnCaps grading)
    = some t) :
    LoopStep registry defaultThreshold c s t
      (.grade now approvalId resolvesOwnCaps grading) := by
  simp only [loopAct] at h
  split at h
  · rename_i henabled
    rcases Option.map_eq_some_iff.mp h with ⟨⟨run', exit⟩, hgraded, heq⟩
    cases heq
    simp only [isGrading, Bool.and_eq_true, decide_eq_true_eq] at henabled
    cases hold : s.run.steps[c]? with
    | none => simp [hold] at henabled
    | some old => exact graded_step hproducer henabled.1.2 hold rfl hgraded
  · cases h

/-- The gate of the companion leads to its step. -/
theorem companionGate_spec {run : Run} {id : String} (h : companionGate c run = some id) :
    exists step approval, gateOf run id = some (c, step, approval) := by
  unfold companionGate at h
  rcases Option.filter_eq_some_iff.mp h with ⟨_, hgate⟩
  simp only [decide_eq_true_eq] at hgate
  rcases Option.map_eq_some_iff.mp hgate with ⟨⟨i, step, approval⟩, hfound, hi⟩
  cases hi
  exact ⟨step, approval, hfound⟩

theorem except_toOption {error value : Type} {x : Except error value} {v : value}
    (h : x.toOption = some v) : x = .ok v := by
  cases x with
  | error e => cases h
  | ok w =>
      cases h
      rfl

/-- The gate opens: the step is rewritten and the run goes on behind it. -/
theorem pastGate_step {s t : LoopRun} {now : Nat} {old step : Step} {a : LoopAction}
    {exceeded : Bool} (hold : s.run.steps[c]? = some old)
    (hkind : step.agentKind = old.agentKind)
    (hkept : SameBudget defaultThreshold exceeded old step)
    (hcapped : exceeded = true -> exceededAt defaultThreshold c s.run = true)
    (hgranted : t.granted = s.granted)
    (hadvanced : t.run =
      advanceRunPastGate now c { s.run with steps := s.run.steps.set c step })
    (hallowed : LetThrough registry defaultThreshold c s t a) :
    LoopStep registry defaultThreshold c s t a := by
  have hview : companionAt defaultThreshold c s.run =
      some (seededCompanion defaultThreshold old) := by
    simp [companionAt, hold]
  have hkinds : kinds t.run = kinds s.run := by
    rw [hadvanced, kinds_advance]
    exact map_set_same hold hkind
  have hstep : companionAt defaultThreshold c t.run =
      some (seededCompanion defaultThreshold step) := by
    rw [hadvanced, companionAt_advance]
    exact companionAt_set hold rfl rfl
  have hsettles := settles_of_seeded hkinds hview hkept hstep hgranted
  refine LoopStep.letThrough hsettles.1 ?_ ?_ hallowed
  · rw [hsettles.2]
    exact hcapped
  · intro hlt
    rw [hadvanced] at hlt
    unfold advanceRunPastGate at hlt
    rw [hadvanced]
    unfold advanceRunPastGate
    split at hlt
    · rename_i hlast
      rw [if_pos hlast]
    · simp only at hlt
      omega

/-- What an accepted answer at the cap does. -/
theorem resolveCompanionExceeded_cases {now i : Nat} {id : String}
    {choice : IterationCapChoice} {run run' : Run} {step : Step} {approval : StepApproval}
    (hfound : gateOf run id = some (i, step, approval))
    (h : resolveCompanionExceeded registry now id choice run = .ok run') :
    exists companion, step.companion = some companion ∧ companion.exceeded = true ∧
      (run' = run ∨
        (choice = .extraRound ∧ exists rework, loopCompanionProducer registry now i rework
          { run with steps := run.steps.modify i grantRound } = some run') ∨
        (choice = .proceed ∧ run' = advanceRunPastGate now i
          { run with
            steps := run.steps.set i
              { step with
                companion := some { companion with exceeded := false }
                approval := some
                  { approval with status := StepApprovalStatus.approved } } })) := by
  simp only [resolveCompanionExceeded, hfound] at h
  cases hcompanion : step.companion with
  | none => simp [hcompanion] at h
  | some companion =>
      simp only [hcompanion] at h
      split at h
      · cases h
      · rename_i hexceeded
        refine ⟨companion, rfl, by simpa using hexceeded, ?_⟩
        split at h
        · cases h
          exact Or.inl rfl
        · right
          cases choice with
          | extraRound =>
              left
              simp only at h
              split at h
              · cases h
              · rename_i hloop
                cases h
                exact ⟨rfl, _, hloop⟩
          | proceed =>
              right
              cases h
              exact ⟨rfl, rfl⟩

/-- An action that changes nothing. -/
theorem same_step {s t : LoopRun} {a : LoopAction} (hrun : t.run = s.run)
    (hgranted : t.granted = s.granted) : LoopStep registry defaultThreshold c s t a := by
  have hsettles := @settles_of_companionAt defaultThreshold c s t (by rw [hrun])
    (by rw [hrun]) hgranted
  refine LoopStep.quiet hsettles.1 hsettles.2 ?_ ?_
  · intro hpast
    rw [<- hrun]
    exact hpast
  · intro _
    rw [hrun]

theorem answer_step {s t : LoopRun} {choice : IterationCapChoice}
    (hproducer : companionProducerIndex registry s.run c = some p)
    (hbudget : forall companion, companionAt defaultThreshold c s.run = some companion ->
    companion.attempts ≤ companion.maxAttempts)
    (h : loopAct registry defaultThreshold c s (.answer now choice) = some t) :
    LoopStep registry defaultThreshold c s t (.answer now choice) := by
  simp only [loopAct] at h
  rcases Option.bind_eq_some_iff.mp h with ⟨id, hgate, hanswer⟩
  rcases Option.map_eq_some_iff.mp hanswer with ⟨run', hok, ht⟩
  rcases companionGate_spec hgate with ⟨step, approval, hfound⟩
  have hstep := (gateOf_spec hfound).1
  rcases resolveCompanionExceeded_cases hfound (except_toOption hok) with
    ⟨companion, hcompanion, hexceeded, hresolved⟩
  have hview : companionAt defaultThreshold c s.run = some companion := by
    simp [companionAt, hstep, seededCompanion, hcompanion]
  have hrun : t.run = run' := by
    rw [<- ht]
  rcases hresolved with hsame | ⟨hchoice, rework, hloop⟩ | ⟨hchoice, hadvanced⟩
  · refine same_step (hrun.trans hsame) ?_
    rw [<- ht, if_neg (fun hgrant => hgrant.2 hsame)]
  · have hkinds : kinds { s.run with steps := s.run.steps.modify c grantRound } =
        kinds s.run := by
      refine map_modify_same ?_ _ _
      intro step
      rfl
    have hbase : companionAt defaultThreshold c
        { s.run with steps := s.run.steps.modify c grantRound } =
          some { companion with maxAttempts := companion.maxAttempts + 1 } := by
      simp [companionAt, hstep, seededCompanion, grantRound, hcompanion]
    have hproducer' : companionProducerIndex registry
        { s.run with steps := s.run.steps.modify c grantRound } c = some p := by
      rw [companionProducerIndex_congr hkinds, hproducer]
    have hchanged : run' ≠ s.run := by
      intro hsame
      rcases @loopCompanionProducer_spec defaultThreshold _ _ _ _ _ _ _ hproducer' hloop with
        ⟨_, _, _, old, hold, hnew⟩
      rw [hsame, hview] at hnew
      rw [hbase] at hold
      cases hold
      have hattempts := congrArg Companion.attempts (Option.some.inj hnew)
      exact absurd hattempts (Nat.ne_of_lt (Nat.lt_succ_self companion.attempts))
    have hgranted : t.granted = s.granted + 1 := by
      rw [<- ht, if_pos ⟨hchoice, hchanged⟩]
    rw [<- hrun] at hloop
    refine @charged_step registry defaultThreshold c s t now p 1 rework _ _ _ hproducer hkinds
      rfl hloop hview ?_ ?_ hgranted
    · simp [budgetAt, hbase]
    · exact Nat.succ_le_succ (hbudget companion hview)
  · have hkept : SameBudget defaultThreshold false step
        { step with
          companion := some { companion with exceeded := false }
          approval := some { approval with status := StepApprovalStatus.approved } } := by
      simp [SameBudget, seededCompanion, hcompanion]
    subst hchoice
    refine pastGate_step hstep ?_ hkept ?_ ?_ (hrun.trans hadvanced) LetThrough.proceed
    · rfl
    · intro hcapped
      cases hcapped
    · rw [<- ht]
      rfl

/-- What an accepted request for changes does to a companion's step. -/
theorem requestStepChanges_cases {now i p : Nat} {id : String} {review : StepReview} {run run' : Run} {step : Step} {approval : StepApproval}
    (hfound : gateOf run id = some (i, step, approval))
    (hregistered : registry.isCompanionKind step.agentKind = true)
    (hproducer : companionProducerIndex registry run i = some p)
    (h : requestStepChanges registry now id review actor run = .ok run') :
    exists marked rework, marked.agentKind = step.agentKind ∧
      marked.companion = step.companion ∧
      run' = rerunProducerThrough now p i rework
        { run with
          steps := run.steps.set i marked
          status := unblock run.status } := by
  simp only [requestStepChanges, hfound] at h
  split at h
  · cases h
  · split at h
    · cases h
    · cases h
    · cases h
    · split at h
      · cases h
      · have hmarked (marked : Step) (hkind : marked.agentKind = step.agentKind) :
            companionProducerIndex registry
              { run with
                steps := run.steps.set i marked
                status := unblock run.status } i = some p := by
          have hkinds : kinds
              { run with
                steps := run.steps.set i marked
                status := unblock run.status } = kinds run :=
            map_set_same (gateOf_spec hfound).1 hkind
          rw [companionProducerIndex_congr hkinds, hproducer]
        simp only [hregistered, if_true] at h
        rw [hmarked] at h
        · cases h
          refine ⟨_, _, ?_, ?_, rfl⟩
          · rfl
          · rfl
        · rfl

/-- What an accepted approval does. -/
theorem approveStep_cases {now i : Nat} {executionId id : String} {proposal : Option String} {run run' : Run} {step : Step} {approval : StepApproval}
    (hfound : gateOf run id = some (i, step, approval))
    (h : approveStep registry now executionId id proposal actor run = .ok run') :
    run' = run ∨ exists step', step'.agentKind = step.agentKind ∧
      step'.companion = step.companion ∧ step'.judge = step.judge ∧
      (run' = { run with steps := run.steps.set i step' } ∨
        run' = advanceRunPastGate now i { run with steps := run.steps.set i step' }) := by
  simp only [approveStep, hfound] at h
  split at h
  · cases h
  · split at h
    · cases h
      exact Or.inl rfl
    · split at h
      · cases h
      · split at h
        · cases h
        · split at h
          · cases h
          · split at h
            · cases h
            · split at h
              · cases h
              · right
                split at h
                · cases h
                  refine ⟨_, ?_, ?_, ?_, Or.inr rfl⟩
                  · rfl
                  · rfl
                  · rfl
                · cases h
                  refine ⟨_, ?_, ?_, ?_, Or.inl rfl⟩
                  · rfl
                  · rfl
                  · rfl

theorem requestChanges_step {s t : LoopRun} {review : StepReview} (hproducer : companionProducerIndex registry s.run c = some p)
    (hregistered : forall step, s.run.steps[c]? = some step ->
    registry.isCompanionKind step.agentKind = true)
    (h : loopAct registry defaultThreshold c s (.requestChanges now review actor) = some t) :
    LoopStep registry defaultThreshold c s t (.requestChanges now review actor) := by
  simp only [loopAct] at h
  rcases Option.bind_eq_some_iff.mp h with ⟨id, hgate, hrequest⟩
  rcases Option.map_eq_some_iff.mp hrequest with ⟨run', hok, ht⟩
  rcases companionGate_spec hgate with ⟨step, approval, hfound⟩
  have hstep := (gateOf_spec hfound).1
  rcases requestStepChanges_cases hfound (hregistered step hstep) hproducer
    (except_toOption hok) with ⟨marked, rework, hkind, hsame, hrerun⟩
  have hrun : t.run = rerunProducerThrough now p c rework
      { s.run with
        steps := s.run.steps.set c marked
        status := unblock s.run.status } := by
    rw [<- ht]
    exact hrerun
  have hlt := companionProducerIndex_lt hproducer
  rcases List.getElem?_eq_some_iff.mp hstep with ⟨hc, _⟩
  have hget : t.run.steps[c]? = some (rearmCompanion (resetStepForRerun marked)) := by
    rw [hrun, rerun_at hlt]
    simp [hc]
  refine LoopStep.sentBack ⟨?_, ?_, ?_⟩ ?_ ?_
  · rw [hrun, kinds_rerun]
    exact map_set_same hstep hkind
  · simp only [budgetAt, companionAt, hget, hstep, seededCompanion, rearmCompanion,
      resetStepForRerun, hsame, Option.map_some]
    cases step.companion with
    | none => rfl
    | some companion => rfl
  · rw [<- ht]
  · refine ⟨_, by simp only [companionAt, hget]; rfl, ?_⟩
    simp only [seededCompanion, rearmCompanion, resetStepForRerun]
    cases marked.companion with
    | none => exact ⟨rfl, rfl, rfl⟩
    | some companion => exact ⟨rfl, rfl, rfl⟩
  · refine isPast_back hlt ?_ ?_
    · rw [hrun]
      rfl
    · rw [hrun]
      rfl

theorem approve_step {s t : LoopRun} {now : Nat} {proposal : Option String}
    (h : loopAct registry defaultThreshold c s (.approve now proposal actor) = some t) :
    LoopStep registry defaultThreshold c s t (.approve now proposal actor) := by
  simp only [loopAct] at h
  rcases Option.bind_eq_some_iff.mp h with ⟨id, hgate, happrove⟩
  rcases Option.map_eq_some_iff.mp happrove with ⟨run', hok, ht⟩
  rcases companionGate_spec hgate with ⟨step, approval, hfound⟩
  have hstep := (gateOf_spec hfound).1
  have hrun : t.run = run' := by
    rw [<- ht]
  have hgranted : t.granted = s.granted := by
    rw [<- ht]
  rcases approveStep_cases hfound (except_toOption hok) with
    hsame | ⟨step', hkind, hcompanion, _, hrewritten | hadvanced⟩
  · exact same_step (hrun.trans hsame) hgranted
  · rw [<- hrun] at hrewritten
    have hkinds : kinds t.run = kinds s.run := by
      rw [hrewritten]
      exact map_set_same hstep hkind
    have hsame : companionAt defaultThreshold c t.run =
        companionAt defaultThreshold c s.run := by
      rw [@companionAt_set defaultThreshold c s.run t.run step step step' hstep
        (by rw [hrewritten]) hcompanion]
      simp [companionAt, hstep]
    have hsettles := settles_of_companionAt hkinds hsame hgranted
    refine LoopStep.quiet hsettles.1 hsettles.2 ?_ ?_
    · intro hpast
      rw [hrewritten] at hpast
      exact hpast
    · intro _
      rw [hrewritten]
  · have hkept : SameBudget defaultThreshold
        (seededCompanion defaultThreshold step).exceeded step step' := by
      simp [SameBudget, seededCompanion, hcompanion]
    refine pastGate_step hstep hkind hkept ?_ hgranted (hrun.trans hadvanced)
      LetThrough.approve
    intro hexceeded
    simp [exceededAt, companionAt, hstep, hexceeded]

/-- One action ends in one of these ways. -/
theorem loopAct_step {s t : LoopRun} {p : Nat} {a : LoopAction}
    (hc : c < s.run.steps.length)
    (hproducer : companionProducerIndex registry s.run c = some p)
    (hregistered : forall step, s.run.steps[c]? = some step ->
      registry.isCompanionKind step.agentKind = true)
    (hbudget : forall companion, companionAt defaultThreshold c s.run = some companion ->
      companion.attempts ≤ companion.maxAttempts)
    (h : loopAct registry defaultThreshold c s a = some t) :
    LoopStep registry defaultThreshold c s t a := by
  cases a with
  | work now output rework => exact work_step hc h
  | loopBack now target rework => exact loopBack_step h
  | grade now approvalId resolvesOwnCaps grading => exact grade_step hproducer h
  | answer now choice => exact answer_step hproducer hbudget h
  | requestChanges now review actor => exact requestChanges_step hproducer hregistered h
  | approve now proposal actor => exact approve_step h

/-- A grading that parks names a blocker exactly when the round has one. -/
theorem grade_parks {s t : LoopRun} {approvalId : String} {resolvesOwnCaps : Bool}
    {grading : Grading} {reason : CompanionParkReason}
    (hproducer : companionProducerIndex registry s.run c = some p)
    (h : loopAct registry defaultThreshold c s (.grade now approvalId resolvesOwnCaps grading)
    = some t)
    (hgraded : applyAssessment registry defaultThreshold now approvalId resolvesOwnCaps
    grading s.run = some (t.run, .parked reason)) :
    ParksFor defaultThreshold c t grading reason := by
  simp only [loopAct] at h
  split at h
  · rename_i henabled
    simp only [isGrading, Bool.and_eq_true, decide_eq_true_eq] at henabled
    have hcursor := henabled.1.2
    cases hold : s.run.steps[c]? with
    | none => simp [hold] at henabled
    | some old =>
        subst hcursor
        cases applyAssessment_graded hold hproducer hgraded with
        | @parked assessment _ step parsed why attended kind capped waits blocked =>
            have hsteps : t.run.steps = s.run.steps.set s.run.currentStep step := by
              rw [blocked]
            rcases List.getElem?_eq_some_iff.mp hold with ⟨hlt, _⟩
            have hkept := sameBudget_of_budgetOn capped
            refine ⟨⟨assessment, parsed, ?_⟩, ?_, ⟨step, ?_, waits⟩⟩
            · rw [why]
              exact companionParkReasonFor_eq assessment.comments
            · simp [exceededAt, companionAt_set hold hsteps rfl, hkept.2.2]
            · simp [hsteps, hlt]
  · cases h

end Actions

/-!
## The loop over whole runs
-/

section Law

variable {registry : Registry} {defaultThreshold : Rat} {c : Nat}

/-- The steps stay what they are, and the budget is what it started with and what
was granted. -/
structure LoopInv (defaultThreshold : Rat) (c : Nat) (start : Run) (s : LoopRun) :
    Prop where
  kinds_same : kinds s.run = kinds start
  budget : exists attempts maxAttempts,
    budgetAt defaultThreshold c start = some (0, maxAttempts) ∧
    budgetAt defaultThreshold c s.run = some (attempts, maxAttempts + s.granted) ∧
    attempts ≤ maxAttempts + s.granted

theorem loopInv_start (pair : CompanionPair registry c) :
    LoopInv defaultThreshold c pair.run { run := pair.run } := by
  have hattempts : (seededCompanion defaultThreshold pair.step).attempts = 0 := by
    unfold seededCompanion
    cases hcompanion : pair.step.companion with
    | none => rfl
    | some companion => exact pair.unspent companion hcompanion
  have hbudget : budgetAt defaultThreshold c pair.run =
      some (0, (seededCompanion defaultThreshold pair.step).maxAttempts) := by
    simp [budgetAt, companionAt, pair.step_at, hattempts]
  exact ⟨rfl, 0, _, hbudget, hbudget, Nat.zero_le _⟩

theorem loopInv_loopStep {start : Run} {s t : LoopRun} {a : LoopAction}
    (hinv : LoopInv defaultThreshold c start s)
    (h : LoopStep registry defaultThreshold c s t a) :
    LoopInv defaultThreshold c start t := by
  have hsettles (settles : Settles defaultThreshold c s t) :
      LoopInv defaultThreshold c start t := by
    rcases hinv.budget with ⟨attempts, maxAttempts, hstart, hbudget, hle⟩
    refine ⟨settles.kinds_same.trans hinv.kinds_same, attempts, maxAttempts, hstart, ?_, ?_⟩
    · rw [settles.budget_same, settles.granted_same]
      exact hbudget
    · rw [settles.granted_same]
      exact hle
  cases h with
  | quiet settles capped stays ahead => exact hsettles settles
  | elsewhere settles capped stays => exact hsettles settles
  | letThrough settles capped ahead allowed => exact hsettles settles
  | parked settles stays ahead graded => exact hsettles settles
  | sentBack settles clear stays => exact hsettles settles
  | charged charges clear stays =>
      rcases hinv.budget with ⟨attempts, maxAttempts, hstart, hbudget, _⟩
      rcases charges.charged with ⟨spent, cap, extra, hspent, hnew, hle, hgranted⟩
      rw [hbudget] at hspent
      cases hspent
      refine ⟨charges.kinds_same.trans hinv.kinds_same, attempts + 1, maxAttempts, hstart,
        ?_, ?_⟩
      · rw [hnew, hgranted, Nat.add_assoc]
      · rw [hgranted, <- Nat.add_assoc]
        exact hle

theorem CompanionPair.producer_of_inv (pair : CompanionPair registry c) {s : LoopRun}
    (hinv : LoopInv defaultThreshold c pair.run s) :
    companionProducerIndex registry s.run c = some pair.producer := by
  rw [companionProducerIndex_congr hinv.kinds_same]
  exact pair.producer_at

theorem CompanionPair.step_of_inv (pair : CompanionPair registry c) {s t : LoopRun}
    {a : LoopAction} (hinv : LoopInv defaultThreshold c pair.run s)
    (h : loopAct registry defaultThreshold c s a = some t) :
    LoopStep registry defaultThreshold c s t a := by
  have hlength : s.run.steps.length = pair.run.steps.length := by
    have hkinds := congrArg List.length hinv.kinds_same
    simpa [kinds] using hkinds
  rcases List.getElem?_eq_some_iff.mp pair.step_at with ⟨hc, _⟩
  refine loopAct_step (by rw [hlength]; exact hc) (pair.producer_of_inv hinv) ?_ ?_ h
  · intro step hstep
    have hkind := congrArg (fun l => l[c]?) hinv.kinds_same
    simp only [kinds, List.getElem?_map, hstep, pair.step_at, Option.map_some,
      Option.some.injEq] at hkind
    rw [hkind]
    exact pair.registered
  · intro companion hcompanion
    rcases hinv.budget with ⟨attempts, maxAttempts, _, hbudget, hle⟩
    simp only [budgetAt, hcompanion, Option.map_some, Option.some.injEq, Prod.mk.injEq]
      at hbudget
    rw [hbudget.1, hbudget.2]
    exact hle

theorem rearmsClear_own {s t : LoopRun} {a : LoopAction}
    (h : LoopStep registry defaultThreshold c s t a)
    (hown : forall now target rework, a ≠ .loopBack now target rework) :
    RearmsClear defaultThreshold c s t := by
  intro _ hstays hlt
  cases h with
  | quiet settles capped stays ahead => exact absurd hlt (Nat.not_lt.mpr (ahead hstays))
  | elsewhere settles capped stays => exact absurd rfl (hown _ _ _)
  | letThrough settles capped ahead allowed =>
      exact absurd hlt (Nat.not_lt.mpr (ahead hstays))
  | parked settles stays ahead graded => exact absurd hlt (Nat.not_lt.mpr (ahead hstays))
  | charged charges clear stays => exact clear
  | sentBack settles clear stays => exact clear

/-- Whatever the loop itself does on the way back leaves no flag; the loop-back of
another step leaves the flags it finds. -/
theorem rearmsClear_iff {s t : LoopRun} {a : LoopAction}
    (hact : loopAct registry defaultThreshold c s a = some t)
    (h : LoopStep registry defaultThreshold c s t a) :
    RearmsClear defaultThreshold c s t <-> LoopsBackClear defaultThreshold c s a := by
  cases a with
  | loopBack now target rework =>
      rcases loopBack_same hact with ⟨⟨hsame, _⟩, hne, hlt, hcursor⟩
      constructor
      · intro hrearms hle hpast
        have hclear := hrearms (Nat.le_of_lt hpast) (hcursor ▸ hle) (hcursor ▸ hlt)
        unfold FlagsClear at hclear ⊢
        rw [<- hsame]
        exact hclear
      · intro hfound hle hstays _
        have hclear := hfound (hcursor ▸ hstays) (Nat.lt_of_le_of_ne hle (Ne.symm hne))
        unfold FlagsClear at hclear ⊢
        rw [hsame]
        exact hclear
  | _ => exact iff_of_true (rearmsClear_own h (by simp)) trivial

theorem loopLaw_of_step {s t : LoopRun} {a : LoopAction} {p : Nat}
    (hproducer : companionProducerIndex registry s.run c = some p)
    (hact : loopAct registry defaultThreshold c s a = some t)
    (h : LoopStep registry defaultThreshold c s t a) :
    LoopLaw registry defaultThreshold c s t a := by
  have hparks : forall now approvalId resolvesOwnCaps grading reason,
      a = .grade now approvalId resolvesOwnCaps grading ->
      applyAssessment registry defaultThreshold now approvalId resolvesOwnCaps grading
        s.run = some (t.run, .parked reason) ->
          ParksFor defaultThreshold c t grading reason := by
    intro now approvalId resolvesOwnCaps grading reason ha hgraded
    subst ha
    exact grade_parks hproducer hact hgraded
  have hsame (settles : Settles defaultThreshold c s t) :
      (budgetAt defaultThreshold c t.run).map Prod.fst =
        (budgetAt defaultThreshold c s.run).map Prod.fst := by
    rw [settles.budget_same]
  have hstays (stays : isPast c t.run = true -> isPast c s.run = true)
      (hs : isPast c s.run = false) (ht : isPast c t.run = true) :
      LetThrough registry defaultThreshold c s t a := by
    rw [stays ht] at hs
    cases hs
  have hclear (clear : FlagsClear defaultThreshold c t.run) :
      exceededAt defaultThreshold c t.run = false := by
    rcases clear with ⟨companion, hcompanion, hexceeded, _⟩
    simp [exceededAt, hcompanion, hexceeded]
  have hrearms := rearmsClear_iff hact h
  cases h with
  | quiet settles capped stays ahead =>
      refine ⟨Or.inl (hsame settles), hstays stays, ?_, hparks, hrearms⟩
      intro hs ht
      rw [capped, hs] at ht
      cases ht
  | elsewhere settles capped stays =>
      refine ⟨Or.inl (hsame settles), hstays stays, ?_, hparks, hrearms⟩
      intro hs ht
      rw [capped, hs] at ht
      cases ht
  | letThrough settles capped ahead allowed =>
      refine ⟨Or.inl (hsame settles), fun _ _ => allowed, ?_, hparks, hrearms⟩
      intro hs ht
      rw [capped ht] at hs
      cases hs
  | parked settles stays ahead graded =>
      refine ⟨Or.inl (hsame settles), hstays stays, ?_, hparks, hrearms⟩
      intro _ _
      exact ⟨_, _, _, _, _, rfl, graded⟩
  | charged charges clear stays =>
      refine ⟨Or.inr ?_, hstays stays, ?_, hparks, hrearms⟩
      · rcases charges.looped with ⟨now, rework, base, hloop, hbase⟩
        rcases charges.charged with ⟨attempts, _, _, hs, ht, _, _⟩
        refine ⟨now, rework, base, attempts, hloop, ?_, ?_, ?_⟩
        · rw [hbase, hs]
          rfl
        · rw [hs]
          rfl
        · rw [ht]
          rfl
      · intro _ ht
        rw [hclear clear] at ht
        cases ht
  | sentBack settles clear stays =>
      refine ⟨Or.inl (hsame settles), hstays stays, ?_, hparks, hrearms⟩
      intro _ ht
      rw [hclear clear] at ht
      cases ht

end Law

/-- A coder and its reviewer, which may send the work back once. -/
def reviewedRun : Run where
  id := "exec_1"
  steps :=
    [{ agentKind := "coder", state := AgentState.working, startedAt := some 1 },
      { agentKind := "reviewer"
        state := AgentState.pending
        companion := some { threshold := 4 / 5, maxAttempts := 1 } }]

def reviewedPair : CompanionPair reviewRegistry 1 where
  run := reviewedRun
  step :=
    { agentKind := "reviewer"
      state := AgentState.pending
      companion := some { threshold := 4 / 5, maxAttempts := 1 } }
  step_at := rfl
  registered := rfl
  producer := 0
  producer_at := rfl
  unspent := by
    intro companion hcompanion
    cases hcompanion
    rfl

/-- A verdict that clears the bar but leaves a blocker open. -/
def heldOpen : Grading where
  assessment := some
    { rating := 9 / 10
      summary := "one thing must change"
      comments := [{ severity := some .blocker, body := "the lock is never released" }] }
  output := ""

/-- The blocker outlives the budget; a person grants a round, and it is still
there. -/
def heldTwice : List LoopAction :=
  [.work 2 "first try" none, .grade 3 "appr_1" true heldOpen, .work 4 "second try" none,
    .grade 5 "appr_2" true heldOpen, .answer 6 .extraRound, .work 7 "third try" none]

/-- The reviewed run, with a judge behind the reviewer. -/
def bouncedRun : Run :=
  { reviewedRun with
    steps := reviewedRun.steps ++ [{ agentKind := "judge", state := AgentState.pending }] }

/-- A round with nothing open, graded with this rating. -/
def gradedAt (rating : Rat) : Grading where
  assessment := some { rating := rating, summary := "graded", comments := [] }
  output := ""

/-- The budget is spent and the policy lets the run past; the judge sends the coder
back, and the next round clears the bar. -/
def bouncedLoop : List LoopAction :=
  [.work 2 "first try" none, .grade 3 "appr_1" true (gradedAt (1 / 2)),
    .work 4 "second try" none, .grade 5 "appr_2" true (gradedAt (1 / 2)),
    .loopBack 6 0 (some
      { previousProposal := "second try"
        feedback := "not there yet"
        requestedBy := ReworkRequester.reviewer }),
    .work 7 "third try" none, .grade 8 "appr_3" true (gradedAt (9 / 10))]

/-- The run after so many actions of that loop. -/
def bouncedAfter (n : Nat) : LoopRun :=
  endOf (loopAct reviewRegistry (4 / 5) 1) { run := bouncedRun } (bouncedLoop.take n)

end Gates
end CatFactory
