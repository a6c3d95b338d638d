import CatFactory.Gates.JudgeLoop

/-!
# The rounds of a judge

What every action of the loop makes of every judge in the run, and from it the laws
of the budget, of the bar, of the cap and of the answers.
-/

namespace CatFactory
namespace Gates

open Execution (AgentState ExecutionStatus StepApprovalStatus ReworkRequester)
open Foundation Reviews

variable {input : JudgeDispositionInput} {now : Nat} {step : Step} {run run' : Run}

/-!
## Writes that are not about a judge
-/

/-- The judge of the step is as it was, and the step waits only where it waited. -/
structure Keeps (old new : Step) : Prop where
  kind : new.agentKind = old.agentKind
  judge : new.judge = old.judge
  park : isParkedJudge new = true -> isParkedJudge old = true ∧ new.approval = old.approval

theorem Keeps.refl (step : Step) : Keeps step step :=
  ⟨rfl, rfl, fun h => ⟨h, rfl⟩⟩

theorem Keeps.trans {first second third : Step} (h : Keeps first second)
    (h' : Keeps second third) : Keeps first third := by
  constructor
  · exact h'.kind.trans h.kind
  · exact h'.judge.trans h.judge
  · intro hpark
    rcases h'.park hpark with ⟨hmid, hsame⟩
    rcases h.park hmid with ⟨hold, hsame'⟩
    exact ⟨hold, hsame.trans hsame'⟩

theorem isParkedJudge_state (h : isParkedJudge step = true) :
    step.state = AgentState.waitingDecision := by
  simp only [isParkedJudge, stepAwaitsDecision, Bool.and_eq_true, decide_eq_true_eq] at h
  exact h.1.1

theorem isParkedJudge_approval (h : isParkedJudge step = true) :
    exists approval, step.approval = some approval := by
  simp only [isParkedJudge, stepAwaitsDecision, Bool.and_eq_true, decide_eq_true_eq] at h
  cases happroval : step.approval with
  | none => simp [happroval] at h
  | some approval => exact ⟨approval, rfl⟩

theorem isParkedJudge_judge (h : isParkedJudge step = true) :
    exists state, step.judge = some state ∧ state.status = .awaitingDecision := by
  simp only [isParkedJudge, Bool.and_eq_true] at h
  cases hjudge : step.judge with
  | none => simp [hjudge] at h
  | some state => exact ⟨state, rfl, by simpa [hjudge] using h.2⟩

/-- A step that does not wait keeps its judge. -/
theorem Keeps.idle {old new : Step} (hkind : new.agentKind = old.agentKind)
    (hjudge : new.judge = old.judge) (hstate : new.state ≠ AgentState.waitingDecision) :
    Keeps old new :=
  ⟨hkind, hjudge, fun hpark => absurd (isParkedJudge_state hpark) hstate⟩

/-- A step without an approval keeps its judge. -/
theorem Keeps.unasked {old new : Step} (hkind : new.agentKind = old.agentKind)
    (hjudge : new.judge = old.judge) (hnone : new.approval = none) : Keeps old new := by
  refine ⟨hkind, hjudge, ?_⟩
  intro hpark
  rcases isParkedJudge_approval hpark with ⟨approval, happroval⟩
  rw [hnone] at happroval
  cases happroval

theorem startStep_judge (now : Nat) (step : Step) :
    (startStep now step).judge = step.judge := by
  unfold startStep
  cases step.startedAt with
  | none => rfl
  | some _ => rfl

theorem startStep_keeps (now : Nat) (step : Step) : Keeps step (startStep now step) := by
  apply Keeps.idle (startStep_agentKind now step) (startStep_judge now step)
  rw [startStep_state]
  intro h
  cases h

theorem finishStep_keeps (now : Nat) (step : Step) :
    Keeps step { finishStep now step with progress := 1 } := by
  apply Keeps.idle
  · rfl
  · rfl
  · intro h
    cases h

/-- Every step keeps its judge. -/
def KeepsAll (steps steps' : List Step) : Prop :=
  forall (j : Nat) (new : Step), steps'[j]? = some new ->
    exists old, steps[j]? = some old ∧ Keeps old new

theorem KeepsAll.refl (steps : List Step) : KeepsAll steps steps := by
  intro j new h
  exact ⟨new, h, Keeps.refl new⟩

theorem KeepsAll.trans {first second third : List Step} (h : KeepsAll first second)
    (h' : KeepsAll second third) : KeepsAll first third := by
  intro j new hnew
  rcases h' j new hnew with ⟨mid, hmid, hkeeps'⟩
  rcases h j mid hmid with ⟨old, hold, hkeeps⟩
  exact ⟨old, hold, hkeeps.trans hkeeps'⟩

theorem keepsAll_modify {change : Step -> Step} (h : forall step, Keeps step (change step))
    (steps : List Step) (i : Nat) : KeepsAll steps (steps.modify i change) := by
  intro j new hnew
  rcases modify_step hnew with ⟨old, hold, ⟨_, rfl⟩ | ⟨_, rfl⟩⟩
  · exact ⟨old, hold, h old⟩
  · exact ⟨_, hold, Keeps.refl _⟩

theorem advance_keepsAll (now i : Nat) (run : Run) :
    KeepsAll run.steps (advanceRunPastGate now i run).steps := by
  have hfinish := keepsAll_modify (finishStep_keeps now) run.steps i
  unfold advanceRunPastGate
  split
  · exact hfinish
  · exact hfinish.trans (keepsAll_modify (startStep_keeps now) _ _)

theorem settle_keepsAll (now : Nat) (run : Run) :
    KeepsAll run.steps (settleStepAndAdvance now run).steps := by
  unfold settleStepAndAdvance
  split
  · exact KeepsAll.refl run.steps
  · exact keepsAll_modify (startStep_keeps now) _ _

theorem rearmCompanion_keeps (step : Step) : Keeps step (rearmCompanion step) :=
  ⟨rfl, rfl, fun h => ⟨h, rfl⟩⟩

theorem rerun_keepsAll (now p c : Nat) (rework : Rework) (run : Run) :
    KeepsAll run.steps (rerunProducerThrough now p c rework run).steps := by
  have hreset : KeepsAll run.steps (resetRange p c run.steps) := by
    intro j new hnew
    unfold resetRange at hnew
    rw [List.getElem?_mapIdx] at hnew
    rcases Option.map_eq_some_iff.mp hnew with ⟨old, hold, rfl⟩
    refine ⟨old, hold, ?_⟩
    split
    · exact Keeps.unasked rfl rfl rfl
    · exact Keeps.refl old
  refine (hreset.trans (keepsAll_modify rearmCompanion_keeps _ c)).trans ?_
  apply keepsAll_modify
  intro step
  apply Keeps.idle
  · exact startStep_agentKind now _
  · exact startStep_judge now _
  · rw [startStep_state]
    intro h
    cases h

/-- Past a rewind, no step of its range waits. -/
theorem rerun_unparked {now p c j : Nat} {rework : Rework} {run : Run} {new : Step}
    (hle : p ≤ c) (hj : p ≤ j ∧ j ≤ c)
    (h : (rerunProducerThrough now p c rework run).steps[j]? = some new) :
    new.approval = none := by
  rcases rerun_step hle h with ⟨_, _, ⟨_, _, hnone⟩ | ⟨hout, _⟩⟩
  · exact hnone
  · exact absurd hj hout

/-!
## Writes about one judge
-/

/-- The step at `i` now carries this judge state; every other step keeps its own. -/
structure Wrote (i : Nat) (state : JudgeStepState) (run run' : Run) : Prop where
  here : forall new, run'.steps[i]? = some new -> new.judge = some state ∧
    exists old, run.steps[i]? = some old ∧ new.agentKind = old.agentKind
  others : forall j new, j ≠ i -> run'.steps[j]? = some new ->
    exists old, run.steps[j]? = some old ∧ Keeps old new

theorem Wrote.set {i : Nat} {state : JudgeStepState} {old step : Step}
    (hold : run.steps[i]? = some old) (hsteps : run'.steps = run.steps.set i step)
    (hjudge : step.judge = some state) (hkind : step.agentKind = old.agentKind) :
    Wrote i state run run' := by
  constructor
  · intro new hnew
    rcases set_step hsteps hnew with ⟨_, rfl⟩ | ⟨hne, _⟩
    · exact ⟨hjudge, old, hold, hkind⟩
    · exact absurd rfl hne
  · intro j new hne hnew
    rcases set_step hsteps hnew with ⟨heq, _⟩ | ⟨_, hsame⟩
    · exact absurd heq hne
    · exact ⟨new, hsame, Keeps.refl new⟩

theorem Wrote.kept {run mid run' : Run} {i : Nat} {state : JudgeStepState}
    (h : Wrote i state run mid) (hkeeps : KeepsAll mid.steps run'.steps) :
    Wrote i state run run' := by
  constructor
  · intro new hnew
    rcases hkeeps i new hnew with ⟨step, hstep, hk⟩
    rcases h.here step hstep with ⟨hjudge, old, hold, hkind⟩
    exact ⟨hk.judge.trans hjudge, old, hold, hk.kind.trans hkind⟩
  · intro j new hne hnew
    rcases hkeeps j new hnew with ⟨step, hstep, hk⟩
    rcases h.others j step hne hstep with ⟨old, hold, hk'⟩
    exact ⟨old, hold, hk'.trans hk⟩

/-!
## Where a write leaves the cursor
-/

/-- The run may be past the step under its cursor, and past no other. -/
structure Goes (run run' : Run) : Prop where
  cursor : run'.currentStep ≤ run.currentStep + 1
  done : run'.status = ExecutionStatus.done ->
    run.status = ExecutionStatus.done ∨ run.currentStep + 1 = run.steps.length

/-- The run is past nothing it was not past before. -/
structure Stays (run run' : Run) : Prop where
  cursor : run'.currentStep ≤ run.currentStep
  done : run'.status = ExecutionStatus.done -> run.status = ExecutionStatus.done

theorem Stays.goes (h : Stays run run') : Goes run run' :=
  ⟨Nat.le_succ_of_le h.cursor, fun hdone => Or.inl (h.done hdone)⟩

theorem Stays.not_past {j : Nat} (h : Stays run run')
    (hbefore : isPast j run = false) : Not (isPast j run' = true) := by
  intro hafter
  rw [isPast_of_same h.cursor h.done hafter] at hbefore
  cases hbefore

/-- A run that goes past a step goes past the one under its cursor. -/
theorem Goes.past {j : Nat} (h : Goes run run') (hstep : run.steps[j]? = some step)
    (hbefore : isPast j run = false) (hafter : isPast j run' = true) : j = run.currentStep := by
  have hlt := (List.getElem?_eq_some_iff.mp hstep).1
  have hcursor := h.cursor
  simp only [isPast, Bool.or_eq_false_iff, decide_eq_false_iff_not] at hbefore
  simp only [isPast, Bool.or_eq_true, decide_eq_true_eq] at hafter
  rcases hafter with hcase | hcase
  · omega
  · rcases h.done hcase with hdone | hlast
    · exact absurd hdone hbefore.2
    · omega

theorem advance_goes (now : Nat) (run : Run) :
    Goes run (advanceRunPastGate now run.currentStep run) := by
  unfold advanceRunPastGate
  split
  · rename_i hlast
    exact ⟨Nat.le_succ _, fun _ => Or.inr hlast⟩
  · exact ⟨Nat.le_refl _, fun hdone => Or.inl (unblock_done hdone)⟩

theorem settle_goes (now : Nat) (run : Run) : Goes run (settleStepAndAdvance now run) := by
  unfold settleStepAndAdvance
  split
  · rename_i hlast
    exact ⟨Nat.le_succ _, fun _ => Or.inr hlast⟩
  · exact ⟨Nat.le_refl _, fun hdone => Or.inl hdone⟩

/-!
## How an evaluation ends
-/

/-- The state of the judge once the round is recorded. -/
def settledRound (judge : Judge) (r : Evaluation) (decision : JudgeDispositionResult)
    (step : Step) : JudgeStepState :=
  recordRound r.now (assess judge r.reply).1 (assess judge r.reply).2.1
    (assess judge r.reply).2.2 decision (openRound judge r step)

/-- The bar the round is held to. -/
def barOf (judge : Judge) (r : Evaluation) (step : Step) : Rat :=
  (openRound judge r step).threshold.getD 0

/-- The ways an evaluation ends, and the judge state it leaves. -/
inductive Evaluated (judge : Judge) (r : Evaluation) (old : Step) (run run' : Run) :
    JudgeExit -> JudgeStepState -> Prop where
  | skipped (unwired : assesses r = false) (moved : Goes run run') :
      Evaluated judge r old run run' .skipped
        (passThrough judge r.assessorEnabled old.judge).1
  | passed (assessed : assesses r = true) {decision : JudgeDispositionResult}
      (disposed : decision.disposition = .pass)
      (bar : barOf judge r old ≤ (assess judge r.reply).1.score)
      (unanswered : policyAnswers judge r run (openRound judge r old) = false)
      (moved : Goes run run') :
      Evaluated judge r old run run' .passed
        { settledRound judge r decision old with status := .passed }
  | failed (assessed : assesses r = true) {decision : JudgeDispositionResult}
      (disposed : decision.disposition = .fail)
      (unanswered : policyAnswers judge r run (openRound judge r old) = false)
      (stays : Stays run run') :
      Evaluated judge r old run run' .failed
        { settledRound judge r decision old with status := .failed }
  | bounced (assessed : assesses r = true) {decision : JudgeDispositionResult}
      (disposed : decision.disposition = .bounce)
      (spare : (openRound judge r old).bounces < (openRound judge r old).maxBounces)
      (unanswered : policyAnswers judge r run (openRound judge r old) = false)
      (stays : Stays run run') :
      Evaluated judge r old run run' .bounced
        { settledRound judge r decision old with
          status := .bouncing
          bounces := (openRound judge r old).bounces + 1 }
  | settledByPolicy (assessed : assesses r = true) {decision : JudgeDispositionResult}
      (disposed : decision.disposition = .park)
      (policy : policyAnswers judge r run (openRound judge r old) = true)
      (moved : Goes run run') :
      Evaluated judge r old run run' .settledByPolicy
        (settleCap (settledRound judge r decision old))
  | parked (assessed : assesses r = true) {decision : JudgeDispositionResult}
      (disposed : decision.disposition = .park)
      (unanswered : policyAnswers judge r run (openRound judge r old) = false)
      (asks : forall new, run'.steps[run.currentStep]? = some new ->
        new.approval.map StepApproval.id = some r.approvalId)
      (cursor : run'.currentStep = run.currentStep) (stays : Stays run run') :
      Evaluated judge r old run run' .parked
        { settledRound judge r decision old with status := .awaitingDecision }

theorem recordStepResult_wrote {approvalId output : String} {old step : Step}
    {state : JudgeStepState} {run : Run} (hold : run.steps[run.currentStep]? = some old)
    (hjudge : step.judge = some state) (hkind : step.agentKind = old.agentKind) :
    Wrote run.currentStep state run (recordStepResult now approvalId output step run) ∧
      Goes run (recordStepResult now approvalId output step run) := by
  unfold recordStepResult resolvePassedCompanion
  simp only
  split
  · constructor
    · exact Wrote.set hold rfl hjudge hkind
    · exact ⟨Nat.le_succ _, fun hdone => by cases hdone⟩
  · constructor
    · refine Wrote.kept ?_ (settle_keepsAll now _)
      exact Wrote.set hold rfl hjudge hkind
    · have hgoes := settle_goes now
        { run with
          steps := run.steps.set run.currentStep
            { finishStep now
                { step with
                  output := some output, outputIsRendered := false, rework := none } with
              progress := 1 } }
      refine ⟨hgoes.cursor, ?_⟩
      intro hdone
      rcases hgoes.done hdone with hbefore | hlast
      · exact Or.inl hbefore
      · right
        simpa using hlast

theorem dispose_judge_pass
    (h : (disposeJudgeVerdict input).disposition = .pass) : input.threshold ≤ input.score := by
  unfold disposeJudgeVerdict at h
  split at h
  · rename_i hbar
    exact hbar
  · split at h
    · cases h
    · split at h
      · cases h
      · split at h
        · cases h
        · cases h
    · cases h

theorem dispose_judge_bounce (h : (disposeJudgeVerdict input).disposition = .bounce) :
    input.bounces < input.maxBounces ∧ input.hasBounceTarget = true := by
  unfold disposeJudgeVerdict at h
  split at h
  · cases h
  · split at h
    · cases h
    · split at h
      · cases h
      · rename_i htarget
        split at h
        · cases h
        · rename_i hbudget
          exact ⟨Nat.lt_of_not_le hbudget, by simpa using htarget⟩
    · cases h

/-- The park a policy may answer: the budget of a bouncing judge is spent. -/
theorem dispose_judge_spent :
    (disposeJudgeVerdict input).parkReason = some .budgetSpent <->
      input.score < input.threshold ∧ input.onFail = .bounce ∧
        input.hasBounceTarget = true ∧ input.maxBounces ≤ input.bounces := by
  unfold disposeJudgeVerdict
  split
  · rename_i hbar
    constructor
    · intro h
      cases h
    · intro h
      exact absurd hbar (not_le.mpr h.1)
  · rename_i hbar
    have hlt : input.score < input.threshold := not_le.mp hbar
    cases hfail : input.onFail with
    | fail => simp
    | park => simp
    | bounce =>
        simp only
        split
        · rename_i htarget
          simp only [Bool.not_eq_true'] at htarget
          simp [htarget]
        · rename_i htarget
          simp only [Bool.not_eq_true', Bool.not_eq_false] at htarget
          split
          · rename_i hspent
            simp [hlt, htarget, hspent]
          · rename_i hspare
            simp [htarget, hspare]

theorem dispose_judge_spent_parks
    (h : (disposeJudgeVerdict input).parkReason = some .budgetSpent) :
    (disposeJudgeVerdict input).disposition = .park := by
  rcases dispose_judge_spent.mp h with ⟨hlt, hfail, htarget, hspent⟩
  unfold disposeJudgeVerdict
  rw [if_neg (not_le.mpr hlt), hfail]
  simp [htarget, hspent]

theorem policyAnswers_iff {judge : Judge} {r : Evaluation} {run : Run}
    {state : JudgeStepState} :
    policyAnswers judge r run state = true <->
      (disposeJudgeVerdict (judgeInput judge state (assess judge r.reply).1
        (bounceTargetIndex judge.toJudgeDefinition run.steps run.currentStep))).parkReason =
          some .budgetSpent ∧ r.resolvesOwnCaps = true := by
  rw [dispose_judge_spent]
  simp [policyAnswers, judgeInput, and_assoc]

theorem failRun_stays {run base : Run} (hcursor : base.currentStep = run.currentStep)
    (hstatus : base.status = run.status) : Stays run (failRun base) := by
  constructor
  · rw [failRun_currentStep, hcursor]
  · intro hdone
    rw [<- hstatus]
    exact failRun_status_done hdone

theorem rerun_stays {now p c : Nat} {rework : Rework} {run : Run} (hle : p ≤ run.currentStep) :
    Stays run
      { rerunProducerThrough now p c rework run with status := unblock run.status } :=
  ⟨hle, unblock_done⟩

theorem dispose_judge_park (hpass : (disposeJudgeVerdict input).disposition ≠ .pass)
    (hfail : (disposeJudgeVerdict input).disposition ≠ .fail)
    (hbounce : (disposeJudgeVerdict input).disposition ≠ .bounce) :
    (disposeJudgeVerdict input).disposition = .park := by
  cases h : (disposeJudgeVerdict input).disposition with
  | pass => exact absurd h hpass
  | fail => exact absurd h hfail
  | bounce => exact absurd h hbounce
  | park => rfl

/-- What `evaluate` does to the judge under the cursor. -/
theorem evaluate_spec {judge : Judge} {r : Evaluation} {old : Step} {exit : JudgeExit}
    (hold : run.steps[run.currentStep]? = some old) (h : evaluate judge r old run = (run', exit)) :
    exists state, Evaluated judge r old run run' exit state ∧
      Wrote run.currentStep state run run' := by
  unfold evaluate at h
  cases hassess : assesses r with
  | false =>
      simp only [hassess, Bool.not_false, if_true, Prod.mk.injEq] at h
      rcases h with ⟨rfl, rfl⟩
      have hwrote := @recordStepResult_wrote r.now r.approvalId
        (passThrough judge r.assessorEnabled old.judge).2 old
        (withJudge (passThrough judge r.assessorEnabled old.judge).1 old) _ run hold rfl rfl
      exact ⟨_, Evaluated.skipped hassess hwrote.2, hwrote.1⟩
  | true =>
      simp only [hassess, Bool.not_true, Bool.false_eq_true, if_false] at h
      generalize htarget :
        bounceTargetIndex judge.toJudgeDefinition run.steps run.currentStep = target at h
      generalize hdecision : disposeJudgeVerdict
        (judgeInput judge (openRound judge r old) (assess judge r.reply).1 target) =
          decision at h
      have hpolicy := @policyAnswers_iff judge r run (openRound judge r old)
      rw [htarget, hdecision] at hpolicy
      have hunanswered : decision.disposition ≠ .park ->
          policyAnswers judge r run (openRound judge r old) = false := by
        intro hne
        rw [Bool.eq_false_iff]
        intro hyes
        apply hne
        rw [<- hdecision]
        apply dispose_judge_spent_parks
        rw [hdecision]
        exact (hpolicy.mp hyes).1
      split at h
      · rename_i hpass
        simp only [Prod.mk.injEq] at h
        rcases h with ⟨rfl, rfl⟩
        have hwrote := fun output => @recordStepResult_wrote r.now r.approvalId output old
          (withJudge { settledRound judge r decision old with status := .passed } old) _ run
          hold rfl rfl
        have hbar : barOf judge r old ≤ (assess judge r.reply).1.score := by
          have hdisposed := dispose_judge_pass ((congrArg _ hdecision).trans hpass)
          exact hdisposed
        exact ⟨_, Evaluated.passed hassess hpass hbar (hunanswered (by rw [hpass]; decide))
          (hwrote _).2, (hwrote _).1⟩
      · rename_i hfail
        simp only [Prod.mk.injEq] at h
        rcases h with ⟨rfl, rfl⟩
        refine ⟨_, Evaluated.failed hassess hfail (hunanswered (by rw [hfail]; decide))
          (failRun_stays rfl rfl), ?_⟩
        exact Wrote.set hold (failRun_steps _) rfl rfl
      · rename_i producer hbounce
        simp only [Prod.mk.injEq] at h
        rcases h with ⟨rfl, rfl⟩
        have hspare := dispose_judge_bounce ((congrArg _ hdecision).trans hbounce)
        have hlt := bounceTargetIndex_lt htarget
        refine ⟨_, Evaluated.bounced hassess hbounce hspare.1
          (hunanswered (by rw [hbounce]; decide)) ?_, ?_⟩
        · exact ⟨Nat.le_of_lt hlt, unblock_done⟩
        · refine Wrote.kept ?_ (rerun_keepsAll _ _ _ _ _)
          exact Wrote.set hold rfl rfl rfl
      · rename_i hnpass hnfail hnbounce
        have hpark : decision.disposition = .park := by
          rw [<- hdecision]
          apply dispose_judge_park
          · rw [hdecision]
            exact hnpass
          · rw [hdecision]
            exact hnfail
          · rw [hdecision]
            intro hbounce
            have hspare := dispose_judge_bounce ((congrArg _ hdecision).trans hbounce)
            rcases Option.isSome_iff_exists.mp hspare.2 with ⟨producer, hproducer⟩
            exact hnbounce producer hbounce hproducer
        split at h
        · rename_i hanswers
          simp only [Prod.mk.injEq] at h
          rcases h with ⟨rfl, rfl⟩
          have hwrote := fun output => @recordStepResult_wrote r.now r.approvalId output old
            (withJudge (settleCap (settledRound judge r decision old)) old) _ run hold rfl rfl
          exact ⟨_, Evaluated.settledByPolicy hassess hpark (hpolicy.mpr hanswers)
            (hwrote _).2, (hwrote _).1⟩
        · rename_i hanswers
          simp only [Prod.mk.injEq] at h
          rcases h with ⟨rfl, rfl⟩
          have hattended : policyAnswers judge r run (openRound judge r old) = false := by
            rw [Bool.eq_false_iff]
            exact fun hyes => hanswers (hpolicy.mp hyes)
          refine ⟨_, Evaluated.parked hassess hpark hattended ?_ rfl ?_,
            Wrote.set hold rfl rfl rfl⟩
          · intro new hnew
            rcases set_step rfl hnew with ⟨_, rfl⟩ | ⟨hne, _⟩
            · rfl
            · exact absurd rfl hne
          · exact ⟨Nat.le_refl _, fun hdone => by cases hdone⟩

/-!
## How an answer is written
-/

/-- The judge has the same rounds, the same bar and the same budget. -/
structure SameRounds (state state' : JudgeStepState) : Prop where
  rounds : state'.rounds = state.rounds
  bounces : state'.bounces = state.bounces
  maxBounces : state'.maxBounces = state.maxBounces
  threshold : state'.threshold = state.threshold
  cap : state'.capSettledByPolicy = state.capSettledByPolicy

structure FoundParked (registry : JudgeRegistry) (run : Run) (found : ParkedJudge) : Prop where
  step_at : run.steps[found.index]? = some found.step
  parked : isParkedJudge found.step = true
  approval : found.step.approval = some found.approval
  state : found.step.judge = some found.state
  registered : registry.judge found.step.agentKind = some found.judge

theorem findParkedJudge_spec {registry : JudgeRegistry} {run : Run} {found : ParkedJudge}
    (h : findParkedJudge registry run = .ok found) : FoundParked registry run found := by
  simp only [findParkedJudge] at h
  cases hindex : run.steps.findIdx? isParkedJudge with
  | none => simp [hindex] at h
  | some i =>
      rcases List.findIdx?_eq_some_iff_getElem.mp hindex with ⟨hlt, hparked, _⟩
      have hstep : run.steps[i]? = some run.steps[i] := List.getElem?_eq_getElem hlt
      generalize run.steps[i] = step at hparked hstep
      rcases isParkedJudge_approval hparked with ⟨approval, happroval⟩
      rcases isParkedJudge_judge hparked with ⟨state, hstate, _⟩
      simp only [hindex, Option.bind_some, hstep, happroval, hstate, Option.map_some] at h
      split at h
      · cases h
      · rename_i judge hjudge
        cases h
        exact ⟨hstep, hparked, happroval, hstate, hjudge⟩

/-- What an answer writes first. -/
inductive Answered (found : ParkedJudge) (run run' : Run) :
    JudgeChoice -> Option Rewind -> JudgeStepState -> Prop where
  | proceed {now : Nat} {base : Run} {state : JudgeStepState}
      (moved : run' = advanceRunPastGate now found.index base)
      (cursor : base.currentStep = run.currentStep) (same : base.status = run.status)
      (length : base.steps.length = run.steps.length)
      (kept : SameRounds found.state state) (status : state.status = .passed)
      (said : state.resolution.map JudgeResolution.choice = some .proceed) :
      Answered found run run' .proceed none state
  | stop {state : JudgeStepState} (kept : SameRounds found.state state)
      (status : state.status = .failed) (cursor : run'.currentStep = run.currentStep)
      (same : run'.status = run.status) :
      Answered found run run' .stop none state
  | bounce {rewind : Rewind} {state : JudgeStepState} (kept : SameRounds found.state state)
      (status : state.status = found.state.status)
      (index : rewind.index = found.index) (back : rewind.target < rewind.index)
      (asks : rewind.approvalId = found.approval.id)
      (waits : exists new, run'.steps[found.index]? = some new ∧
        isParkedJudge new = true ∧ new.approval = some found.approval)
      (cursor : run'.currentStep = run.currentStep) (same : run'.status = run.status) :
      Answered found run run' .bounce (some rewind) state

theorem answeredState_same (resolution : JudgeResolution) (state : JudgeStepState) :
    SameRounds state (answeredState resolution state) := by
  unfold answeredState
  cases resolution.choice with
  | proceed => exact ⟨rfl, rfl, rfl, rfl, rfl⟩
  | bounce => exact ⟨rfl, rfl, rfl, rfl, rfl⟩
  | stop => exact ⟨rfl, rfl, rfl, rfl, rfl⟩

theorem recordJudgeAnswer_spec {registry : JudgeRegistry} {choice : JudgeChoice}
    {feedback : Option String} {found : ParkedJudge} {rewind : Option Rewind}
    (hfound : FoundParked registry run found)
    (h : recordJudgeAnswer now choice feedback found run = .ok (run', rewind)) :
    exists state, Answered found run run' choice rewind state ∧
      Wrote found.index state run run' := by
  have hsame := answeredState_same
    { choice := choice, feedback := trimmed feedback, recordedAt := now } found.state
  refine ⟨answeredState
    { choice := choice, feedback := trimmed feedback, recordedAt := now } found.state, ?_, ?_⟩
  · cases choice with
    | proceed =>
        cases h
        refine Answered.proceed rfl rfl rfl ?_ hsame rfl rfl
        simp
    | stop =>
        cases h
        exact Answered.stop hsame rfl rfl rfl
    | bounce =>
        simp only [recordJudgeAnswer] at h
        split at h
        · cases h
        · rename_i target htarget
          cases h
          refine Answered.bounce hsame rfl rfl (bounceTargetIndex_lt htarget) rfl ?_ rfl rfl
          have hlt := (List.getElem?_eq_some_iff.mp hfound.step_at).1
          have hparked := hfound.parked
          simp only [isParkedJudge, hfound.state, Option.any_some] at hparked
          exact ⟨_, List.getElem?_set_self hlt, hparked, hfound.approval⟩
  · cases choice with
    | proceed =>
        cases h
        refine Wrote.kept ?_ (advance_keepsAll now _ _)
        exact Wrote.set hfound.step_at rfl rfl rfl
    | stop =>
        cases h
        exact Wrote.set hfound.step_at rfl rfl rfl
    | bounce =>
        simp only [recordJudgeAnswer] at h
        split at h
        · cases h
        · cases h
          exact Wrote.set hfound.step_at rfl rfl rfl

/-- The second write of a bounce: the judge goes back with its producer. -/
theorem rewindForBounce_spec {rewind : Rewind} {run : Run} {state : JudgeStepState}
    (hstep : run.steps[rewind.index]? = some step) (hstate : step.judge = some state)
    (hback : rewind.target < rewind.index) :
    Wrote rewind.index { state with status := .bouncing } run
      (rewindForBounce now rewind run) ∧
    (forall new, (rewindForBounce now rewind run).steps[rewind.index]? = some new ->
      new.approval = none) := by
  have hkeeps := rerun_keepsAll now rewind.target rewind.index
    { previousProposal := (run.steps[rewind.target]?.bind Step.output).getD ""
      feedback := renderJudgeRework rewind.verdict rewind.rubricName rewind.feedback
      requestedBy := ReworkRequester.reviewer } run
  constructor
  · constructor
    · intro new hnew
      rcases modify_step hnew with ⟨mid, hmid, ⟨_, rfl⟩ | ⟨hne, _⟩⟩
      · rcases hkeeps _ mid hmid with ⟨old, hold, hk⟩
        rw [hstep] at hold
        cases hold
        exact ⟨by simp [markBouncing, hk.judge, hstate], step, hstep, hk.kind⟩
      · exact absurd rfl hne
    · intro j new hne hnew
      rcases modify_step hnew with ⟨mid, hmid, ⟨heq, _⟩ | ⟨_, rfl⟩⟩
      · exact absurd heq hne
      · exact hkeeps j _ hmid
  · intro new hnew
    rcases modify_step hnew with ⟨mid, hmid, ⟨_, rfl⟩ | ⟨hne, _⟩⟩
    · show mid.approval = none
      exact rerun_unparked (Nat.le_of_lt hback) ⟨Nat.le_of_lt hback, Nat.le_refl _⟩ hmid
    · exact absurd rfl hne

/-!
## The invariant
-/

/-- Why the judge is over: a score at the bar, the policy, or a person. -/
def PassedFor (answered : List (Nat × Nat)) (i : Nat) (state : JudgeStepState) : Prop :=
  (exists round, state.rounds.getLast? = some round ∧
    state.threshold.getD 0 ≤ round.verdict.score) ∨
  (i, state.rounds.length) ∈ answered ∨
  state.resolution.map JudgeResolution.choice = some .proceed

def bouncesIn (rounds : List JudgeRound) : Nat :=
  rounds.countP fun round => round.disposition = .bounce

structure JudgeOk (answered : List (Nat × Nat)) (i : Nat) (state : JudgeStepState) :
    Prop where
  bounces_eq : state.bounces = bouncesIn state.rounds
  bounces_le : state.bounces ≤ state.maxBounces
  passed : state.status = .passed -> PassedFor answered i state

/-- The step waits for a person's answer under this approval. -/
def AnswersTo (id : String) (step : Step) : Prop :=
  isParkedJudge step = true ∧ step.approval.map StepApproval.id = some id

structure JudgeStepOk (registry : JudgeRegistry) (s : JudgeSystem) (i : Nat) (step : Step) :
    Prop where
  registered : step.judge.isSome = true -> (registry.judge step.agentKind).isSome = true
  sound : forall state, step.judge = some state -> JudgeOk s.answered i state
  cursor : isParkedJudge step = true -> i = s.run.currentStep
  open_park : forall id, AnswersTo id step -> id ∈ s.minted ∧ (i, id) ∉ s.effects

/-- A bounce in flight: while its revision is the stored one, its run is. -/
structure FlightOk (s : JudgeSystem) (b : Bounce) : Prop where
  snapshot : Snapshot Prod.snd (s.run, s.rev) (b.run, b.rev)
  waits : exists step, b.run.steps[b.rewind.index]? = some step ∧
    AnswersTo b.rewind.approvalId step
  back : b.rewind.target < b.rewind.index

structure JudgeInv (registry : JudgeRegistry) (s : JudgeSystem) : Prop where
  steps : forall (i : Nat) (step : Step), s.run.steps[i]? = some step ->
    JudgeStepOk registry s i step
  once : s.effects.Nodup
  minted : forall i id, (i, id) ∈ s.effects -> id ∈ s.minted
  flight : forall b, b ∈ s.bouncing -> FlightOk s b

/-!
## What one action does
-/

/-- Who may let the run past the judge at `j`. -/
inductive MovesPast (registry : JudgeRegistry) (s : JudgeSystem) (j : Nat) :
    JudgeAction -> Prop where
  | score {r : Evaluation} {judge : Judge} {step : Step}
      (under : judgeUnder registry s.run = some (step, judge))
      (cursor : j = s.run.currentStep) (assessed : assesses r = true)
      (bar : barOf judge r step ≤ (assess judge r.reply).1.score) :
      MovesPast registry s j (.evaluate r)
  | policy {r : Evaluation} {judge : Judge} {step : Step}
      (under : judgeUnder registry s.run = some (step, judge))
      (cursor : j = s.run.currentStep) (assessed : assesses r = true)
      (answers : policyAnswers judge r s.run (openRound judge r step) = true) :
      MovesPast registry s j (.evaluate r)
  | unwired {r : Evaluation} (cursor : j = s.run.currentStep)
      (unwired : assesses r = false) :
      MovesPast registry s j (.evaluate r)
  | proceed {now : Nat} {feedback : Option String} {step : Step}
      (step_at : s.run.steps[j]? = some step) (parked : isParkedJudge step = true) :
      MovesPast registry s j (.answer now .proceed feedback)
  | approved {now : Nat} {proposal : Option String} {actor : GateActor} {step : Step}
      {state : JudgeStepState} (step_at : s.run.steps[j]? = some step)
      (has : step.judge = some state) (finished : state.status = .passed ∨ state.status = .skipped) :
      MovesPast registry s j (.approve now proposal actor)

/-- What an action makes of the judge of one step. -/
inductive JudgeMove (registry : JudgeRegistry) (s t : JudgeSystem) (a : JudgeAction)
    (j : Nat) (old new : Step) : Prop where
  | kept (keeps : Keeps old new)
      (bar : firstBar t.resolved j = firstBar s.resolved j)
      (still : isParkedJudge new = true ->
        t.run.currentStep = s.run.currentStep ∧ t.effects = s.effects)
  | evaluated {judge : Judge} {r : Evaluation} {exit : JudgeExit} {state : JudgeStepState}
      (evaluation : a = .evaluate r) (cursor : j = s.run.currentStep)
      (registered : registry.judge old.agentKind = some judge)
      (kind : new.agentKind = old.agentKind)
      (action : judgeUnder registry s.run = some (old, judge))
      (ended : Evaluated judge r old s.run t.run exit state)
      (has : new.judge = some state)
      (bar : firstBar t.resolved j =
        if assesses r then some ((firstBar s.resolved j).getD (judge.bar r.preset))
        else firstBar s.resolved j)
      (answered : exit = .settledByPolicy -> (j, state.rounds.length) ∈ t.answered)
      (asks : isParkedJudge new = true ->
        new.approval.map StepApproval.id = some r.approvalId)
      (fresh : r.approvalId ∉ s.minted) (minted : r.approvalId ∈ t.minted)
      (effects : t.effects = s.effects)
  | answered {state state' : JudgeStepState} (had : old.judge = some state)
      (has : new.judge = some state') (kept : SameRounds state state')
      (kind : new.agentKind = old.agentKind)
      (bar : firstBar t.resolved j = firstBar s.resolved j)
      (said : state'.status = .passed ->
        state'.resolution.map JudgeResolution.choice = some .proceed)
      (still : isParkedJudge new = true -> isParkedJudge old = true ∧
        new.approval = old.approval ∧ t.run.currentStep = s.run.currentStep ∧
        t.effects = s.effects)

structure ActSpec (registry : JudgeRegistry) (s t : JudgeSystem) (a : JudgeAction) :
    Prop where
  steps : forall (j : Nat) (new : Step), t.run.steps[j]? = some new ->
    exists old, s.run.steps[j]? = some old ∧ JudgeMove registry s t a j old new
  answered : forall entry, entry ∈ s.answered -> entry ∈ t.answered
  minted : forall id, id ∈ s.minted -> id ∈ t.minted
  effects : t.effects = s.effects ∨
    exists i id step, t.effects = (i, id) :: s.effects ∧ s.run.steps[i]? = some step ∧
      AnswersTo id step
  flight : forall b, b ∈ t.bouncing -> FlightOk t b
  passes : forall (j : Nat) (step : Step), s.run.steps[j]? = some step ->
    (registry.judge step.agentKind).isSome = true -> isPast j s.run = false ->
    isPast j t.run = true -> MovesPast registry s j a

section Actions

variable {registry : JudgeRegistry} {s t : JudgeSystem}

theorem FlightOk.moved {b : Bounce} (h : FlightOk s b) (hrev : t.rev = s.rev + 1) :
    FlightOk t b := by
  refine ⟨h.snapshot.moved ?_, h.waits, h.back⟩
  show s.rev < t.rev
  omega

/-- The step under the cursor is nobody's judge, and no step waits. -/
theorem JudgeInv.no_park (hs : JudgeInv registry s) (hworks : worksUnder registry s.run = true)
    {j : Nat} (hstep : s.run.steps[j]? = some step) :
    isParkedJudge step = false := by
  rw [Bool.eq_false_iff]
  intro hparked
  have hok := hs.steps j step hstep
  have hcursor := hok.cursor hparked
  rcases isParkedJudge_judge hparked with ⟨state, hstate, _⟩
  have hregistered := hok.registered (by rw [hstate]; rfl)
  simp only [worksUnder, stepUnder, <- hcursor, hstep, Option.any_some] at hworks
  rw [Option.isNone_iff_eq_none.mp hworks] at hregistered
  cases hregistered

theorem works_registered (hworks : worksUnder registry s.run = true)
    (hstep : s.run.steps[s.run.currentStep]? = some step) :
    (registry.judge step.agentKind).isSome = false := by
  simp only [worksUnder, stepUnder, hstep, Option.any_some] at hworks
  rw [Option.isNone_iff_eq_none.mp hworks]
  rfl

/-- A write that keeps every judge. -/
theorem quiet_spec {a : JudgeAction} {run : Run} (hs : JudgeInv registry s)
    (hkeeps : KeepsAll s.run.steps run.steps)
    (hstill : forall (j : Nat) (new : Step), run.steps[j]? = some new ->
      isParkedJudge new = true -> run.currentStep = s.run.currentStep)
    (hpasses : forall (j : Nat) (step : Step), s.run.steps[j]? = some step ->
      (registry.judge step.agentKind).isSome = true -> isPast j s.run = false ->
      isPast j run = true -> MovesPast registry s j a) :
    ActSpec registry s (s.saved run) a := by
  constructor
  · intro j new hnew
    rcases hkeeps j new hnew with ⟨old, hold, hk⟩
    refine ⟨old, hold, JudgeMove.kept hk rfl ?_⟩
    intro hparked
    exact ⟨hstill j new hnew hparked, rfl⟩
  · intro entry hentry
    exact hentry
  · intro id hid
    exact hid
  · exact Or.inl rfl
  · intro b hb
    exact (hs.flight b hb).moved rfl
  · exact hpasses

/-- A write of a handler that is not a judge's. -/
theorem works_spec {a : JudgeAction} {run : Run} (hs : JudgeInv registry s)
    (hworks : worksUnder registry s.run = true) (hkeeps : KeepsAll s.run.steps run.steps)
    (hgoes : Goes s.run run) : ActSpec registry s (s.saved run) a := by
  apply quiet_spec hs hkeeps
  · intro j new hnew hparked
    rcases hkeeps j new hnew with ⟨old, hold, hk⟩
    have hnot := hs.no_park hworks hold
    rw [(hk.park hparked).1] at hnot
    cases hnot
  · intro j step hstep hregistered hbefore hafter
    have hcursor := hgoes.past hstep hbefore hafter
    subst hcursor
    rw [works_registered hworks hstep] at hregistered
    cases hregistered

theorem write_spec {status : ExecutionStatus} (hs : JudgeInv registry s)
    (h : judgeAct registry s (.write step status) = some t) :
    ActSpec registry s t (.write step status) := by
  simp only [judgeAct] at h
  rcases Option.bind_eq_some_iff.mp h with ⟨old, hold, hif⟩
  split at hif
  · rename_i hguard
    rcases hguard with ⟨hworks, hkind, hjudge, hstatus⟩
    cases hif
    refine works_spec hs hworks ?_ ?_
    · intro j new hnew
      rcases set_step rfl hnew with ⟨rfl, rfl⟩ | ⟨_, hsame⟩
      · refine ⟨old, hold, hkind, hjudge, ?_⟩
        intro hparked
        rcases isParkedJudge_judge hparked with ⟨state, hstate, _⟩
        rw [hjudge] at hstate
        have hregistered := (hs.steps _ old hold).registered (by rw [hstate]; rfl)
        rw [works_registered hworks hold] at hregistered
        cases hregistered
      · exact ⟨new, hsame, Keeps.refl new⟩
    · exact ⟨Nat.le_succ _, fun hdone => absurd hdone hstatus⟩
  · cases hif

theorem settle_spec (hs : JudgeInv registry s) (h : judgeAct registry s (.settle now) = some t) :
    ActSpec registry s t (.settle now) := by
  simp only [judgeAct] at h
  split at h
  · rename_i hworks
    cases h
    exact works_spec hs hworks (advance_keepsAll now _ _) (advance_goes now s.run)
  · cases h

theorem judgeLoopBack_spec {now target : Nat} {rework : Rework} (hs : JudgeInv registry s)
    (h : judgeAct registry s (.loopBack now target rework) = some t) :
    ActSpec registry s t (.loopBack now target rework) := by
  simp only [judgeAct] at h
  split at h
  · rename_i hguard
    cases h
    exact works_spec hs hguard.1 (rerun_keepsAll now target _ rework s.run)
      (rerun_stays hguard.2).goes
  · cases h

theorem fail_spec (hs : JudgeInv registry s) (h : judgeAct registry s .fail = some t) :
    ActSpec registry s t .fail := by
  simp only [judgeAct] at h
  cases h
  apply quiet_spec hs
  · rw [failRun_steps]
    exact KeepsAll.refl _
  · intro _ _ _ _
    exact failRun_currentStep s.run
  · intro j step _ _ hbefore hafter
    exact absurd hafter ((failRun_stays rfl rfl).not_past hbefore)

theorem judgeGate_spec {id : String} (h : judgeGate registry s.run = some id) :
    exists step approval state, gateOf s.run id = some (s.run.currentStep, step, approval) ∧
      step.judge = some state ∧ (state.status = .passed ∨ state.status = .skipped) := by
  unfold judgeGate at h
  rcases Option.bind_eq_some_iff.mp h with ⟨⟨step, judge⟩, hunder, hif⟩
  rcases Option.bind_eq_some_iff.mp hunder with ⟨step', hstep, hjudge⟩
  rcases Option.map_eq_some_iff.mp hjudge with ⟨_, _, heq⟩
  cases heq
  simp only at hif
  split at hif
  · rename_i hover
    rcases Option.filter_eq_some_iff.mp hif with ⟨_, hgate⟩
    simp only [decide_eq_true_eq] at hgate
    rcases Option.map_eq_some_iff.mp hgate with ⟨⟨i, found, approval⟩, hfound, hi⟩
    cases hi
    have hat := (gateOf_spec hfound).1
    rw [stepUnder] at hstep
    rw [hstep] at hat
    cases hat
    cases hstate : step.judge with
    | none => simp [hstate] at hover
    | some state =>
        refine ⟨step, approval, state, hfound, hstate, ?_⟩
        simpa [hstate] using hover
  · cases hif

theorem approve_spec {proposal : Option String} {actor : GateActor} (hs : JudgeInv registry s)
    (h : judgeAct registry s (.approve now proposal actor) = some t) :
    ActSpec registry s t (.approve now proposal actor) := by
  simp only [judgeAct] at h
  rcases Option.bind_eq_some_iff.mp h with ⟨id, hgate, happrove⟩
  rcases Option.map_eq_some_iff.mp happrove with ⟨run, hok, ht⟩
  cases ht
  rcases judgeGate_spec hgate with ⟨step, approval, state, hfound, hstate, hover⟩
  have hstep := (gateOf_spec hfound).1
  have hidle : forall {new : Step}, new.judge = step.judge -> Not (isParkedJudge new = true) := by
    intro new hjudge hparked
    rcases isParkedJudge_judge hparked with ⟨state', hstate', hwaits⟩
    rw [hjudge, hstate] at hstate'
    cases hstate'
    rcases hover with hover | hover
    · rw [hwaits] at hover
      cases hover
    · rw [hwaits] at hover
      cases hover
  have hset {step' : Step} (hkind : step'.agentKind = step.agentKind)
      (hjudge : step'.judge = step.judge) :
      KeepsAll s.run.steps (s.run.steps.set s.run.currentStep step') := by
    intro j new hnew
    rcases set_step rfl hnew with ⟨rfl, rfl⟩ | ⟨_, hsame⟩
    · exact ⟨step, hstep, hkind, hjudge, fun hparked => absurd hparked (hidle hjudge)⟩
    · exact ⟨new, hsame, Keeps.refl new⟩
  have hpassed : forall (j : Nat) (x : Step), s.run.steps[j]? = some x ->
      j = s.run.currentStep ->
      MovesPast registry s j (.approve now proposal actor) := by
    intro j x hx hj
    subst hj
    exact MovesPast.approved hstep hstate hover
  rcases approveStep_cases hfound (except_toOption hok) with
    hsame | ⟨step', hkind, _, hjudge, hrewritten | hadvanced⟩
  · rw [hsame]
    apply quiet_spec hs (KeepsAll.refl _)
    · intro _ _ _ _
      rfl
    · intro j x _ _ hbefore hafter
      rw [hbefore] at hafter
      cases hafter
  · rw [hrewritten]
    apply quiet_spec hs (hset hkind hjudge)
    · intro _ _ _ _
      rfl
    · intro j x _ _ hbefore hafter
      exact absurd hafter ((Stays.mk (Nat.le_refl _) fun hdone => hdone).not_past hbefore)
  · rw [hadvanced]
    have hkeeps := (hset hkind hjudge).trans (advance_keepsAll now s.run.currentStep
      { s.run with steps := s.run.steps.set s.run.currentStep step' })
    apply quiet_spec hs hkeeps
    · intro j new hnew hparked
      rcases hkeeps j new hnew with ⟨old, hold, hk⟩
      have hcursor := (hs.steps j old hold).cursor (hk.park hparked).1
      subst hcursor
      rw [hstep] at hold
      cases hold
      exact absurd hparked (hidle hk.judge)
    · intro j x hx _ hbefore hafter
      have hgoes := advance_goes now
        { s.run with steps := s.run.steps.set s.run.currentStep step' }
      have hmoved : Goes s.run (advanceRunPastGate now s.run.currentStep
          { s.run with steps := s.run.steps.set s.run.currentStep step' }) := by
        refine ⟨hgoes.cursor, ?_⟩
        intro hdone
        rcases hgoes.done hdone with hwas | hlast
        · exact Or.inl hwas
        · right
          simpa using hlast
      exact hpassed j x hx (hmoved.past hx hbefore hafter)

end Actions

end Gates
end CatFactory
