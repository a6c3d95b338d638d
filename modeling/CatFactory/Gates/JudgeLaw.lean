import CatFactory.Gates.JudgeRounds

/-!
# The law of a judge

The invariant of the loop holds in every run; the bar and the cap flag need their
condition.
-/

namespace CatFactory
namespace Gates

open Execution (AgentState ExecutionStatus StepApprovalStatus ReworkRequester)
open Foundation Reviews

variable {a : JudgeAction}

/-!
## Evaluations, answers and rewinds
-/

section Actions

variable {registry : JudgeRegistry} {s t : JudgeSystem}

theorem firstBar_noteBar_self (i : Nat) (bar : Rat × Nat)
    (resolved : List (Nat × Rat × Nat)) :
    firstBar (noteBar i bar resolved) i = some ((firstBar resolved i).getD bar) := by
  unfold noteBar
  cases hfirst : firstBar resolved i with
  | none => simp [firstBar]
  | some known => simp [hfirst]

theorem firstBar_noteBar_ne {i j : Nat} (hne : j ≠ i) (bar : Rat × Nat)
    (resolved : List (Nat × Rat × Nat)) :
    firstBar (noteBar i bar resolved) j = firstBar resolved j := by
  unfold noteBar
  split
  · rfl
  · have hij : Not (i = j) := fun heq => hne heq.symm
    simp [firstBar, hij]

theorem judgeUnder_spec {run : Run} {step : Step} {judge : Judge}
    (h : judgeUnder registry run = some (step, judge)) :
    run.steps[run.currentStep]? = some step ∧ registry.judge step.agentKind = some judge := by
  rcases Option.bind_eq_some_iff.mp h with ⟨found, hfound, hjudge⟩
  rcases Option.map_eq_some_iff.mp hjudge with ⟨_, hregistered, heq⟩
  cases heq
  exact ⟨hfound, hregistered⟩

/-- Only a parked evaluation leaves the judge waiting. -/
theorem Evaluated.waits {judge : Judge} {r : Evaluation} {old : Step} {run run' : Run}
    {exit : JudgeExit} {state : JudgeStepState}
    (h : Evaluated judge r old run run' exit state) (hstatus : state.status = .awaitingDecision) :
    run'.currentStep = run.currentStep ∧
      forall new, run'.steps[run.currentStep]? = some new ->
        new.approval.map StepApproval.id = some r.approvalId := by
  cases h with
  | skipped _ _ => cases hstatus
  | passed _ _ _ _ _ => cases hstatus
  | failed _ _ _ _ => cases hstatus
  | bounced _ _ _ _ _ => cases hstatus
  | settledByPolicy _ _ _ _ => cases hstatus
  | parked _ _ _ asks cursor _ => exact ⟨cursor, asks⟩

/-- An evaluation that lets the run past its judge. -/
theorem Evaluated.past {judge : Judge} {r : Evaluation} {old : Step} {t : Run} {j : Nat}
    {step : Step} {exit : JudgeExit} {state : JudgeStepState}
    (hunder : judgeUnder registry s.run = some (old, judge))
    (h : Evaluated judge r old s.run t exit state) (hstep : s.run.steps[j]? = some step)
    (hbefore : isPast j s.run = false) (hafter : isPast j t = true) :
    MovesPast registry s j (.evaluate r) := by
  cases h with
  | skipped unwired moved => exact MovesPast.unwired (moved.past hstep hbefore hafter) unwired
  | passed assessed _ bar _ moved =>
      exact MovesPast.score hunder (moved.past hstep hbefore hafter) assessed bar
  | failed _ _ _ stays => exact absurd hafter (stays.not_past hbefore)
  | bounced _ _ _ _ stays => exact absurd hafter (stays.not_past hbefore)
  | settledByPolicy assessed _ policy moved =>
      exact MovesPast.policy hunder (moved.past hstep hbefore hafter) assessed policy
  | parked _ _ _ _ _ stays => exact absurd hafter (stays.not_past hbefore)

theorem roundsAt_eq {run : Run} {i : Nat} {step : Step} {state : JudgeStepState}
    (hstep : run.steps[i]? = some step) (hstate : step.judge = some state) :
    roundsAt run i = state.rounds.length := by
  simp [roundsAt, hstep, hstate]

theorem evaluate_act_spec {r : Evaluation} (hs : JudgeInv registry s)
    (h : judgeAct registry s (.evaluate r) = some t) :
    ActSpec registry s t (.evaluate r) := by
  simp only [judgeAct] at h
  split at h
  · rename_i hguard
    rcases Option.map_eq_some_iff.mp h with ⟨⟨old, judge⟩, hunder, ht⟩
    rcases judgeUnder_spec hunder with ⟨hold, hregistered⟩
    simp only at ht
    generalize hout : evaluate judge r old s.run = out at ht
    rcases evaluate_spec hold hout with ⟨state, hended, hwrote⟩
    cases ht
    constructor
    · intro j new hnew
      by_cases hj : j = s.run.currentStep
      · subst hj
        rcases hwrote.here new hnew with ⟨hhas, _, hsame, hkind⟩
        rw [hold] at hsame
        cases hsame
        refine ⟨old, hold, JudgeMove.evaluated rfl rfl hregistered hkind hunder hended hhas ?_ ?_ ?_
          hguard.2 (List.mem_cons_self) rfl⟩
        · show firstBar (if assesses r then _ else _) _ = _
          split
          · exact firstBar_noteBar_self _ _ _
          · rfl
        · intro hsettled
          show _ ∈ if out.2 = .settledByPolicy then _ else _
          rw [if_pos hsettled, <- roundsAt_eq hnew hhas]
          exact List.mem_cons_self
        · intro hparked
          rcases isParkedJudge_judge hparked with ⟨state', hstate', hwaits⟩
          rw [hhas] at hstate'
          cases hstate'
          exact (hended.waits hwaits).2 new hnew
      · rcases hwrote.others j new hj hnew with ⟨x, hx, hk⟩
        refine ⟨x, hx, JudgeMove.kept hk ?_ ?_⟩
        · show firstBar (if assesses r then _ else _) _ = _
          split
          · exact firstBar_noteBar_ne hj _ _
          · rfl
        · intro hparked
          exact absurd ((hs.steps j x hx).cursor (hk.park hparked).1) hj
    · intro entry hentry
      show entry ∈ if out.2 = .settledByPolicy then _ else _
      split
      · exact List.mem_cons_of_mem _ hentry
      · exact hentry
    · intro id hid
      exact List.mem_cons_of_mem _ hid
    · exact Or.inl rfl
    · intro b hb
      exact (hs.flight b hb).moved rfl
    · intro j step hstep _ hbefore hafter
      exact hended.past hunder hstep hbefore hafter
  · cases h

/-- A write of the judge that is answered. -/
theorem Answered.move {found : ParkedJudge} {choice : JudgeChoice} {rewind : Option Rewind}
    {state : JudgeStepState} (hs : JudgeInv registry s)
    (hfound : FoundParked registry s.run found)
    (h : Answered found s.run t.run choice rewind state)
    (hwrote : Wrote found.index state s.run t.run) (hresolved : t.resolved = s.resolved)
    (heffects : choice = .bounce -> t.effects = s.effects) {j : Nat} {new : Step}
    (hnew : t.run.steps[j]? = some new) :
    exists old, s.run.steps[j]? = some old ∧ JudgeMove registry s t a j old new := by
  have hcursor := (hs.steps _ _ hfound.step_at).cursor hfound.parked
  have hwaiting : found.state.status = .awaitingDecision := by
    rcases isParkedJudge_judge hfound.parked with ⟨state', hstate', hwaits⟩
    rw [hfound.state] at hstate'
    cases hstate'
    exact hwaits
  by_cases hj : j = found.index
  · subst hj
    rcases hwrote.here new hnew with ⟨hhas, old, hold, hkind⟩
    rw [hfound.step_at] at hold
    cases hold
    refine ⟨found.step, hfound.step_at, ?_⟩
    have hidle : state.status ≠ .awaitingDecision -> Not (isParkedJudge new = true) := by
      intro hne hparked
      rcases isParkedJudge_judge hparked with ⟨state', hstate', hwaits⟩
      rw [hhas] at hstate'
      cases hstate'
      exact hne hwaits
    cases h with
    | proceed moved cursor same length kept status said =>
        refine JudgeMove.answered hfound.state hhas kept hkind ?_ (fun _ => said) ?_
        · rw [hresolved]
        · intro hparked
          exact absurd hparked (hidle (by rw [status]; decide))
    | stop kept status cursor same =>
        refine JudgeMove.answered hfound.state hhas kept hkind ?_ ?_ ?_
        · rw [hresolved]
        · intro hpassed
          rw [status] at hpassed
          cases hpassed
        · intro hparked
          exact absurd hparked (hidle (by rw [status]; decide))
    | bounce kept status index back asks waits cursor same =>
        refine JudgeMove.answered hfound.state hhas kept hkind ?_ ?_ ?_
        · rw [hresolved]
        · intro hpassed
          rw [status, hwaiting] at hpassed
          cases hpassed
        · intro _
          rcases waits with ⟨new', hnew', _, happroval⟩
          rw [hnew] at hnew'
          cases hnew'
          refine ⟨hfound.parked, ?_, cursor, heffects rfl⟩
          rw [happroval, hfound.approval]
  · rcases hwrote.others j new hj hnew with ⟨old, hold, hk⟩
    refine ⟨old, hold, JudgeMove.kept hk (by rw [hresolved]) ?_⟩
    intro hparked
    have hat := (hs.steps j old hold).cursor (hk.park hparked).1
    exact absurd (hat.trans hcursor.symm) hj

theorem FoundParked.answersTo {run : Run} {found : ParkedJudge}
    (h : FoundParked registry run found) : AnswersTo found.approval.id found.step := by
  refine ⟨h.parked, ?_⟩
  rw [h.approval]
  rfl

theorem Answered.past {found : ParkedJudge} {choice : JudgeChoice} {rewind : Option Rewind}
    {state : JudgeStepState} {now : Nat} {feedback : Option String} {j : Nat} {step : Step}
    (hs : JudgeInv registry s) (hfound : FoundParked registry s.run found)
    (h : Answered found s.run t.run choice rewind state)
    (hstep : s.run.steps[j]? = some step) (hbefore : isPast j s.run = false)
    (hafter : isPast j t.run = true) : MovesPast registry s j (.answer now choice feedback) := by
  have hcursor := (hs.steps _ _ hfound.step_at).cursor hfound.parked
  cases h with
  | @proceed at_ base _ moved cursor same length kept status said =>
      have hgoes : Goes s.run t.run := by
        have hbase := advance_goes at_ base
        rw [cursor, <- hcursor, <- moved] at hbase
        constructor
        · rw [<- cursor]
          exact hbase.cursor
        · intro hdone
          rw [<- same, <- cursor, <- length]
          exact hbase.done hdone
      have hj := hgoes.past hstep hbefore hafter
      rw [<- hcursor] at hj
      subst hj
      exact MovesPast.proceed hfound.step_at hfound.parked
  | stop kept status cursor same =>
      have hstays : Stays s.run t.run := ⟨Nat.le_of_eq cursor, fun hdone => same ▸ hdone⟩
      exact absurd hafter (hstays.not_past hbefore)
  | bounce kept status index back asks waits cursor same =>
      have hstays : Stays s.run t.run := ⟨Nat.le_of_eq cursor, fun hdone => same ▸ hdone⟩
      exact absurd hafter (hstays.not_past hbefore)

theorem answer_spec {now : Nat} {choice : JudgeChoice} {feedback : Option String}
    (hs : JudgeInv registry s)
    (h : judgeAct registry s (.answer now choice feedback) = some t) :
    ActSpec registry s t (.answer now choice feedback) := by
  simp only [judgeAct] at h
  rcases Option.bind_eq_some_iff.mp h with ⟨found, hfind, hrecord⟩
  have hfound := findParkedJudge_spec (except_toOption hfind)
  rcases Option.map_eq_some_iff.mp hrecord with ⟨⟨run, rewind⟩, hok, ht⟩
  rcases recordJudgeAnswer_spec hfound (except_toOption hok) with ⟨state, hanswered, hwrote⟩
  cases rewind with
  | none =>
      simp only at ht
      subst ht
      constructor
      · intro j new hnew
        refine hanswered.move hs hfound hwrote ?_ ?_ hnew
        · rfl
        · intro hbounce
          subst hbounce
          cases hanswered
      · intro entry hentry
        exact hentry
      · intro id hid
        exact hid
      · exact Or.inr ⟨found.index, found.approval.id, found.step, rfl, hfound.step_at,
          hfound.answersTo⟩
      · intro b hb
        exact (hs.flight b hb).moved rfl
      · intro j step hstep _ hbefore hafter
        exact hanswered.past hs hfound hstep hbefore hafter
  | some rewind =>
      simp only at ht
      subst ht
      constructor
      · intro j new hnew
        refine hanswered.move hs hfound hwrote ?_ ?_ hnew
        · rfl
        · intro _
          rfl
      · intro entry hentry
        exact hentry
      · intro id hid
        exact hid
      · exact Or.inl rfl
      · intro b hb
        rcases List.mem_cons.mp hb with rfl | hmem
        · cases hanswered with
          | bounce kept status index back asks waits cursor same =>
              rcases waits with ⟨new, hnew, hparked, happroval⟩
              refine ⟨Snapshot.fresh _ _, ⟨new, ?_, hparked, ?_⟩, back⟩
              · rw [index]
                exact hnew
              · rw [happroval, asks]
                rfl
        · exact (hs.flight b hmem).moved rfl
      · intro j step hstep _ hbefore hafter
        exact hanswered.past hs hfound hstep hbefore hafter

theorem rewind_spec {now : Nat} {bounce : Bounce} (hs : JudgeInv registry s)
    (h : judgeAct registry s (.rewind now bounce) = some t) :
    ActSpec registry s t (.rewind now bounce) := by
  simp only [judgeAct] at h
  split at h
  · rename_i hmem
    have hflight := hs.flight bounce hmem
    split at h
    · rename_i hrev
      cases h
      have hrun : bounce.run = s.run :=
        congrArg Prod.fst (hflight.snapshot.same_of_rev hrev)
      rcases hflight.waits with ⟨step, hstep, hanswers⟩
      rw [hrun] at hstep
      have hcursor := (hs.steps _ _ hstep).cursor hanswers.1
      rcases isParkedJudge_judge hanswers.1 with ⟨state, hstate, _⟩
      have hwrote := @rewindForBounce_spec now step bounce.rewind s.run state hstep hstate
        hflight.back
      constructor
      · intro j new hnew
        simp only [JudgeSystem.saved, hrun] at hnew
        by_cases hj : j = bounce.rewind.index
        · subst hj
          rcases hwrote.1.here new hnew with ⟨hhas, old, hold, hkind⟩
          rw [hstep] at hold
          cases hold
          refine ⟨step, hstep, JudgeMove.answered hstate hhas ?_ hkind rfl ?_ ?_⟩
          · exact ⟨rfl, rfl, rfl, rfl, rfl⟩
          · intro hpassed
            cases hpassed
          · intro hparked
            rcases isParkedJudge_approval hparked with ⟨approval, happroval⟩
            rw [hwrote.2 new hnew] at happroval
            cases happroval
        · rcases hwrote.1.others j new hj hnew with ⟨old, hold, hk⟩
          refine ⟨old, hold, JudgeMove.kept hk rfl ?_⟩
          intro hparked
          have hat := (hs.steps j old hold).cursor (hk.park hparked).1
          exact absurd (hat.trans hcursor.symm) hj
      · intro entry hentry
        exact hentry
      · intro id hid
        exact hid
      · exact Or.inr ⟨_, _, step, rfl, hstep, hanswers⟩
      · intro b hb
        exact (hs.flight b (List.mem_of_mem_erase hb)).moved rfl
      · intro j x hx _ hbefore hafter
        simp only [JudgeSystem.saved, hrun] at hafter
        have hstays : Stays s.run (rewindForBounce now bounce.rewind s.run) := by
          constructor
          · show bounce.rewind.target ≤ s.run.currentStep
            rw [<- hcursor]
            exact Nat.le_of_lt hflight.back
          · exact unblock_done
        exact absurd hafter (hstays.not_past hbefore)
    · cases h
      constructor
      · intro j new hnew
        exact ⟨new, hnew, JudgeMove.kept (Keeps.refl new) rfl fun _ => ⟨rfl, rfl⟩⟩
      · intro entry hentry
        exact hentry
      · intro id hid
        exact hid
      · exact Or.inl rfl
      · intro b hb
        have hbefore := hs.flight b (List.mem_of_mem_erase hb)
        exact ⟨hbefore.snapshot, hbefore.waits, hbefore.back⟩
      · intro j x _ _ hbefore hafter
        rw [hbefore] at hafter
        cases hafter
  · cases h

theorem judgeAct_spec (hs : JudgeInv registry s)
    (h : judgeAct registry s a = some t) : ActSpec registry s t a := by
  cases a with
  | write step status => exact write_spec hs h
  | settle now => exact settle_spec hs h
  | loopBack now target rework => exact judgeLoopBack_spec hs h
  | evaluate r => exact evaluate_act_spec hs h
  | answer now choice feedback => exact answer_spec hs h
  | rewind now bounce => exact rewind_spec hs h
  | approve now proposal actor => exact approve_spec hs h
  | fail => exact fail_spec hs h

end Actions

/-!
## What every run keeps
-/

section Sound

variable {registry : JudgeRegistry} {s t : JudgeSystem}

theorem openRound_some {judge : Judge} {r : Evaluation} {old : Step} {state : JudgeStepState}
    (h : old.judge = some state) : SameRounds state (openRound judge r old) := by
  unfold openRound initState
  rw [h]
  exact ⟨rfl, rfl, rfl, rfl, rfl⟩

theorem openRound_none {judge : Judge} {r : Evaluation} {old : Step} (h : old.judge = none) :
    (openRound judge r old).rounds = [] ∧ (openRound judge r old).bounces = 0 ∧
      (openRound judge r old).threshold = some (judge.bar r.preset).1 ∧
      (openRound judge r old).maxBounces = (judge.bar r.preset).2 ∧
      (openRound judge r old).capSettledByPolicy = false := by
  unfold openRound initState
  rw [h]
  exact ⟨rfl, rfl, rfl, rfl, rfl⟩

theorem openRound_budget {judge : Judge} {r : Evaluation} {old : Step}
    (h : forall state, old.judge = some state ->
      state.bounces = bouncesIn state.rounds ∧ state.bounces ≤ state.maxBounces) :
    (openRound judge r old).bounces = bouncesIn (openRound judge r old).rounds ∧
      (openRound judge r old).bounces ≤ (openRound judge r old).maxBounces := by
  cases hjudge : old.judge with
  | none =>
      rcases @openRound_none judge r old hjudge with ⟨hrounds, hbounces, _, _, _⟩
      rw [hrounds, hbounces]
      exact ⟨rfl, Nat.zero_le _⟩
  | some state =>
      have hsame := @openRound_some judge r old state hjudge
      rw [hsame.rounds, hsame.bounces, hsame.maxBounces]
      exact h state hjudge

theorem settledRound_rounds (judge : Judge) (r : Evaluation)
    (decision : JudgeDispositionResult) (old : Step) :
    exists round, (settledRound judge r decision old).rounds =
        (openRound judge r old).rounds ++ [round] ∧
      round.verdict = (assess judge r.reply).1 ∧ round.disposition = decision.disposition :=
  ⟨_, rfl, rfl, rfl⟩

theorem bouncesIn_append {rounds : List JudgeRound} {round : JudgeRound} :
    bouncesIn (rounds ++ [round]) =
      bouncesIn rounds + if round.disposition = .bounce then 1 else 0 := by
  simp [bouncesIn, List.countP_append, List.countP_singleton]

/-- A recorded round that bounces nothing leaves the budget as it was. -/
theorem settledRound_budget {judge : Judge} {r : Evaluation}
    {decision : JudgeDispositionResult} {old : Step}
    (h : forall state, old.judge = some state ->
      state.bounces = bouncesIn state.rounds ∧ state.bounces ≤ state.maxBounces)
    (hdecision : decision.disposition ≠ .bounce) :
    (settledRound judge r decision old).bounces =
        bouncesIn (settledRound judge r decision old).rounds ∧
      (settledRound judge r decision old).bounces ≤
        (settledRound judge r decision old).maxBounces := by
  rcases settledRound_rounds judge r decision old with ⟨round, hrounds, _, hround⟩
  have hopen := @openRound_budget judge r old h
  rw [hrounds, bouncesIn_append, hround, if_neg hdecision]
  exact hopen

/-- The budget and the reason hold of the state an evaluation leaves. -/
theorem Evaluated.sound {judge : Judge} {r : Evaluation} {old : Step} {run run' : Run}
    {exit : JudgeExit} {state : JudgeStepState} {answered answered' : List (Nat × Nat)} {i : Nat}
    (h : Evaluated judge r old run run' exit state)
    (hold : forall state, old.judge = some state -> JudgeOk answered i state)
    (hanswered : exit = .settledByPolicy -> (i, state.rounds.length) ∈ answered') :
    JudgeOk answered' i state := by
  have hbudget : forall state, old.judge = some state ->
      state.bounces = bouncesIn state.rounds ∧ state.bounces ≤ state.maxBounces := by
    intro state hstate
    exact ⟨(hold state hstate).bounces_eq, (hold state hstate).bounces_le⟩
  cases h with
  | skipped unwired moved =>
      have hskip : (passThrough judge r.assessorEnabled old.judge).1.bounces =
          bouncesIn (passThrough judge r.assessorEnabled old.judge).1.rounds ∧
          (passThrough judge r.assessorEnabled old.judge).1.bounces ≤
            (passThrough judge r.assessorEnabled old.judge).1.maxBounces := by
        cases hjudge : old.judge with
        | none => exact ⟨rfl, Nat.le_refl _⟩
        | some state => exact hbudget state hjudge
      exact ⟨hskip.1, hskip.2, fun hpassed => by cases hpassed⟩
  | @passed assessed decision disposed bar unanswered moved =>
      have hkept := @settledRound_budget judge r decision old hbudget
        (by rw [disposed]; decide)
      refine ⟨hkept.1, hkept.2, ?_⟩
      intro _
      rcases settledRound_rounds judge r decision old with ⟨round, hrounds, hverdict, _⟩
      refine Or.inl ⟨round, ?_, ?_⟩
      · show (settledRound judge r decision old).rounds.getLast? = some round
        rw [hrounds, List.getLast?_append]
        rfl
      · rw [hverdict]
        exact bar
  | @failed assessed decision disposed unanswered stays =>
      have hkept := @settledRound_budget judge r decision old hbudget
        (by rw [disposed]; decide)
      exact ⟨hkept.1, hkept.2, fun hpassed => by cases hpassed⟩
  | @bounced assessed decision disposed spare unanswered stays =>
      have hopen := @openRound_budget judge r old hbudget
      rcases settledRound_rounds judge r decision old with ⟨round, hrounds, _, hround⟩
      refine ⟨?_, spare, fun hpassed => by cases hpassed⟩
      show (openRound judge r old).bounces + 1 =
        bouncesIn (settledRound judge r decision old).rounds
      rw [hrounds, bouncesIn_append, hround, disposed, if_pos rfl, hopen.1]
  | @settledByPolicy assessed decision disposed policy moved =>
      have hkept := @settledRound_budget judge r decision old hbudget
        (by rw [disposed]; decide)
      exact ⟨hkept.1, hkept.2, fun _ => Or.inr (Or.inl (hanswered rfl))⟩
  | @parked assessed decision disposed unanswered asks cursor stays =>
      have hkept := @settledRound_budget judge r decision old hbudget
        (by rw [disposed]; decide)
      exact ⟨hkept.1, hkept.2, fun hpassed => by cases hpassed⟩

theorem JudgeOk.grows {answered answered' : List (Nat × Nat)} {i : Nat}
    {state : JudgeStepState} (h : JudgeOk answered i state)
    (hgrows : forall entry, entry ∈ answered -> entry ∈ answered') :
    JudgeOk answered' i state := by
  refine ⟨h.bounces_eq, h.bounces_le, ?_⟩
  intro hpassed
  rcases h.passed hpassed with hbar | hpolicy | hperson
  · exact Or.inl hbar
  · exact Or.inr (Or.inl (hgrows _ hpolicy))
  · exact Or.inr (Or.inr hperson)

theorem JudgeStepOk.move {j : Nat} {old new : Step} (hs : JudgeInv registry s)
    (hspec : ActSpec registry s t a) (hold : JudgeStepOk registry s j old)
    (hmove : JudgeMove registry s t a j old new) : JudgeStepOk registry t j new := by
  cases hmove with
  | kept keeps bar still =>
      refine ⟨?_, ?_, ?_, ?_⟩
      · rw [keeps.judge, keeps.kind]
        exact hold.registered
      · intro state hstate
        rw [keeps.judge] at hstate
        exact (hold.sound state hstate).grows hspec.answered
      · intro hparked
        rw [(still hparked).1]
        exact hold.cursor (keeps.park hparked).1
      · intro id hanswers
        rcases keeps.park hanswers.1 with ⟨hparked, happroval⟩
        have hopen := hold.open_park id ⟨hparked, happroval ▸ hanswers.2⟩
        rw [(still hanswers.1).2]
        exact ⟨hspec.minted id hopen.1, hopen.2⟩
  | @evaluated judge r exit state evaluation cursor registered kind action ended has bar answered asks
      fresh minted effects =>
      refine ⟨?_, ?_, ?_, ?_⟩
      · intro _
        rw [kind, registered]
        rfl
      · intro state' hstate'
        rw [has] at hstate'
        cases hstate'
        exact ended.sound hold.sound answered
      · intro hparked
        rcases isParkedJudge_judge hparked with ⟨state', hstate', hwaits⟩
        rw [has] at hstate'
        cases hstate'
        rw [(ended.waits hwaits).1]
        exact cursor
      · intro id hanswers
        have hid := asks hanswers.1
        rw [hanswers.2] at hid
        cases hid
        rw [effects]
        exact ⟨minted, fun hmem => fresh (hs.minted _ _ hmem)⟩
  | @answered state state' had has kept kind bar said still =>
      have hsound := hold.sound state had
      refine ⟨?_, ?_, ?_, ?_⟩
      · intro _
        rw [kind]
        exact hold.registered (by rw [had]; rfl)
      · intro found hfound
        rw [has] at hfound
        cases hfound
        refine ⟨?_, ?_, ?_⟩
        · rw [kept.bounces, kept.rounds]
          exact hsound.bounces_eq
        · rw [kept.bounces, kept.maxBounces]
          exact hsound.bounces_le
        · intro hpassed
          exact Or.inr (Or.inr (said hpassed))
      · intro hparked
        rcases still hparked with ⟨hbefore, _, hcursor, _⟩
        rw [hcursor]
        exact hold.cursor hbefore
      · intro id hanswers
        rcases still hanswers.1 with ⟨hbefore, happroval, _, heffects⟩
        have hopen := hold.open_park id ⟨hbefore, happroval ▸ hanswers.2⟩
        rw [heffects]
        exact ⟨hspec.minted id hopen.1, hopen.2⟩

theorem judgeInv_step (hs : JudgeInv registry s)
    (hspec : ActSpec registry s t a) : JudgeInv registry t := by
  refine ⟨?_, ?_, ?_, hspec.flight⟩
  · intro j new hnew
    rcases hspec.steps j new hnew with ⟨old, hold, hmove⟩
    exact (hs.steps j old hold).move hs hspec hmove
  · rcases hspec.effects with hsame | ⟨i, id, step, heq, hstep, hanswers⟩
    · rw [hsame]
      exact hs.once
    · rw [heq, List.nodup_cons]
      exact ⟨((hs.steps i step hstep).open_park id hanswers).2, hs.once⟩
  · intro j id' hmem
    rcases hspec.effects with hsame | ⟨i, id, step, heq, hstep, hanswers⟩
    · rw [hsame] at hmem
      exact hspec.minted _ (hs.minted j id' hmem)
    · rw [heq] at hmem
      rcases List.mem_cons.mp hmem with hhead | htail
      · cases hhead
        exact hspec.minted _ ((hs.steps _ step hstep).open_park _ hanswers).1
      · exact hspec.minted _ (hs.minted j id' htail)

/-- A run whose judges have not been reached. -/
structure UnjudgedRun where
  run : Run
  unjudged : forall step, step ∈ run.steps -> step.judge = none

def UnjudgedRun.system (start : UnjudgedRun) : JudgeSystem :=
  { run := start.run }

theorem UnjudgedRun.inv (start : UnjudgedRun) : JudgeInv registry start.system := by
  refine ⟨?_, List.nodup_nil, ?_, ?_⟩
  · intro i step hstep
    have hnone := start.unjudged step (List.mem_of_getElem? hstep)
    have hidle : Not (isParkedJudge step = true) := by
      intro hparked
      rcases isParkedJudge_judge hparked with ⟨state, hstate, _⟩
      rw [hnone] at hstate
      cases hstate
    refine ⟨?_, ?_, ?_, ?_⟩
    · intro hhas
      rw [hnone] at hhas
      cases hhas
    · intro state hstate
      rw [hnone] at hstate
      cases hstate
    · intro hparked
      exact absurd hparked hidle
    · intro id hanswers
      exact absurd hanswers.1 hidle
  · intro i id hmem
    cases hmem
  · intro b hb
    cases hb

/-!
## What the condition keeps
-/

/-- The bar of a judge is the one its first assessment resolved, and its cap flag
stands only while the last round is the one the policy answered. -/
def BarOk (s : JudgeSystem) (i : Nat) : Option JudgeStepState -> Prop
  | none => firstBar s.resolved i = none
  | some state =>
      ((firstBar s.resolved i = none ∧ state.threshold = none ∧ state.rounds = []) ∨
        exists threshold maxBounces,
          firstBar s.resolved i = some (threshold, maxBounces) ∧
          state.threshold = some threshold ∧ state.maxBounces = maxBounces) ∧
      (state.capSettledByPolicy = true -> (i, state.rounds.length) ∈ s.answered)

def BarsOk (s : JudgeSystem) : Prop :=
  forall (i : Nat) (step : Step), s.run.steps[i]? = some step -> BarOk s i step.judge

/-- The bar and the cap do not depend on what else the state says. -/
theorem BarOk.same {i : Nat} {state state' : JudgeStepState} (h : BarOk s i (some state))
    (hsame : SameRounds state state')
    (hbar : firstBar t.resolved i = firstBar s.resolved i)
    (hanswered : forall entry, entry ∈ s.answered -> entry ∈ t.answered) :
    BarOk t i (some state') := by
  rcases h with ⟨hresolved, hcap⟩
  constructor
  · rw [hbar, hsame.threshold, hsame.rounds, hsame.maxBounces]
    exact hresolved
  · rw [hsame.cap, hsame.rounds]
    exact fun hset => hanswered _ (hcap hset)

/-- A round that is assessed holds its judge to the bar of the first one. -/
theorem openRound_bar {judge : Judge} {r : Evaluation} {old : Step} {i : Nat}
    (hold : BarOk s i old.judge)
    (hforce : forall state, old.judge = some state -> state.threshold.isSome = true) :
    (openRound judge r old).threshold =
        some ((firstBar s.resolved i).getD (judge.bar r.preset)).1 ∧
      (openRound judge r old).maxBounces =
        ((firstBar s.resolved i).getD (judge.bar r.preset)).2 := by
  cases hjudge : old.judge with
  | none =>
      rw [hjudge] at hold
      rcases @openRound_none judge r old hjudge with ⟨_, _, hthreshold, hmax, _⟩
      have hnone : firstBar s.resolved i = none := hold
      rw [hnone, hthreshold, hmax]
      exact ⟨rfl, rfl⟩
  | some state =>
      rw [hjudge] at hold
      have hsame := @openRound_some judge r old state hjudge
      have hset := hforce state hjudge
      rw [hsame.threshold, hsame.maxBounces]
      rcases hold.1 with ⟨_, hthreshold, _⟩ | ⟨threshold, maxBounces, hfirst, ht, hm⟩
      · rw [hthreshold] at hset
        cases hset
      · rw [hfirst, ht, hm]
        exact ⟨rfl, rfl⟩

/-- After an assessment, whatever else it wrote. -/
theorem barOk_settled {judge : Judge} {r : Evaluation} {old : Step} {i : Nat}
    {state : JudgeStepState} (hold : BarOk s i old.judge)
    (hforce : forall state, old.judge = some state -> state.threshold.isSome = true)
    (hbar : firstBar t.resolved i =
      some ((firstBar s.resolved i).getD (judge.bar r.preset)))
    (hthreshold : state.threshold = (openRound judge r old).threshold)
    (hmax : state.maxBounces = (openRound judge r old).maxBounces)
    (hcap : state.capSettledByPolicy = true -> (i, state.rounds.length) ∈ t.answered) :
    BarOk t i (some state) := by
  have hopen := @openRound_bar s judge r old i hold hforce
  refine ⟨Or.inr ⟨_, _, hbar, ?_, ?_⟩, hcap⟩
  · rw [hthreshold]
    exact hopen.1
  · rw [hmax]
    exact hopen.2

/-- A judge that assesses, in force, has a bar; its cap flag is clear unless the
policy answers this round too. -/
theorem inForce_spec {r : Evaluation} {judge : Judge} {old : Step} {state : JudgeStepState}
    (hok : barInForce registry s (.evaluate r) = true) (hassess : assesses r = true)
    (hunder : judgeUnder registry s.run = some (old, judge))
    (hstate : old.judge = some state) :
    state.threshold.isSome = true ∧
      (state.capSettledByPolicy = false ∨ policyAnswers judge r s.run state = true) := by
  simp only [barInForce, hassess, Bool.not_true, Bool.false_or, hunder, Option.all_some, hstate,
    Bool.and_eq_true, Bool.or_eq_true, Bool.not_eq_true'] at hok
  exact hok

theorem policyAnswers_same {judge : Judge} {r : Evaluation} {run : Run}
    {state state' : JudgeStepState} (h : SameRounds state state') :
    policyAnswers judge r run state' = policyAnswers judge r run state := by
  unfold policyAnswers
  rw [h.threshold, h.maxBounces, h.bounces]

theorem Evaluated.barOk {judge : Judge} {r : Evaluation} {old : Step} {run' : Run}
    {exit : JudgeExit} {state : JudgeStepState} {i : Nat}
    (h : Evaluated judge r old s.run run' exit state) (hold : BarOk s i old.judge)
    (hok : barInForce registry s (.evaluate r) = true)
    (hunder : judgeUnder registry s.run = some (old, judge))
    (hbar : firstBar t.resolved i =
      if assesses r then some ((firstBar s.resolved i).getD (judge.bar r.preset))
      else firstBar s.resolved i)
    (hgrows : forall entry, entry ∈ s.answered -> entry ∈ t.answered)
    (hanswered : exit = .settledByPolicy -> (i, state.rounds.length) ∈ t.answered) :
    BarOk t i (some state) := by
  have hforce (hassess : assesses r = true) : forall state, old.judge = some state ->
      state.threshold.isSome = true := by
    intro found hfound
    exact (inForce_spec hok hassess hunder hfound).1
  have hunflagged (hassess : assesses r = true)
      (hno : policyAnswers judge r s.run (openRound judge r old) = false)
      {found : JudgeStepState}
      (hsame : found.capSettledByPolicy = (openRound judge r old).capSettledByPolicy) :
      found.capSettledByPolicy = true -> (i, found.rounds.length) ∈ t.answered := by
    intro hset
    rw [hsame] at hset
    cases hjudge : old.judge with
    | none =>
        rw [(@openRound_none judge r old hjudge).2.2.2.2] at hset
        cases hset
    | some before =>
        have hopen := @openRound_some judge r old before hjudge
        rw [hopen.cap] at hset
        rcases (inForce_spec hok hassess hunder hjudge).2 with hfalse | hyes
        · rw [hfalse] at hset
          cases hset
        · rw [<- policyAnswers_same hopen, hno] at hyes
          cases hyes
  cases h with
  | skipped unwired moved =>
      rw [unwired] at hbar
      cases hjudge : old.judge with
      | none =>
          rw [hjudge] at hold
          exact ⟨Or.inl ⟨hbar.trans hold, rfl, rfl⟩, fun hset => by cases hset⟩
      | some found =>
          rw [hjudge] at hold
          exact hold.same ⟨rfl, rfl, rfl, rfl, rfl⟩ hbar hgrows
  | passed assessed disposed bar unanswered moved =>
      rw [if_pos assessed] at hbar
      exact barOk_settled hold (hforce assessed) hbar rfl rfl
        (hunflagged assessed unanswered rfl)
  | failed assessed disposed unanswered stays =>
      rw [if_pos assessed] at hbar
      exact barOk_settled hold (hforce assessed) hbar rfl rfl
        (hunflagged assessed unanswered rfl)
  | bounced assessed disposed spare unanswered stays =>
      rw [if_pos assessed] at hbar
      exact barOk_settled hold (hforce assessed) hbar rfl rfl
        (hunflagged assessed unanswered rfl)
  | settledByPolicy assessed disposed policy moved =>
      rw [if_pos assessed] at hbar
      exact barOk_settled hold (hforce assessed) hbar rfl rfl fun _ => hanswered rfl
  | parked assessed disposed unanswered asks cursor stays =>
      rw [if_pos assessed] at hbar
      exact barOk_settled hold (hforce assessed) hbar rfl rfl
        (hunflagged assessed unanswered rfl)

/-- One action keeps every bar and every cap flag. -/
theorem barsOk_step (hbars : BarsOk s) (hok : barInForce registry s a = true)
    (hstep : judgeAct registry s a = some t) (hspec : ActSpec registry s t a) : BarsOk t := by
  intro j new hnew
  rcases hspec.steps j new hnew with ⟨old, hold, hmove⟩
  have hbefore := hbars j old hold
  cases hmove with
  | kept keeps bar still =>
      rw [keeps.judge]
      cases hjudge : old.judge with
      | none =>
          rw [hjudge] at hbefore
          exact bar.trans hbefore
      | some state =>
          rw [hjudge] at hbefore
          exact hbefore.same ⟨rfl, rfl, rfl, rfl, rfl⟩ bar hspec.answered
  | evaluated evaluation cursor registered kind action ended has bar answered asks fresh
      minted effects =>
      subst evaluation
      rw [has]
      exact ended.barOk hbefore hok action bar hspec.answered answered
  | answered had has kept kind bar said still =>
      rw [has]
      rw [had] at hbefore
      exact hbefore.same kept bar hspec.answered

/-!
## The laws
-/

/-- What every state of a run says about its judges. -/
structure JudgeLaw (s : JudgeSystem) : Prop where
  budget : forall (i : Nat) (step : Step) (state : JudgeStepState),
    s.run.steps[i]? = some step -> step.judge = some state ->
      state.bounces = bouncesIn state.rounds ∧ state.bounces ≤ state.maxBounces
  passed : forall (i : Nat) (step : Step) (state : JudgeStepState),
    s.run.steps[i]? = some step -> step.judge = some state -> state.status = .passed ->
      PassedFor s.answered i state
  once : s.effects.Nodup

/-- The bar is the one the first assessment resolved, and the cap flag is the last
round's. -/
structure BarLaw (s : JudgeSystem) : Prop where
  bar : forall (i : Nat) (step : Step) (state : JudgeStepState),
    s.run.steps[i]? = some step -> step.judge = some state -> state.rounds ≠ [] ->
      exists threshold maxBounces, firstBar s.resolved i = some (threshold, maxBounces) ∧
        state.threshold = some threshold ∧ state.maxBounces = maxBounces
  cap : forall (i : Nat) (step : Step) (state : JudgeStepState),
    s.run.steps[i]? = some step -> step.judge = some state ->
      state.capSettledByPolicy = true -> (i, state.rounds.length) ∈ s.answered

/-- What one action may do. -/
structure JudgeActLaw (registry : JudgeRegistry) (s t : JudgeSystem) (a : JudgeAction) :
    Prop where
  passes : forall (j : Nat) (step : Step), s.run.steps[j]? = some step ->
    (registry.judge step.agentKind).isSome = true -> isPast j s.run = false ->
    isPast j t.run = true -> MovesPast registry s j a
  throws : forall (r : Evaluation) (reason : String) (judge : Judge) (step : Step),
    a = .evaluate r -> judgeUnder registry s.run = some (step, judge) ->
    r.reply = .error reason -> 0 < barOf judge r step ->
    isPast s.run.currentStep s.run = false -> isPast s.run.currentStep t.run = true ->
      assesses r = false ∨ policyAnswers judge r s.run (openRound judge r step) = true
  resolved : forall (i : Nat) (bar : Rat × Nat), firstBar s.resolved i = some bar ->
    (t.run.steps[i]?).isSome = true -> firstBar t.resolved i = some bar
  answers : t.effects = s.effects ∨
    exists i id step, t.effects = (i, id) :: s.effects ∧ s.run.steps[i]? = some step ∧
      AnswersTo id step

theorem judgeLaw_of_inv (hs : JudgeInv registry s) : JudgeLaw s := by
  constructor
  · intro i step state hstep hstate
    have hok := (hs.steps i step hstep).sound state hstate
    exact ⟨hok.bounces_eq, hok.bounces_le⟩
  · intro i step state hstep hstate hpassed
    exact ((hs.steps i step hstep).sound state hstate).passed hpassed
  · exact hs.once

theorem barLaw_of_bars (h : BarsOk s) : BarLaw s := by
  constructor
  · intro i step state hstep hstate hrounds
    have hok := h i step hstep
    rw [hstate] at hok
    rcases hok.1 with ⟨_, _, hnone⟩ | hbar
    · exact absurd hnone hrounds
    · exact hbar
  · intro i step state hstep hstate
    have hok := h i step hstep
    rw [hstate] at hok
    exact hok.2

theorem judgeActLaw_of_spec (hspec : ActSpec registry s t a) :
    JudgeActLaw registry s t a := by
  refine ⟨hspec.passes, ?_, ?_, hspec.effects⟩
  · intro r reason judge step ha hunder hthrown hpositive hbefore hafter
    rcases judgeUnder_spec hunder with ⟨hstep, hregistered⟩
    have hmoves := hspec.passes _ step hstep (by rw [hregistered]; rfl) hbefore hafter
    subst ha
    cases hmoves with
    | score hunder' _ assessed bar =>
        rw [hunder] at hunder'
        cases hunder'
        rw [hthrown] at bar
        exact absurd bar (not_le.mpr hpositive)
    | policy hunder' _ assessed answers =>
        rw [hunder] at hunder'
        cases hunder'
        exact Or.inr answers
    | unwired _ hunwired => exact Or.inl hunwired
  · intro i bar hbar hhas
    rcases Option.isSome_iff_exists.mp hhas with ⟨new, hnew⟩
    rcases hspec.steps i new hnew with ⟨old, hold, hmove⟩
    cases hmove with
    | kept keeps same still => rw [same, hbar]
    | evaluated _ _ _ _ _ _ _ same _ _ _ _ _ =>
        rw [same, hbar]
        split
        · rfl
        · rfl
    | answered _ _ _ _ same _ _ => rw [same, hbar]

/-- Every run of a judge keeps its budget, its parks and its way out; the bar and the
cap flag hold in the runs whose assessments are all in force. -/
theorem judgeLoop_law (start : UnjudgedRun) {trace : List JudgeAction}
    (hrun : Foundation.Run (judgeAct registry) start.system trace s) :
    JudgeLaw s ∧
      (forall a t, judgeAct registry s a = some t -> JudgeActLaw registry s t a) ∧
      (RunWhere (judgeAct registry) (fun s a => barInForce registry s a = true)
        start.system trace s -> BarLaw s) := by
  have hinv : JudgeInv registry s := by
    refine @RunWhere.invariant _ _ _ _ _ (fun x => JudgeInv registry x) start.inv ?_ _ _ hrun
    intro x a y hx _ hy
    exact judgeInv_step hx (judgeAct_spec hx hy)
  refine ⟨judgeLaw_of_inv hinv, ?_, ?_⟩
  · intro a t ht
    exact judgeActLaw_of_spec (judgeAct_spec hinv ht)
  · intro hforce
    have hboth : JudgeInv registry s ∧ BarsOk s := by
      refine @RunWhere.invariant _ _ _ _ _ (fun x => JudgeInv registry x ∧ BarsOk x) ?_ ?_ _ _
        hforce
      · refine ⟨start.inv, ?_⟩
        intro i step hstep
        have hnone := start.unjudged step (List.mem_of_getElem? hstep)
        rw [hnone]
        rfl
      · intro x a y hx hok hy
        have hspec := judgeAct_spec hx.1 hy
        exact ⟨judgeInv_step hx.1 hspec, barsOk_step hx.2 hok hy hspec⟩
    exact barLaw_of_bars hboth.2

end Sound

/-- A judge of scope, held to the task's preset, that bounces what it does not like. -/
def scopeJudge : Judge where
  rubricName := "Scope"
  rubricId := "scope"
  onFail := .bounce

def scopeRegistry : JudgeRegistry where
  isCompanionKind := fun kind => kind = "reviewer"
  companionTargets := fun _ => ["coder"]
  hasInterviewGate := fun _ => false
  deliverableIsReply := fun _ => false
  judge := fun kind => if kind = "scope" then some scopeJudge else none
  judgeFor := fun kind =>
    (if kind = "scope" then some scopeJudge else none).map Judge.toJudgeDefinition
  judgeFor_eq := fun _ => rfl

def judgedRun : UnjudgedRun where
  run :=
    { id := "exec_1"
      steps :=
        [{ agentKind := "coder", state := AgentState.working, startedAt := some 1 },
          { agentKind := "scope", state := AgentState.pending },
          { agentKind := "reviewer", state := AgentState.pending }] }
  unjudged := by
    intro step hstep
    simp only [List.mem_cons, List.not_mem_nil, or_false] at hstep
    rcases hstep with rfl | rfl | rfl
    · rfl
    · rfl
    · rfl

def scored (approvalId : String) (score : Rat) : Evaluation where
  now := 10
  approvalId := approvalId
  preset := { judgeMinScore := 7 / 10, judgeMaxBounces := 1 }
  reply := .ok ({ score := score, summary := "" }, none, none)
  resolvesOwnCaps := true

/-- The work stays below the bar and the policy answers the cap. -/
def waivedTwice : List JudgeAction :=
  [.settle 2, .evaluate (scored "appr_1" (4 / 10)), .settle 3,
    .evaluate (scored "appr_2" (4 / 10))]

theorem judgeLoop_law_waived :
    exists s, BarLaw s ∧ JudgeLaw s ∧ s.run.currentStep = 2 ∧ s.answered = [(1, 2)] := by
  have htrace : (runChecked (judgeAct scopeRegistry)
      (fun s a => barInForce scopeRegistry s a) judgedRun.system waivedTwice).isSome = true := by
    decide +kernel
  have hforce := @runWhere_endOf _ _ (judgeAct scopeRegistry)
    (fun s a => barInForce scopeRegistry s a = true) (fun s a => barInForce scopeRegistry s a)
    (fun _ _ h => h) waivedTwice judgedRun.system htrace
  have hrun := @run_endOf _ _ (judgeAct scopeRegistry) waivedTwice judgedRun.system
    (by decide +kernel)
  have hlaw := judgeLoop_law judgedRun hrun
  refine ⟨_, hlaw.2.2 hforce, hlaw.1, ?_, ?_⟩
  · decide +kernel
  · decide +kernel

/-- The reviewer sends the work round again, and now it passes. -/
def convergedLater : List JudgeAction :=
  waivedTwice ++
    [.loopBack 11 0
      { previousProposal := "", feedback := "", requestedBy := ReworkRequester.reviewer },
      .settle 12, .evaluate (scored "appr_3" (9 / 10))]

/-- The judge is not wired the first time round; the second time its assessment
throws. -/
def wiredLater : List JudgeAction :=
  [.settle 2, .evaluate { scored "appr_1" 0 with wired := false },
    .loopBack 11 0
      { previousProposal := "", feedback := "", requestedBy := ReworkRequester.reviewer },
    .settle 12, .evaluate { scored "appr_2" 0 with reply := .error "no model" }]

/-- A judge at `i` whose state fails a test. -/
theorem judgeAt_of_any {s : JudgeSystem} {i : Nat} {test : JudgeStepState -> Bool}
    (h : ((s.run.steps[i]?).bind Step.judge).any test = true) :
    exists step state, s.run.steps[i]? = some step ∧ step.judge = some state ∧
      test state = true := by
  rcases Option.any_eq_true _ _ |>.mp h with ⟨state, hstate, htest⟩
  rcases Option.bind_eq_some_iff.mp hstate with ⟨step, hstep, hhas⟩
  exact ⟨step, state, hstep, hhas, htest⟩

/-- The flag outlives the round the policy answered, and a judge that was passed
through first is never given its bar. -/
theorem not_judgeLoop_law :
    (exists s, Foundation.Run (judgeAct scopeRegistry) judgedRun.system convergedLater s ∧
      Not (BarLaw s)) ∧
    exists s, Foundation.Run (judgeAct scopeRegistry) judgedRun.system wiredLater s ∧
      Not (BarLaw s) ∧ s.run.currentStep = 2 := by
  constructor
  · refine ⟨_, @run_endOf _ _ (judgeAct scopeRegistry) convergedLater judgedRun.system
      (by decide +kernel), ?_⟩
    intro hlaw
    generalize hs : endOf (judgeAct scopeRegistry) judgedRun.system convergedLater = s at hlaw
    have hflag : ((s.run.steps[1]?).bind Step.judge).any (fun state =>
        state.capSettledByPolicy && !s.answered.contains (1, state.rounds.length)) = true := by
      subst hs
      decide +kernel
    rcases judgeAt_of_any hflag with ⟨step, state, hstep, hstate, htest⟩
    simp only [Bool.and_eq_true, Bool.not_eq_true', List.contains_eq_mem,
      decide_eq_false_iff_not] at htest
    exact htest.2 (hlaw.cap 1 step state hstep hstate htest.1)
  · refine ⟨_, @run_endOf _ _ (judgeAct scopeRegistry) wiredLater judgedRun.system
      (by decide +kernel), ?_, by decide +kernel⟩
    intro hlaw
    generalize hs : endOf (judgeAct scopeRegistry) judgedRun.system wiredLater = s at hlaw
    have hbare : ((s.run.steps[1]?).bind Step.judge).any (fun state =>
        !state.rounds.isEmpty && state.threshold.isNone) = true := by
      subst hs
      decide +kernel
    rcases judgeAt_of_any hbare with ⟨step, state, hstep, hstate, htest⟩
    simp only [Bool.and_eq_true, Bool.not_eq_true', List.isEmpty_eq_false_iff,
      Option.isNone_iff_eq_none] at htest
    rcases hlaw.bar 1 step state hstep hstate htest.1 with ⟨threshold, _, _, hset, _⟩
    rw [htest.2] at hset
    cases hset

end Gates
end CatFactory
