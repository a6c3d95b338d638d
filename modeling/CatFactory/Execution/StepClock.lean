import CatFactory.Execution.StepGraph
import CatFactory.Foundation.Runs

/-!
# The clock of a step

Starts, parks, finishes and resets of one step in any order, under a clock that
does not go back.  What the stamps say is compared with what happened.
-/

namespace CatFactory
namespace Execution

open Foundation

/-!
## Histories of one step
-/

inductive ClockOp where
  | start
  | pause
  | finish
  | reset
deriving DecidableEq

def ClockOp.apply (now : Nat) (step : PipelineStep) : ClockOp -> PipelineStep
  | .start => startStep now step
  | .pause => pauseStepForInput now step
  | .finish => finishStep now step
  | .reset => resetStepForRerun step

/-- The operation is the start of a fresh attempt. -/
def ClockOp.begins (op : ClockOp) (step : PipelineStep) : Bool :=
  op = .start && step.startedAt.isNone

/-- A step with the time of the last operation on it, the fresh attempts begun so
far, when the first of them began, and whether the attempt under way began on a
step that was finished already. -/
structure ClockedStep where
  step : PipelineStep
  now : Nat := 0
  begun : Nat := 0
  firstBegun : Option Nat := none
  lateStart : Bool := false

def clockAct (s : ClockedStep) (a : ClockOp × Nat) : Option ClockedStep :=
  if s.now ≤ a.2 then
    some
      { step := a.1.apply a.2 s.step
        now := a.2
        begun := if a.1.begins s.step then s.begun + 1 else s.begun
        firstBegun := if a.1.begins s.step then s.firstBegun.or (some a.2) else s.firstBegun
        lateStart :=
          if a.1 = .reset then false
          else if a.1.begins s.step then s.step.finishedAt.isSome
          else s.lateStart }
  else none

/-- A step as a run is created with it, which names its first step `working`. -/
structure Unstarted (step : PipelineStep) : Prop where
  startedAt : step.startedAt = none
  finishedAt : step.finishedAt = none
  firstStartedAt : step.firstStartedAt = none
  pausedAt : step.pausedAt = none
  attempts : step.attempts = none

/-!
## The stamps of every history
-/

structure ClockInv (s : ClockedStep) : Prop where
  attempts : s.step.attempts.getD 0 = s.begun
  first : s.step.firstStartedAt = s.firstBegun
  begun : s.step.startedAt.isSome = true -> s.firstBegun.isSome = true
  firstLe : forall first began, s.step.firstStartedAt = some first ->
    s.step.startedAt = some began -> first ≤ began
  firstNow : forall first, s.step.firstStartedAt = some first -> first ≤ s.now
  startNow : forall began, s.step.startedAt = some began -> began ≤ s.now
  finishNow : forall ended, s.step.finishedAt = some ended -> ended ≤ s.now
  pauseNow : forall paused, s.step.pausedAt = some paused -> paused ≤ s.now
  startPause : forall began paused, s.step.startedAt = some began ->
    s.step.pausedAt = some paused -> began ≤ paused
  startFinish : forall began ended, s.step.startedAt = some began ->
    s.step.finishedAt = some ended ->
      if s.lateStart then ended ≤ began else began ≤ ended
  late : s.lateStart = true -> s.step.finishedAt.isSome = true
  running : s.step.state = .working ∨ s.step.state = .done -> s.step.pausedAt = none

theorem clockInv_unstarted {step : PipelineStep} (h : Unstarted step) :
    ClockInv { step := step } where
  attempts := by
    rw [h.attempts]
    rfl
  first := h.firstStartedAt
  begun := by simp [h.startedAt]
  firstLe := by simp [h.startedAt]
  firstNow := by simp [h.firstStartedAt]
  startNow := by simp [h.startedAt]
  finishNow := by simp [h.finishedAt]
  pauseNow := by simp [h.pausedAt]
  startPause := by simp [h.startedAt]
  startFinish := by simp [h.startedAt]
  late := by simp
  running := fun _ => h.pausedAt

theorem clockAct_eq {s t : ClockedStep} {a : ClockOp × Nat} (h : clockAct s a = some t) :
    s.now ≤ a.2 ∧ t.step = a.1.apply a.2 s.step ∧ t.now = a.2 := by
  unfold clockAct at h
  split at h
  · rename_i hle
    cases h
    exact ⟨hle, rfl, rfl⟩
  · cases h

section Ops

variable {s : ClockedStep} {now : Nat}

/-- Later readings of the clock keep every bound. -/
theorem ClockInv.later (h : ClockInv s) (hle : s.now ≤ now) :
    ClockInv { s with now := now } :=
  { h with
    firstNow := fun first hfirst => Nat.le_trans (h.firstNow first hfirst) hle
    startNow := fun began hbegan => Nat.le_trans (h.startNow began hbegan) hle
    finishNow := fun ended hended => Nat.le_trans (h.finishNow ended hended) hle
    pauseNow := fun paused hpaused => Nat.le_trans (h.pauseNow paused hpaused) hle }

/-- A fresh attempt begins now, after whatever the step remembers. -/
theorem ClockInv.begins (h : ClockInv s) (hfresh : s.step.startedAt = none) :
    ClockInv
      { step := startStep s.now s.step
        now := s.now
        begun := s.begun + 1
        firstBegun := s.firstBegun.or (some s.now)
        lateStart := s.step.finishedAt.isSome } := by
  have hstart : startStep s.now s.step =
      { s.step with
        state := AgentState.working
        startedAt := some s.now
        firstStartedAt := some (s.step.firstStartedAt.getD s.now)
        attempts := some (s.step.attempts.getD 0 + 1)
        pausedAt := none } := by
    unfold startStep
    rw [hfresh]
  have hfirst : s.step.firstStartedAt.getD s.now ≤ s.now := by
    cases hsome : s.step.firstStartedAt with
    | none => exact Nat.le_refl _
    | some first => exact h.firstNow first hsome
  rw [hstart]
  constructor
  · show s.step.attempts.getD 0 + 1 = s.begun + 1
    rw [h.attempts]
  · show some (s.step.firstStartedAt.getD s.now) = s.firstBegun.or (some s.now)
    rw [h.first]
    cases s.firstBegun with
    | none => rfl
    | some first => rfl
  · intro _
    cases s.firstBegun with
    | none => rfl
    | some first => rfl
  · rintro _ _ ⟨⟩ ⟨⟩
    exact hfirst
  · rintro _ ⟨⟩
    exact hfirst
  · rintro _ ⟨⟩
    exact Nat.le_refl _
  · exact h.finishNow
  · rintro _ ⟨⟩
  · rintro _ _ _ ⟨⟩
  · rintro _ ended ⟨⟩ (hended : s.step.finishedAt = some ended)
    rw [hended]
    exact h.finishNow ended hended
  · exact fun hlate => hlate
  · exact fun _ => rfl

theorem ClockInv.resumes (h : ClockInv s) {began : Nat}
    (hbegan : s.step.startedAt = some began) :
    ClockInv { s with step := startStep s.now s.step } := by
  have hstart : startStep s.now s.step =
      { s.step with state := AgentState.working, pausedAt := none } := by
    simp only [startStep, hbegan]
  rw [hstart]
  exact
    { h with
      pauseNow := by rintro _ ⟨⟩
      startPause := by rintro _ _ _ ⟨⟩
      running := fun _ => rfl }

theorem ClockInv.pauses (h : ClockInv s) :
    ClockInv { s with step := pauseStepForInput s.now s.step } := by
  have hpaused : forall paused, s.step.pausedAt.getD s.now = paused ->
      (s.step.pausedAt = some paused ∨ paused = s.now) := by
    intro paused hpaused
    cases hsome : s.step.pausedAt with
    | none =>
        rw [hsome] at hpaused
        exact Or.inr hpaused.symm
    | some first =>
        rw [hsome] at hpaused
        exact Or.inl (congrArg some hpaused)
  refine
    { h with
      pauseNow := ?_
      startPause := ?_
      running := ?_ }
  · rintro paused ⟨⟩
    rcases hpaused _ rfl with hold | hnow
    · exact h.pauseNow _ hold
    · exact Nat.le_of_eq hnow
  · rintro began paused hbegan ⟨⟩
    rcases hpaused _ rfl with hold | hnow
    · exact h.startPause began _ hbegan hold
    · rw [hnow]
      exact h.startNow began hbegan
  · rintro (⟨⟨⟩⟩ | ⟨⟨⟩⟩)

theorem ClockInv.finishes (h : ClockInv s) :
    ClockInv { s with step := finishStep s.now s.step } := by
  have hbill : s.step.finishedAt = none -> forall ended,
      s.step.pausedAt.getD s.now = ended ->
        ended ≤ s.now ∧ forall began, s.step.startedAt = some began -> began ≤ ended := by
    rintro _ ended rfl
    cases hpaused : s.step.pausedAt with
    | none => exact ⟨Nat.le_refl _, h.startNow⟩
    | some paused => exact ⟨h.pauseNow paused hpaused,
        fun began hbegan => h.startPause began paused hbegan hpaused⟩
  refine
    { h with
      finishNow := ?_
      pauseNow := by rintro _ ⟨⟩
      startPause := by rintro _ _ _ ⟨⟩
      startFinish := ?_
      late := fun _ => rfl
      running := fun _ => rfl }
  · rintro ended ⟨⟩
    cases hfinished : s.step.finishedAt with
    | none => exact (hbill hfinished _ rfl).left
    | some first => exact h.finishNow first hfinished
  · rintro began ended hbegan ⟨⟩
    cases hfinished : s.step.finishedAt with
    | none =>
        have hontime : s.lateStart = false := by
          cases hlate : s.lateStart with
          | false => rfl
          | true =>
              have hsome := h.late hlate
              rw [hfinished] at hsome
              cases hsome
        show if s.lateStart = true then _ else _
        rw [if_neg (by simp [hontime])]
        exact (hbill hfinished _ rfl).right began hbegan
    | some first => exact h.startFinish began first hbegan hfinished

theorem ClockInv.resets (h : ClockInv s) :
    ClockInv { s with step := resetStepForRerun s.step, lateStart := false } :=
  { h with
    begun := by rintro ⟨⟩
    firstLe := by rintro _ _ _ ⟨⟩
    startNow := by rintro _ ⟨⟩
    finishNow := by rintro _ ⟨⟩
    pauseNow := by rintro _ ⟨⟩
    startPause := by rintro _ _ ⟨⟩
    startFinish := by rintro _ _ ⟨⟩
    late := by rintro ⟨⟩
    running := by rintro (⟨⟨⟩⟩ | ⟨⟨⟩⟩) }

end Ops

theorem clockInv_act {s t : ClockedStep} {a : ClockOp × Nat} (h : ClockInv s)
    (hact : clockAct s a = some t) : ClockInv t := by
  rcases a with ⟨op, now⟩
  have hle := (clockAct_eq hact).left
  have hnow := h.later hle
  simp only [clockAct, if_pos hle] at hact
  cases hact
  cases op with
  | start =>
      cases hstarted : s.step.startedAt with
      | none =>
          have hbegins : ClockOp.start.begins s.step = true := by
            simp [ClockOp.begins, hstarted]
          simpa [hbegins, ClockOp.apply] using hnow.begins hstarted
      | some began =>
          have hbegins : ClockOp.start.begins s.step = false := by
            simp [ClockOp.begins, hstarted]
          simpa [hbegins, ClockOp.apply] using hnow.resumes hstarted
  | pause => simpa [ClockOp.begins, ClockOp.apply] using hnow.pauses
  | finish => simpa [ClockOp.begins, ClockOp.apply] using hnow.finishes
  | reset => simpa [ClockOp.begins, ClockOp.apply] using hnow.resets

/-!
## The bill of a park
-/

/-- No start and no reset: the step is parked and finished, again and again. -/
def settling (trace : List (ClockOp × Nat)) : Prop :=
  forall a, a ∈ trace -> a.1 = .pause ∨ a.1 = .finish

def finishes (trace : List (ClockOp × Nat)) : Prop :=
  exists a, a ∈ trace ∧ a.1 = .finish

/-- Once a park or a finish has fixed the bill, it stands through further ones. -/
theorem bill_kept {s t : ClockedStep} {bill : Nat} {trace : List (ClockOp × Nat)}
    (hbill : s.step.finishedAt.or s.step.pausedAt = some bill)
    (hrun : Run clockAct s trace t) (hsettling : settling trace) :
    t.step.finishedAt.or t.step.pausedAt = some bill ∧
      (finishes trace -> t.step.finishedAt = some bill) := by
  induction hrun with
  | nil =>
      refine ⟨hbill, ?_⟩
      rintro ⟨a, ha, _⟩
      cases ha
  | @snoc trace mid next a _ _ hact ih =>
      have hstarts : settling trace := fun b hb =>
        hsettling b (List.mem_append_left _ hb)
      rcases ih hstarts with ⟨hmid, hfinished⟩
      have hstep := (clockAct_eq hact).right.left
      rcases hsettling a (List.mem_append_right _ List.mem_cons_self) with hop | hop
      · have hkept : next.step.finishedAt = mid.step.finishedAt := by
          rw [hstep, hop]
          rfl
        have hpaused : next.step.pausedAt = some (mid.step.pausedAt.getD a.2) := by
          rw [hstep, hop]
          rfl
        constructor
        · rw [hkept, hpaused]
          cases hfin : mid.step.finishedAt with
          | some ended =>
              rw [hfin] at hmid
              exact hmid
          | none =>
              rw [hfin, Option.none_or] at hmid
              rw [hmid]
              rfl
        · rintro ⟨b, hb, hfinish⟩
          rw [hkept]
          apply hfinished
          rcases List.mem_append.mp hb with hold | hnew
          · exact ⟨b, hold, hfinish⟩
          · rw [List.mem_singleton.mp hnew, hop] at hfinish
            cases hfinish
      · have hended : next.step.finishedAt = some bill := by
          rw [hstep, hop]
          show some (mid.step.finishedAt.getD (mid.step.pausedAt.getD a.2)) = some bill
          cases hfin : mid.step.finishedAt with
          | some ended =>
              rw [hfin] at hmid
              exact hmid
          | none =>
              rw [hfin, Option.none_or] at hmid
              rw [hmid]
              rfl
        constructor
        · rw [hended]
          rfl
        · exact fun _ => hended

/-!
## The law of the clock
-/

/-- What the stamps of a step say about its history. -/
structure StepClockLaw (s : ClockedStep) : Prop where
  attempts : s.step.attempts.getD 0 = s.begun
  attemptsGrow : forall a t, clockAct s a = some t ->
    s.step.attempts.getD 0 ≤ t.step.attempts.getD 0
  first : s.step.firstStartedAt = s.firstBegun
  firstKept : forall a t first, clockAct s a = some t ->
    s.step.firstStartedAt = some first -> t.step.firstStartedAt = some first
  firstLe : forall first began, s.step.firstStartedAt = some first ->
    s.step.startedAt = some began -> first ≤ began
  startFinish : forall began ended, s.step.startedAt = some began ->
    s.step.finishedAt = some ended ->
      if s.lateStart then ended ≤ began else began ≤ ended
  running : s.step.state = .working ∨ s.step.state = .done -> s.step.pausedAt = none
  /-- A park of a step that was neither parked nor finished fixes the bill; a step
  that was finished keeps its own. -/
  billed : forall now parked trace t, s.step.pausedAt = none ->
    clockAct s (.pause, now) = some parked -> Run clockAct parked trace t ->
    settling trace -> finishes trace ->
      t.step.finishedAt = some (s.step.finishedAt.getD now)

theorem ClockInv.law {s : ClockedStep} (h : ClockInv s) : StepClockLaw s where
  attempts := h.attempts
  attemptsGrow := by
    intro a t hact
    rw [h.attempts, (clockInv_act h hact).attempts]
    simp only [clockAct, if_pos (clockAct_eq hact).left] at hact
    cases hact
    show s.begun ≤ if _ then s.begun + 1 else s.begun
    split
    · exact Nat.le_succ _
    · exact Nat.le_refl _
  first := h.first
  firstKept := by
    intro a t first hact hfirst
    rw [(clockInv_act h hact).first]
    rw [h.first] at hfirst
    simp only [clockAct, if_pos (clockAct_eq hact).left] at hact
    cases hact
    show (if _ then s.firstBegun.or (some a.2) else s.firstBegun) = some first
    rw [hfirst]
    split
    · rfl
    · rfl
  firstLe := h.firstLe
  startFinish := h.startFinish
  running := h.running
  billed := by
    intro now parked trace t hpaused hact hrun hsettling hfinishes
    apply (bill_kept _ hrun hsettling).right hfinishes
    rw [(clockAct_eq hact).right.left]
    show s.step.finishedAt.or (some (s.step.pausedAt.getD now)) = _
    rw [hpaused]
    cases s.step.finishedAt with
    | none => rfl
    | some ended => rfl

theorem stepClock_law {step : PipelineStep} (hnew : Unstarted step)
    {trace : List (ClockOp × Nat)} {s : ClockedStep}
    (hrun : Run clockAct { step := step } trace s) : StepClockLaw s :=
  ClockInv.law (hrun.invariant (clockInv_unstarted hnew) fun _ _ _ h _ hact =>
    clockInv_act h hact)

def newStep : PipelineStep :=
  { agentKind := "coder", state := .pending, progress := 0 }

/-- Started, parked, parked again, finished, sent back, started and finished. -/
def parkedTwice : List (ClockOp × Nat) :=
  [(.start, 1), (.pause, 3), (.pause, 5), (.finish, 8), (.finish, 9), (.reset, 10),
    (.start, 12), (.finish, 15)]

theorem stepClock_law_parkedTwice :
    StepClockLaw (endOf clockAct { step := newStep } parkedTwice) :=
  stepClock_law ⟨rfl, rfl, rfl, rfl, rfl⟩ (run_endOf (by decide +kernel))

/-- A step that is finished, and only then started. -/
def finishedFirst : List (ClockOp × Nat) :=
  [(.finish, 0), (.start, 1), (.finish, 2)]

/-- Neither is a finish stamp always behind the start, nor does every park fix the bill. -/
theorem not_stepClock_law :
    (¬ forall (step : PipelineStep), Unstarted step ->
      forall (trace : List (ClockOp × Nat)) (s : ClockedStep),
        Run clockAct { step := step } trace s -> s.step.state = .done ->
          forall began ended, s.step.startedAt = some began ->
            s.step.finishedAt = some ended -> began ≤ ended) ∧
    ¬ forall (step : PipelineStep), Unstarted step ->
      forall (trace : List (ClockOp × Nat)) (s parked t : ClockedStep) (now later : Nat),
        Run clockAct { step := step } trace s -> s.step.pausedAt = none ->
          clockAct s (.pause, now) = some parked -> clockAct parked (.finish, later) = some t ->
            t.step.finishedAt = some now := by
  have hnew : Unstarted newStep := ⟨rfl, rfl, rfl, rfl, rfl⟩
  constructor
  · intro hlaw
    have hrun : Run clockAct { step := newStep } finishedFirst
        (endOf clockAct { step := newStep } finishedFirst) := run_endOf (by decide +kernel)
    have hle : 1 ≤ 0 := hlaw newStep hnew finishedFirst _ hrun rfl 1 0 rfl rfl
    exact absurd hle (by decide)
  · intro hlaw
    have hrun : Run clockAct { step := newStep } [(.start, 0), (.finish, 1)]
        (endOf clockAct { step := newStep } [(.start, 0), (.finish, 1)]) :=
      run_endOf (by decide +kernel)
    have hbilled : some 1 = some 2 := hlaw newStep hnew _ _ _ _ 2 3 hrun rfl rfl rfl
    cases hbilled

end Execution
end CatFactory
