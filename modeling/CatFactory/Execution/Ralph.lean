import CatFactory.Execution.StepGraph
import CatFactory.Execution.Trails
import Mathlib.Data.Nat.Find

/-!
# The `ralph` loop

A `ralph` step is run again until its validation command passes, its branch
stops moving or its budget is spent.  Each finished iteration is folded into the
state the step carries, and the next move is read off that state.
-/

namespace CatFactory
namespace Execution

open Foundation

/-- How many unchanged failing iterations in a row end the loop. -/
def RALPH_NO_PROGRESS_LIMIT : Nat := 2

/-- How many iterations the recorded history keeps. -/
def MAX_RALPH_ATTEMPT_LOG : Nat := 20

structure RalphConfig where
  validationCommand : String
  maxIterations : Nat
deriving DecidableEq

/-- The harness's verdict on one iteration. -/
structure RalphVerdict where
  validationPassed : Bool
  exitCode : Int
  validationOutputTail : Option String := none
  headSha : Option String := none
deriving DecidableEq

def seedRalphState (config : RalphConfig) : RalphStepState where
  phase := RalphPhase.iterating
  attempts := 0
  maxIterations := config.maxIterations
  validationCommand := config.validationCommand
  progressPath := some RALPH_PROGRESS_PATH
  attemptLog := []

/-- `head?.trim()`, absent when nothing is left of it. -/
def trimmedHead (head : Option String) : Option String :=
  (head.map trim).filter (· ≠ "")

def nextNoProgressStreak (ralph : RalphStepState) (verdict : Option RalphVerdict)
    (previousHeadSha : Option String) : Nat :=
  if verdict.any (·.validationPassed) then 0
  else
    match trimmedHead (verdict.bind (·.headSha)) with
    | none => 0
    | some head =>
        if previousHeadSha = some head then ralph.noProgressStreak.getD 0 + 1 else 0

def lastRecordedHeadSha (ralph : RalphStepState) : Option String :=
  trimmedHead (ralph.attemptLog.getLast?.bind (·.headSha))

inductive RalphDecision where
  | done
  | retry
  | exhausted
  | stalled
deriving DecidableEq

def decideRalphNext (ralph : RalphStepState) (verdict : Option RalphVerdict) : RalphDecision :=
  if verdict.any (·.validationPassed) then RalphDecision.done
  else if RALPH_NO_PROGRESS_LIMIT ≤ ralph.noProgressStreak.getD 0 then RalphDecision.stalled
  else if ralph.attempts < ralph.maxIterations then RalphDecision.retry
  else RalphDecision.exhausted

/-- The capped history with the entry, and how many entries were dropped in all. -/
def appendRalphAttempt (ralph : RalphStepState) (entry : RalphAttempt) :
    List RalphAttempt × Nat :=
  let appended := ralph.attemptLog ++ [entry]
  let overflow := appended.length - MAX_RALPH_ATTEMPT_LOG
  (if 0 < overflow then appended.drop overflow else appended,
    ralph.droppedAttempts.getD 0 + overflow)

/-!
## One finished iteration
-/

/-- What an iteration comes back with, and when it is recorded. -/
structure RalphOutcome where
  verdict : Option RalphVerdict
  output : Option String := none
  recordedAt : Nat := 0
deriving DecidableEq

def RalphOutcome.passed (outcome : RalphOutcome) : Bool :=
  outcome.verdict.any (·.validationPassed)

/-- The branch head the iteration was validated against, where it is known. -/
def RalphOutcome.head (outcome : RalphOutcome) : Option String :=
  trimmedHead (outcome.verdict.bind (·.headSha))

def attemptEntry (attempt : Nat) (outcome : RalphOutcome) : RalphAttempt where
  attempt := attempt
  occurredAt := outcome.recordedAt
  validationPassed := outcome.passed
  exitCode := outcome.verdict.map (·.exitCode)
  outputTail := (outcome.verdict.bind (·.validationOutputTail)).filter (· ≠ "")
  summary := outcome.output.filter (· ≠ "")
  headSha := (outcome.verdict.bind (·.headSha)).filter (· ≠ "")

def recordAttempt (ralph : RalphStepState) (outcome : RalphOutcome) : RalphStepState :=
  let appended := appendRalphAttempt ralph (attemptEntry ralph.attempts outcome)
  { ralph with
    attemptLog := appended.1
    droppedAttempts := if 0 < appended.2 then some appended.2 else ralph.droppedAttempts }

/-- The bookkeeping of `resolveRalphResult`: the streak is taken while the head
of the iteration before is still the last recorded one. -/
def foldOutcome (ralph : RalphStepState) (outcome : RalphOutcome) : RalphStepState :=
  let streak := nextNoProgressStreak ralph outcome.verdict (lastRecordedHeadSha ralph)
  let counted :=
    { ralph with
      noProgressStreak := some streak
      attempts := ralph.attempts + 1
      phase := RalphPhase.iterating
      lastExitCode := (outcome.verdict.map (·.exitCode)).or ralph.lastExitCode
      lastValidationTail := match outcome.verdict with
        | none => ralph.lastValidationTail
        | some verdict => verdict.validationOutputTail }
  recordAttempt counted outcome

/-!
## What the fold leaves in the state
-/

section Fold

variable {ralph : RalphStepState} {outcomes : Nat -> RalphOutcome}

/-- The state after the first iterations of a stream. -/
def afterIterations (ralph : RalphStepState) (outcomes : Nat -> RalphOutcome) :
    Nat -> RalphStepState
  | 0 => ralph
  | n + 1 => foldOutcome (afterIterations ralph outcomes n) (outcomes n)

/-- Every iteration's entry, the first iteration's first. -/
def attemptEntries (outcomes : Nat -> RalphOutcome) (n : Nat) : List RalphAttempt :=
  (List.range n).map fun i => attemptEntry (i + 1) (outcomes i)

theorem attemptEntries_succ (outcomes : Nat -> RalphOutcome) (n : Nat) :
    attemptEntries outcomes (n + 1) =
      attemptEntries outcomes n ++ [attemptEntry (n + 1) (outcomes n)] := by
  rw [attemptEntries, List.range_succ, List.map_append]
  rfl

theorem appendRalphAttempt_log (ralph : RalphStepState) (entry : RalphAttempt) :
    (appendRalphAttempt ralph entry).1 =
      lastEntries MAX_RALPH_ATTEMPT_LOG (ralph.attemptLog ++ [entry]) := by
  dsimp only [appendRalphAttempt, lastEntries]
  split
  · rfl
  · next hfits =>
      rw [Nat.eq_zero_of_not_pos hfits]
      rfl

theorem foldOutcome_log (ralph : RalphStepState) (outcome : RalphOutcome) :
    (foldOutcome ralph outcome).attemptLog =
      lastEntries MAX_RALPH_ATTEMPT_LOG
        (ralph.attemptLog ++ [attemptEntry (ralph.attempts + 1) outcome]) :=
  appendRalphAttempt_log _ _

theorem recordAttempt_dropped (ralph : RalphStepState) (outcome : RalphOutcome) :
    (recordAttempt ralph outcome).droppedAttempts.getD 0 =
      ralph.droppedAttempts.getD 0 + (ralph.attemptLog.length + 1 - MAX_RALPH_ATTEMPT_LOG) := by
  simp only [recordAttempt, appendRalphAttempt, List.length_append, List.length_singleton]
  split
  · rfl
  · omega

/-- Nothing drops out of the history uncounted. -/
theorem foldOutcome_counts (ralph : RalphStepState) (outcome : RalphOutcome) :
    (foldOutcome ralph outcome).droppedAttempts.getD 0 +
        (foldOutcome ralph outcome).attemptLog.length =
      ralph.droppedAttempts.getD 0 + ralph.attemptLog.length + 1 := by
  have hdropped : (foldOutcome ralph outcome).droppedAttempts.getD 0 =
      ralph.droppedAttempts.getD 0 + (ralph.attemptLog.length + 1 - MAX_RALPH_ATTEMPT_LOG) :=
    recordAttempt_dropped _ _
  rw [hdropped, foldOutcome_log, length_lastEntries, List.length_append, List.length_singleton]
  omega

/-- The books of a loop after some iterations. -/
structure Books (ralph : RalphStepState) (outcomes : Nat -> RalphOutcome) (n : Nat) : Prop where
  attempts : (afterIterations ralph outcomes n).attempts = n
  log : (afterIterations ralph outcomes n).attemptLog =
    lastEntries MAX_RALPH_ATTEMPT_LOG (attemptEntries outcomes n)
  dropped : (afterIterations ralph outcomes n).droppedAttempts.getD 0 +
    (afterIterations ralph outcomes n).attemptLog.length = n

/-- A loop's state before its first iteration. -/
structure FreshLoop (ralph : RalphStepState) : Prop where
  attempts : ralph.attempts = 0
  noProgressStreak : ralph.noProgressStreak = none
  attemptLog : ralph.attemptLog = []
  droppedAttempts : ralph.droppedAttempts = none

theorem books (hfresh : FreshLoop ralph) (n : Nat) : Books ralph outcomes n := by
  induction n with
  | zero =>
      constructor
      · exact hfresh.attempts
      · exact hfresh.attemptLog
      · simp [afterIterations, hfresh.attemptLog, hfresh.droppedAttempts]
  | succ n ih =>
      constructor
      · show (afterIterations ralph outcomes n).attempts + 1 = n + 1
        rw [ih.attempts]
      · rw [afterIterations, foldOutcome_log, ih.log, ih.attempts,
          lastEntries_append_lastEntries, attemptEntries_succ]
      · rw [afterIterations, foldOutcome_counts, ih.dropped]

theorem afterIterations_maxIterations (n : Nat) :
    (afterIterations ralph outcomes n).maxIterations = ralph.maxIterations := by
  induction n with
  | zero => rfl
  | succ n ih => exact ih

/-!
## The streak of unchanged heads
-/

theorem trimmedHead_filter (head : Option String) :
    trimmedHead (head.filter (· ≠ "")) = trimmedHead head := by
  cases head with
  | none => rfl
  | some text =>
      by_cases hempty : text = ""
      · subst hempty
        decide
      · rw [Option.filter_some_pos (by simpa using hempty)]

/-- The last recorded head is the head of the last iteration. -/
theorem lastRecordedHeadSha_succ (n : Nat) :
    lastRecordedHeadSha (afterIterations ralph outcomes (n + 1)) = (outcomes n).head := by
  have hlast : (afterIterations ralph outcomes (n + 1)).attemptLog.getLast? =
      some (attemptEntry ((afterIterations ralph outcomes n).attempts + 1) (outcomes n)) := by
    rw [afterIterations, foldOutcome_log, lastEntries, List.getLast?_drop, if_neg]
    · rw [List.getLast?_concat]
    · rw [List.length_append, List.length_singleton, MAX_RALPH_ATTEMPT_LOG]
      omega
  rw [lastRecordedHeadSha, hlast]
  exact trimmedHead_filter _

/-- The iteration failed on a known head, the head of the iteration before it. -/
def Unmoved (outcomes : Nat -> RalphOutcome) (n : Nat) : Prop :=
  (outcomes (n + 1)).passed = false ∧
    exists head, (outcomes (n + 1)).head = some head ∧ (outcomes n).head = some head

theorem streak_zero (hfresh : FreshLoop ralph) :
    (afterIterations ralph outcomes 1).noProgressStreak.getD 0 = 0 := by
  show nextNoProgressStreak ralph (outcomes 0).verdict (lastRecordedHeadSha ralph) = 0
  have hnone : lastRecordedHeadSha ralph = none := by
    rw [lastRecordedHeadSha, hfresh.attemptLog]
    rfl
  rw [hnone, nextNoProgressStreak]
  split
  · rfl
  · split
    · rfl
    · rfl

theorem streak_succ_of_unmoved {n : Nat} (h : Unmoved outcomes n) :
    (afterIterations ralph outcomes (n + 2)).noProgressStreak.getD 0 =
      (afterIterations ralph outcomes (n + 1)).noProgressStreak.getD 0 + 1 := by
  rcases h with ⟨hfailed, head, hhead, hbefore⟩
  show nextNoProgressStreak (afterIterations ralph outcomes (n + 1)) (outcomes (n + 1)).verdict
    (lastRecordedHeadSha (afterIterations ralph outcomes (n + 1))) = _
  simp only [RalphOutcome.passed] at hfailed
  simp only [RalphOutcome.head] at hhead
  rw [lastRecordedHeadSha_succ, hbefore, nextNoProgressStreak, hfailed, hhead]
  simp

theorem streak_succ_of_moved {n : Nat} (h : ¬ Unmoved outcomes n) :
    (afterIterations ralph outcomes (n + 2)).noProgressStreak.getD 0 = 0 := by
  show nextNoProgressStreak (afterIterations ralph outcomes (n + 1)) (outcomes (n + 1)).verdict
    (lastRecordedHeadSha (afterIterations ralph outcomes (n + 1))) = 0
  rw [lastRecordedHeadSha_succ, nextNoProgressStreak]
  cases hpassed : (outcomes (n + 1)).verdict.any (·.validationPassed) with
  | true => rfl
  | false =>
      cases hhead : trimmedHead ((outcomes (n + 1)).verdict.bind (·.headSha)) with
      | none => rfl
      | some head =>
          by_cases hbefore : (outcomes n).head = some head
          · exact absurd ⟨hpassed, head, hhead, hbefore⟩ h
          · simp [hbefore]

/-- The last three iterations failed on one known head. -/
def StuckAt (outcomes : Nat -> RalphOutcome) (k : Nat) : Prop :=
  exists n head, k = n + 2 ∧ forall i, i ≤ 2 ->
    (outcomes (n + i)).passed = false ∧ (outcomes (n + i)).head = some head

/-- The streak is at the limit when the head stood still twice in a row. -/
theorem streak_limit_iff (hfresh : FreshLoop ralph) (k : Nat) :
    RALPH_NO_PROGRESS_LIMIT ≤ (afterIterations ralph outcomes (k + 1)).noProgressStreak.getD 0 <->
      exists n, k = n + 2 ∧ Unmoved outcomes n ∧ Unmoved outcomes (n + 1) := by
  cases k with
  | zero =>
      rw [streak_zero hfresh]
      simp [RALPH_NO_PROGRESS_LIMIT]
  | succ k =>
      by_cases hlast : Unmoved outcomes k
      · rw [streak_succ_of_unmoved hlast]
        cases k with
        | zero =>
            rw [streak_zero hfresh]
            simp [RALPH_NO_PROGRESS_LIMIT]
        | succ n =>
            by_cases hbefore : Unmoved outcomes n
            · rw [streak_succ_of_unmoved hbefore]
              constructor
              · intro _
                exact ⟨n, rfl, hbefore, hlast⟩
              · intro _
                exact Nat.le_add_left 2 _
            · rw [streak_succ_of_moved hbefore]
              constructor
              · intro h
                exact absurd h (by decide)
              · rintro ⟨m, hm, hbefore', _⟩
                cases hm
                exact absurd hbefore' hbefore
      · rw [streak_succ_of_moved hlast]
        constructor
        · intro h
          exact absurd h (by decide)
        · rintro ⟨m, hm, _, hlast'⟩
          cases hm
          exact absurd hlast' hlast

theorem stuckAt_iff {k : Nat} (hfailed : forall j, j < k -> (outcomes j).passed = false) :
    StuckAt outcomes k <-> exists n, k = n + 2 ∧ Unmoved outcomes n ∧ Unmoved outcomes (n + 1) := by
  constructor
  · rintro ⟨n, head, hk, hsame⟩
    refine ⟨n, hk, ⟨(hsame 1 (by decide)).1, head, ?_, ?_⟩, (hsame 2 (by decide)).1, head, ?_, ?_⟩
    · exact (hsame 1 (by decide)).2
    · exact (hsame 0 (by decide)).2
    · exact (hsame 2 (by decide)).2
    · exact (hsame 1 (by decide)).2
  · rintro ⟨n, hk, ⟨hmiddle, head, hhead, hfirst⟩, hlast, other, hother, hsame⟩
    rw [hsame] at hhead
    cases hhead
    refine ⟨n, head, hk, ?_⟩
    intro i hi
    rcases i with _ | _ | _ | i
    · exact ⟨hfailed n (by omega), hfirst⟩
    · exact ⟨hmiddle, hsame⟩
    · exact ⟨hlast, hother⟩
    · omega

/-!
## Where the loop stops
-/

/-- What is decided after iteration `k`, counted from zero. -/
def decisionAt (ralph : RalphStepState) (outcomes : Nat -> RalphOutcome) (k : Nat) :
    RalphDecision :=
  decideRalphNext (afterIterations ralph outcomes (k + 1)) (outcomes k).verdict

/-- Iteration `k` is the first after which the loop does not go on. -/
structure StopsAt (ralph : RalphStepState) (outcomes : Nat -> RalphOutcome) (k : Nat) : Prop where
  retries : forall j, j < k -> decisionAt ralph outcomes j = RalphDecision.retry
  stops : decisionAt ralph outcomes k ≠ RalphDecision.retry

theorem decisionAt_done_iff {k : Nat} :
    decisionAt ralph outcomes k = RalphDecision.done <-> (outcomes k).passed = true := by
  rw [decisionAt, decideRalphNext, RalphOutcome.passed]
  split
  · next hpassed => simp [hpassed]
  · next hfailed =>
      constructor
      · intro h
        split at h
        · cases h
        · split at h <;> cases h
      · intro h
        exact absurd h hfailed

theorem decisionAt_of_failed {k : Nat} (hfresh : FreshLoop ralph)
    (hfailed : (outcomes k).passed = false) :
    decisionAt ralph outcomes k =
      if RALPH_NO_PROGRESS_LIMIT ≤ (afterIterations ralph outcomes (k + 1)).noProgressStreak.getD 0
      then RalphDecision.stalled
      else if k + 1 < ralph.maxIterations then RalphDecision.retry
      else RalphDecision.exhausted := by
  rw [RalphOutcome.passed] at hfailed
  rw [decisionAt, decideRalphNext, hfailed, (books hfresh (k + 1)).attempts,
    afterIterations_maxIterations]
  rfl

theorem failed_of_retry {j : Nat} (h : decisionAt ralph outcomes j = RalphDecision.retry) :
    (outcomes j).passed = false := by
  cases hpassed : (outcomes j).passed with
  | false => rfl
  | true =>
      rw [decisionAt_done_iff.mpr hpassed] at h
      cases h

/-- The budget alone stops the loop, if nothing else did. -/
theorem exists_stop (hfresh : FreshLoop ralph) (hbudget : 1 ≤ ralph.maxIterations) :
    exists k, k < ralph.maxIterations ∧ StopsAt ralph outcomes k := by
  have hlast : decisionAt ralph outcomes (ralph.maxIterations - 1) ≠ RalphDecision.retry := by
    intro h
    rw [decisionAt_of_failed hfresh (failed_of_retry h)] at h
    split at h
    · cases h
    · split at h
      · omega
      · cases h
  have hexists : exists k, decisionAt ralph outcomes k ≠ RalphDecision.retry := ⟨_, hlast⟩
  refine ⟨Nat.find hexists, ?_, ?_, Nat.find_spec hexists⟩
  · have := Nat.find_min' hexists hlast
    omega
  · intro j hj
    exact not_not.mp (Nat.find_min hexists hj)

theorem StopsAt.unique {j k : Nat} (hj : StopsAt ralph outcomes j)
    (hk : StopsAt ralph outcomes k) : j = k := by
  rcases lt_trichotomy j k with hlt | heq | hgt
  · exact absurd (hk.retries j hlt) hj.stops
  · exact heq
  · exact absurd (hj.retries k hgt) hk.stops

structure RalphLoopLaw (ralph : RalphStepState) (outcomes : Nat -> RalphOutcome) : Prop where
  stops : exists k, k < ralph.maxIterations ∧ StopsAt ralph outcomes k
  done : forall k, StopsAt ralph outcomes k ->
    (decisionAt ralph outcomes k = RalphDecision.done <-> (outcomes k).passed = true)
  stalled : forall k, StopsAt ralph outcomes k ->
    (decisionAt ralph outcomes k = RalphDecision.stalled <-> StuckAt outcomes k)
  exhausted : forall k, StopsAt ralph outcomes k ->
    (decisionAt ralph outcomes k = RalphDecision.exhausted <->
      (outcomes k).passed = false ∧ ¬ StuckAt outcomes k) ∧
    (decisionAt ralph outcomes k = RalphDecision.exhausted -> k + 1 = ralph.maxIterations)
  books : forall n, Books ralph outcomes n

theorem stalled_iff (hfresh : FreshLoop ralph) {k : Nat} (h : StopsAt ralph outcomes k) :
    decisionAt ralph outcomes k = RalphDecision.stalled <-> StuckAt outcomes k := by
  have hfailed : forall j, j < k -> (outcomes j).passed = false :=
    fun j hj => failed_of_retry (h.retries j hj)
  cases hpassed : (outcomes k).passed with
  | true =>
      rw [decisionAt_done_iff.mpr hpassed]
      constructor
      · intro hdone
        cases hdone
      · rintro ⟨n, head, rfl, hsame⟩
        have hlast := (hsame 2 (Nat.le_refl 2)).1
        rw [hpassed] at hlast
        cases hlast
  | false =>
      rw [stuckAt_iff hfailed, ← streak_limit_iff hfresh, decisionAt_of_failed hfresh hpassed]
      split
      · next hlimit => simp [hlimit]
      · next hbelow =>
          simp only [hbelow, iff_false]
          split <;> exact fun heq => nomatch heq

theorem exhausted_iff (hfresh : FreshLoop ralph) {k : Nat} (h : StopsAt ralph outcomes k) :
    decisionAt ralph outcomes k = RalphDecision.exhausted <->
      (outcomes k).passed = false ∧ ¬ StuckAt outcomes k := by
  rw [← stalled_iff hfresh h, ← Bool.not_eq_true, ← @decisionAt_done_iff ralph]
  have hstops := h.stops
  cases hdecision : decisionAt ralph outcomes k with
  | done => simp
  | retry => exact absurd hdecision hstops
  | exhausted => simp
  | stalled => simp

/-- A spent budget is what exhausts the loop. -/
theorem budget_of_exhausted (hfresh : FreshLoop ralph) (hbudget : 1 ≤ ralph.maxIterations)
    {k : Nat} (h : StopsAt ralph outcomes k)
    (hexhausted : decisionAt ralph outcomes k = RalphDecision.exhausted) :
    k + 1 = ralph.maxIterations := by
  rcases @exists_stop ralph outcomes hfresh hbudget with ⟨j, hj, hstop⟩
  have hle : k < ralph.maxIterations := by
    rw [h.unique hstop]
    exact hj
  rw [decisionAt_of_failed hfresh ((exhausted_iff hfresh h).mp hexhausted).1] at hexhausted
  split at hexhausted
  · cases hexhausted
  · split at hexhausted
    · cases hexhausted
    · omega

/-- A loop is seeded when its run starts, and restarted when its step is re-run. -/
inductive LoopStart : RalphStepState -> Prop where
  | seeded (config : RalphConfig) : LoopStart (seedRalphState config)
  | restarted (previous ralph : RalphStepState)
      (hrestart : restartRalphState (some previous) = some ralph) : LoopStart ralph

theorem LoopStart.fresh (h : LoopStart ralph) : FreshLoop ralph := by
  cases h with
  | seeded config => exact ⟨rfl, rfl, rfl, rfl⟩
  | restarted previous _ hrestart =>
      cases hrestart
      exact ⟨rfl, rfl, rfl, rfl⟩

theorem ralphLoop_law (hstart : LoopStart ralph) (hbudget : 1 ≤ ralph.maxIterations)
    (outcomes : Nat -> RalphOutcome) : RalphLoopLaw ralph outcomes where
  stops := exists_stop hstart.fresh hbudget
  done := fun _ _ => decisionAt_done_iff
  stalled := fun _ h => stalled_iff hstart.fresh h
  exhausted := fun _ h =>
    ⟨exhausted_iff hstart.fresh h, budget_of_exhausted hstart.fresh hbudget h⟩
  books := books hstart.fresh

/-- A loop of three iterations that never moves its branch. -/
theorem ralphLoop_law_idle :
    RalphLoopLaw (seedRalphState ⟨"pnpm test", 3⟩)
      (fun _ => { verdict := some ⟨false, 1, none, some "abc"⟩ }) :=
  ralphLoop_law (LoopStart.seeded _) (by decide) _

end Fold

end Execution
end CatFactory
