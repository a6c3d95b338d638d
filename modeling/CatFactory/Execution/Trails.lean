import CatFactory.Execution.Retry

/-!
# What a run remembers of its attempts

Every re-drive installs a fresh run that carries two trails: the failures of the
attempts before it and the outputs that a re-drive threw away.  Each trail is
capped on every append, and still is the end of the whole history.
-/

namespace CatFactory
namespace Execution

open Foundation

/-!
## Capped trails
-/

theorem lastEntries_of_length_le {n : Nat} {entries : List entry}
    (h : entries.length ≤ n) : lastEntries n entries = entries := by
  unfold lastEntries
  rw [Nat.sub_eq_zero_of_le h]
  rfl

theorem length_lastEntries (n : Nat) (entries : List entry) :
    (lastEntries n entries).length = min n entries.length := by
  unfold lastEntries
  rw [List.length_drop]
  omega

/-- Capping before an append changes nothing that the cap after it keeps. -/
theorem lastEntries_append_lastEntries (n : Nat) (entries more : List entry) :
    lastEntries n (lastEntries n entries ++ more) = lastEntries n (entries ++ more) := by
  have hcapped : lastEntries n entries ++ more =
      (entries ++ more).drop (entries.length - n) := by
    rw [List.drop_append_of_le_length (Nat.sub_le _ _)]
    rfl
  rw [hcapped]
  unfold lastEntries
  rw [List.drop_drop, List.length_drop]
  congr 1
  rw [List.length_append]
  omega

/-!
## Attempts
-/

/-- What an attempt makes of the run before it is re-driven, and the re-drive. -/
structure Attempt where
  steps : List PipelineStep
  currentStep : Nat
  status : ExecutionStatus
  failure : Option AgentFailure
  request : Redrive
deriving DecidableEq

/-- The run as the attempt leaves it; the trails are written by re-drives alone. -/
def attempted (run : ExecutionInstance) (attempt : Attempt) : ExecutionInstance :=
  { run with
    steps := attempt.steps
    currentStep := attempt.currentStep
    status := attempt.status
    failure := attempt.failure }

def redriveAttempt (run : ExecutionInstance) (attempt : Attempt) : ExecutionInstance :=
  redrive (attempted run attempt) attempt.request

def redriveAttempts (run : ExecutionInstance) (attempts : List Attempt) :
    ExecutionInstance :=
  attempts.foldl redriveAttempt run

/-- The output of a step, when the step succeeded with one that is not blank. -/
def succeededOutput (step : PipelineStep) : Option Utf16 :=
  if step.state = AgentState.done then step.output.filter fun output => trimUnits output ≠ []
  else none

/-- What is kept of an output: its first characters, flagged when there are more. -/
def clippedOutput (stepIndex occurredAt : Nat) (output : Utf16) : PriorStepOutput :=
  { stepIndex := stepIndex
    occurredAt := occurredAt
    output := sliceTo MAX_HISTORY_OUTPUT_CHARS output
    truncated :=
      if MAX_HISTORY_OUTPUT_CHARS < output.length then some true else none }

/-- The outputs that one re-drive throws away, in the order of the steps. -/
def discardedBy (attempt : Attempt) : List PriorStepOutput :=
  (attempt.steps.zipIdx.drop
      (planOf attempt.request.target attempt.steps).currentStep).filterMap fun entry =>
    (succeededOutput entry.1).map fun output =>
      clippedOutput entry.2 (entry.1.finishedAt.getD attempt.request.now) output

/-!
## Clipping
-/

/-- A step's entry is its output, clipped. -/
theorem discardedOutput_eq (now i : Nat) (step : PipelineStep) :
    discardedOutput now i step =
      (succeededOutput step).map fun output =>
        clippedOutput i (step.finishedAt.getD now) output := by
  unfold discardedOutput succeededOutput
  cases step.output with
  | none => simp
  | some output =>
      by_cases hdone : step.state = AgentState.done
      · by_cases hblank : trimUnits output = []
        · simp [hdone, hblank]
        · by_cases hlong : MAX_HISTORY_OUTPUT_CHARS < output.length
          · simp [hdone, hblank, hlong, clippedOutput]
          · have hwhole : clippedOutput i (step.finishedAt.getD now) output =
                { stepIndex := i
                  occurredAt := step.finishedAt.getD now
                  output := output } := by
              unfold clippedOutput
              rw [if_neg hlong, sliceTo, List.take_of_length_le (Nat.not_lt.mp hlong)]
            have hkept : (some output).filter (fun output => trimUnits output ≠ []) =
                some output := by simp [hblank]
            rw [if_pos hdone, hkept, Option.map_some, hwhole]
            simp only [hdone, hblank, ne_eq, not_true_eq_false, or_self, if_false]
            rw [if_neg hlong]
      · simp [hdone]

/-!
## One re-drive
-/

theorem redriveAttempt_failureHistory (run : ExecutionInstance) (attempt : Attempt) :
    (redriveAttempt run attempt).failureHistory =
      lastEntries MAX_FAILURE_HISTORY (run.failureHistory ++ attempt.failure.toList) := by
  rfl

theorem redriveAttempt_outputHistory (run : ExecutionInstance) (attempt : Attempt) :
    (redriveAttempt run attempt).outputHistory =
      lastEntries MAX_OUTPUT_HISTORY (run.outputHistory ++ discardedBy attempt) := by
  show lastEntries MAX_OUTPUT_HISTORY (run.outputHistory ++
    (attempt.steps.zipIdx.drop
        (planOf attempt.request.target attempt.steps).currentStep).filterMap
      (fun entry => discardedOutput attempt.request.now entry.2 entry.1)) = _
  simp only [discardedOutput_eq]
  rfl

/-- An output that succeeded stays on its step, or is thrown away and recorded. -/
theorem redriveAttempt_keeps (run : ExecutionInstance) (attempt : Attempt) {i : Nat}
    {step : PipelineStep} {output : Utf16} (hstep : attempt.steps[i]? = some step)
    (houtput : succeededOutput step = some output) :
    (redriveAttempt run attempt).steps[i]? = some step ∨
      clippedOutput i (step.finishedAt.getD attempt.request.now) output ∈
        discardedBy attempt := by
  by_cases hrebuilt : Rebuilds attempt.request.target attempt.steps i
  · right
    have hi : i < attempt.steps.length := (List.getElem?_eq_some_iff.mp hstep).1
    have hle := (planOf_currentStep_le_iff hi).mpr hrebuilt
    apply List.mem_filterMap.mpr
    refine ⟨(step, i), ?_, ?_⟩
    · apply List.mem_iff_getElem?.mpr
      refine ⟨i - (planOf attempt.request.target attempt.steps).currentStep, ?_⟩
      rw [List.getElem?_drop, Nat.add_sub_cancel' hle, List.getElem?_zipIdx, hstep]
      simp
    · simp only [houtput, Option.map_some]
  · left
    exact planOf_getElem_before hstep hrebuilt

/-!
## Any number of re-drives
-/

theorem redriveAttempts_failureHistory (run : ExecutionInstance) (attempts : List Attempt)
    (h : attempts = [] -> run.failureHistory.length ≤ MAX_FAILURE_HISTORY) :
    (redriveAttempts run attempts).failureHistory =
      lastEntries MAX_FAILURE_HISTORY
        (run.failureHistory ++ attempts.flatMap fun a => a.failure.toList) := by
  induction attempts generalizing run with
  | nil =>
      rw [List.flatMap_nil, List.append_nil, lastEntries_of_length_le (h rfl)]
      rfl
  | cons attempt rest ih =>
      have hnext := redriveAttempt_failureHistory run attempt
      have hcapped : rest = [] ->
          (redriveAttempt run attempt).failureHistory.length ≤ MAX_FAILURE_HISTORY := by
        intro _
        rw [hnext, length_lastEntries]
        exact Nat.min_le_left _ _
      show (redriveAttempts (redriveAttempt run attempt) rest).failureHistory = _
      rw [ih _ hcapped, hnext, lastEntries_append_lastEntries, List.flatMap_cons,
        List.append_assoc]

theorem redriveAttempts_outputHistory (run : ExecutionInstance) (attempts : List Attempt)
    (h : attempts = [] -> run.outputHistory.length ≤ MAX_OUTPUT_HISTORY) :
    (redriveAttempts run attempts).outputHistory =
      lastEntries MAX_OUTPUT_HISTORY (run.outputHistory ++ attempts.flatMap discardedBy) := by
  induction attempts generalizing run with
  | nil =>
      rw [List.flatMap_nil, List.append_nil, lastEntries_of_length_le (h rfl)]
      rfl
  | cons attempt rest ih =>
      have hnext := redriveAttempt_outputHistory run attempt
      have hcapped : rest = [] ->
          (redriveAttempt run attempt).outputHistory.length ≤ MAX_OUTPUT_HISTORY := by
        intro _
        rw [hnext, length_lastEntries]
        exact Nat.min_le_left _ _
      show (redriveAttempts (redriveAttempt run attempt) rest).outputHistory = _
      rw [ih _ hcapped, hnext, lastEntries_append_lastEntries, List.flatMap_cons,
        List.append_assoc]

/-- A run that no re-drive made has short trails. -/
def StartsShort (run : ExecutionInstance) : Prop :=
  run.failureHistory.length ≤ MAX_FAILURE_HISTORY ∧
    run.outputHistory.length ≤ MAX_OUTPUT_HISTORY

/-- The trails of the last run are the ends of the whole history, and every output
that succeeded is on its step or in that history. -/
theorem redriveAttempts_trails (run : ExecutionInstance) (attempts : List Attempt)
    (hstart : attempts = [] -> StartsShort run) :
    (redriveAttempts run attempts).failureHistory =
        lastEntries MAX_FAILURE_HISTORY
          (run.failureHistory ++ attempts.flatMap fun a => a.failure.toList) ∧
      (redriveAttempts run attempts).outputHistory =
        lastEntries MAX_OUTPUT_HISTORY
          (run.outputHistory ++ attempts.flatMap discardedBy) ∧
      forall before attempt after, attempts = before ++ attempt :: after ->
        forall i step output, attempt.steps[i]? = some step ->
          succeededOutput step = some output ->
            (redriveAttempts run (before ++ [attempt])).steps[i]? = some step ∨
              clippedOutput i (step.finishedAt.getD attempt.request.now) output ∈
                discardedBy attempt := by
  constructor
  · exact redriveAttempts_failureHistory run attempts fun h => (hstart h).1
  constructor
  · exact redriveAttempts_outputHistory run attempts fun h => (hstart h).2
  · intro before attempt after _ i step output hstep houtput
    have hlast : redriveAttempts run (before ++ [attempt]) =
        redriveAttempt (redriveAttempts run before) attempt := List.foldl_concat ..
    rw [hlast]
    exact redriveAttempt_keeps _ attempt hstep houtput

/-- A review that failed after its estimate was written, and was restarted there. -/
def restartedReview : Attempt :=
  { steps :=
      [{ agentKind := "task-estimator"
         state := AgentState.done
         output := some "two days"
         finishedAt := some 5 },
        { agentKind := "reviewer", state := AgentState.working }]
    currentStep := 1
    status := ExecutionStatus.failed
    failure := some
      { kind := "agent"
        message := "the model timed out"
        detail := none
        hint := none
        occurredAt := 6
        lastSubtasks := none }
    request :=
      { target := RedriveTarget.restartFromStep 0
        newId := "exec_2"
        initiatedBy := none
        now := 7 } }

theorem redriveAttempts_trails_restarted :
    (redriveAttempts gatedReviewRun [restartedReview, restartedReview]).outputHistory =
        [clippedOutput 0 5 "two days", clippedOutput 0 5 "two days"] ∧
      (redriveAttempts gatedReviewRun [restartedReview, restartedReview]).failureHistory.length =
        2 := by
  have htrails := redriveAttempts_trails gatedReviewRun [restartedReview, restartedReview]
    (fun h => by cases h)
  constructor
  · exact htrails.2.1
  · rw [htrails.1]
    rfl

end Execution
end CatFactory
