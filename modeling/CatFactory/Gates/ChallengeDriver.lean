import CatFactory.Foundation.Versioned
import CatFactory.Gates.HumanDecisions
import CatFactory.Reviews.ChallengeLaw

/-!
# Drivers on a challenged review

Workers read the stored run, work on their copy, and write it back under
compare-and-swap; people add challenges to the stored run meanwhile.  A worker
that loses a race is gone, and one may die at any point.
-/

namespace CatFactory
namespace Gates

open Execution (AgentState ExecutionStatus StepApprovalStatus)
open Foundation Reviews

/-!
## The stored run
-/

/-- A stored run: its record, the investigators claimed in it so far, and its
revision. -/
structure RunRow where
  run : Run
  dispatched : Nat := 0
  rev : Nat := 0
deriving DecidableEq

/-- The review and the queue of the step under the cursor. -/
def queueOn (run : Run) : Option ReviewQueue :=
  run.steps[run.currentStep]?.bind fun step =>
    step.prReview.map fun review => { review := review, challengeJobs := step.challengeJobs }

def putQueue (q : ReviewQueue) (step : Step) : Step :=
  { step with
    prReview := some q.review
    challengeJobs := q.challengeJobs }

def setQueue (q : ReviewQueue) (run : Run) : Run :=
  { run with steps := run.steps.modify run.currentStep (putQueue q) }

/-- The drivers work on the run, and its review is being challenged. -/
def drivable (run : Run) : Bool :=
  (run.status = ExecutionStatus.running || run.status = ExecutionStatus.paused) &&
    run.steps[run.currentStep]?.any isChallengingReview

/-!
## Workers
-/

/-- Where a worker is: it has claimed entries to start, it polls, or it flipped the
review and is about to park the run. -/
inductive DrivePoint where
  | driving (pending : List PrReviewChallengeJob)
  | polling
  | flipped
deriving DecidableEq

/-- A worker and the row as it knows it: the one it read, or wrote last. -/
structure Worker where
  seen : RunRow
  point : DrivePoint
deriving DecidableEq

structure ChallengeSystem where
  stored : RunRow
  workers : Nat -> Option Worker

def setWorker (w : Nat) (worker : Option Worker) (workers : Nat -> Option Worker) :
    Nat -> Option Worker :=
  fun v => if v = w then worker else workers v

/-- Write the worker's copy; a lost race ends the worker. -/
def save (w : Nat) (seen next : RunRow) (point : Option DrivePoint) (s : ChallengeSystem) :
    ChallengeSystem :=
  match compareAndSwap RunRow.rev (some s.stored) { next with rev := seen.rev + 1 }
      seen.rev with
  | some row =>
      { stored := row
        workers :=
          setWorker w (point.map fun p => { seen := row, point := p }) s.workers }
  | none => { s with workers := setWorker w none s.workers }

inductive ChallengeAction where
  | challengeFinding (now : Nat) (findingId : String) (question : Option String)
  | enterDrive (w : Nat)
  | enterPoll (w : Nat)
  | start (w : Nat) (outcome : StartOutcome)
  | claim (w : Nat)
  | flip (w : Nat)
  | park (w now : Nat) (approvalId : String)
  | poll (w : Nat) (updates : List (Option JobUpdate))
  | heartbeat (w : Nat)
  /-- The worker returns or its process dies. -/
  | leave (w : Nat)
deriving DecidableEq

/-- Read the stored run. -/
def enter (w : Nat) (point : ReviewQueue -> DrivePoint) (s : ChallengeSystem) :
    Option ChallengeSystem :=
  if drivable s.stored.run ∧ (s.workers w).isNone then
    (queueOn s.stored.run).map fun q =>
      { s with workers := setWorker w (some { seen := s.stored, point := point q }) s.workers }
  else none

/-- The queue drained: hand the review back. -/
def finishQueue (q : ReviewQueue) : ReviewQueue :=
  { q with
    review :=
      { q.review with
        status := PrReviewStatus.awaitingSelection
        resolution := none } }

/-- `parkStepOnDecision` on the step under the cursor. -/
def parkRun (now : Nat) (approvalId : String) (run : Run) : Run :=
  { run with
    steps := run.steps.modify run.currentStep (openDecisionPark now approvalId "")
    status := ExecutionStatus.blocked }

def challengeAct (s : ChallengeSystem) : ChallengeAction -> Option ChallengeSystem
  | .challengeFinding now findingId question =>
      (challengeFinding now findingId question s.stored.run).toOption.map fun run =>
        { s with stored := { s.stored with run := run, rev := s.stored.rev + 1 } }
  | .enterDrive w => enter w (fun q => .driving (claimedUnstarted q)) s
  | .enterPoll w => enter w (fun _ => .polling) s
  | .start w outcome =>
      match s.workers w with
      | some { seen := seen, point := .driving (job :: rest) } =>
          (queueOn seen.run).map fun q =>
            save w seen { seen with run := setQueue (startJob job outcome q) seen.run }
              (some (.driving rest)) s
      | _ => none
  | .claim w =>
      match s.workers w with
      | some { seen := seen, point := .driving [] } =>
          (queueOn seen.run).bind fun q =>
            (queued q).head?.bind fun job =>
              if (running q).length < MAX_CONCURRENT_CHALLENGE_INVESTIGATIONS then
                some (save w seen
                  { seen with
                    run := setQueue (claimJob seen.dispatched job q) seen.run
                    dispatched := seen.dispatched + 1 }
                  (some (.driving [claimedJob seen.dispatched job])) s)
              else none
      | _ => none
  | .flip w =>
      match s.workers w with
      | some { seen := seen, point := .driving [] } =>
          (queueOn seen.run).bind fun q =>
            if q.challengeJobs = [] then
              some (save w seen { seen with run := setQueue (finishQueue q) seen.run }
                (some .flipped) s)
            else none
      | _ => none
  | .park w now approvalId =>
      match s.workers w with
      | some { seen := seen, point := .flipped } =>
          -- a blind write: whatever is stored is replaced
          some
            { stored :=
                { seen with
                  run := parkRun now approvalId seen.run
                  rev := s.stored.rev + 1 }
              workers := setWorker w none s.workers }
      | _ => none
  | .poll w updates =>
      match s.workers w with
      | some { seen := seen, point := .polling } =>
          (queueOn seen.run).bind fun q =>
            if updates.length = (startedJobs q).length then
              let settled := settleAll ((startedJobs q).zip updates) q
              if settled.2 then
                some (save w seen { seen with run := setQueue settled.1 seen.run } none s)
              else some { s with workers := setWorker w none s.workers }
            else none
      | _ => none
  | .heartbeat w =>
      match s.workers w with
      | some { seen := seen, point := .polling } => some (save w seen seen none s)
      | _ => none
  | .leave w => some { s with workers := setWorker w none s.workers }

end Gates
end CatFactory
