import CatFactory.Foundation.Runs
import CatFactory.Foundation.Versioned
import CatFactory.Gates.CompanionRounds
import CatFactory.Gates.Judging

/-!
# The loop of a judge

A run with judges in it: they are evaluated, people answer them, and the loop-backs
of later steps bring them round again.  Every write moves the revision of the run;
a bounce that a person asked for rewinds the snapshot it wrote first.
-/

namespace CatFactory
namespace Gates

open Execution (AgentState ExecutionStatus StepApprovalStatus ReworkRequester)
open Foundation Reviews

/-!
## The loop as a system
-/

/-- A bounce between its two writes. -/
structure Bounce where
  run : Run
  rev : Nat
  rewind : Rewind
deriving DecidableEq

/-- The stored run with the bounces in flight.  Beside it the ids that were minted,
the bar each judge resolved first, the rounds the policy answered, and the parks
whose answer took effect, by step and approval. -/
structure JudgeSystem where
  run : Run
  rev : Nat := 0
  bouncing : List Bounce := []
  minted : List String := []
  resolved : List (Nat × Rat × Nat) := []
  answered : List (Nat × Nat) := []
  effects : List (Nat × String) := []
deriving DecidableEq

inductive JudgeAction where
  /-- What its own handlers make of the step under the cursor, not a judge's. -/
  | write (step : Step) (status : ExecutionStatus)
  /-- The step under the cursor, not a judge's, is over. -/
  | settle (now : Nat)
  /-- The step under the cursor, not a judge's, sends the run back. -/
  | loopBack (now target : Nat) (rework : Rework)
  | evaluate (r : Evaluation)
  | answer (now : Nat) (choice : JudgeChoice) (feedback : Option String)
  /-- The second write of a bounce. -/
  | rewind (now : Nat) (bounce : Bounce)
  /-- A person votes on the approval that a judge's step asks for once it is over. -/
  | approve (now : Nat) (proposal : Option String) (actor : GateActor)
  | fail
deriving DecidableEq

def stepUnder (run : Run) : Option Step :=
  run.steps[run.currentStep]?

/-- The judge under the cursor, with its step. -/
def judgeUnder (registry : JudgeRegistry) (run : Run) : Option (Step × Judge) :=
  (stepUnder run).bind fun step =>
    (registry.judge step.agentKind).map fun judge => (step, judge)

/-- The step under the cursor is not a judge's. -/
def worksUnder (registry : JudgeRegistry) (run : Run) : Bool :=
  (stepUnder run).any fun step => (registry.judge step.agentKind).isNone

/-- The approval of a judge that is over, when its id leads back to the step. -/
def judgeGate (registry : JudgeRegistry) (run : Run) : Option String :=
  (judgeUnder registry run).bind fun (step, _) =>
    if step.judge.any fun state => state.status = .passed ∨ state.status = .skipped then
      (step.approval.map StepApproval.id).filter fun id =>
        (gateOf run id).map Prod.fst = some run.currentStep
    else none

def firstBar (resolved : List (Nat × Rat × Nat)) (i : Nat) : Option (Rat × Nat) :=
  (resolved.find? fun entry => entry.1 = i).map Prod.snd

def noteBar (i : Nat) (bar : Rat × Nat) (resolved : List (Nat × Rat × Nat)) :
    List (Nat × Rat × Nat) :=
  if (firstBar resolved i).isSome then resolved else (i, bar) :: resolved

def roundsAt (run : Run) (i : Nat) : Nat :=
  ((run.steps[i]?.bind Step.judge).map fun state => state.rounds.length).getD 0

/-- The stored run after a write. -/
def JudgeSystem.saved (s : JudgeSystem) (run : Run) : JudgeSystem :=
  { s with run := run, rev := s.rev + 1 }

def judgeAct (registry : JudgeRegistry) (s : JudgeSystem) : JudgeAction -> Option JudgeSystem
  | .write step status =>
      (stepUnder s.run).bind fun old =>
        if worksUnder registry s.run ∧ step.agentKind = old.agentKind ∧
            step.judge = old.judge ∧ status ≠ ExecutionStatus.done then
          some (s.saved
            { s.run with
              steps := s.run.steps.set s.run.currentStep step
              status := status })
        else none
  | .settle now =>
      if worksUnder registry s.run then
        some (s.saved (advanceRunPastGate now s.run.currentStep s.run))
      else none
  | .loopBack now target rework =>
      if worksUnder registry s.run ∧ target ≤ s.run.currentStep then
        some (s.saved
          { rerunProducerThrough now target s.run.currentStep rework s.run with
            status := unblock s.run.status })
      else none
  | .evaluate r =>
      if s.run.status = ExecutionStatus.running ∧ r.approvalId ∉ s.minted then
        (judgeUnder registry s.run).map fun (step, judge) =>
          let out := evaluate judge r step s.run
          let i := s.run.currentStep
          { s.saved out.1 with
            minted := r.approvalId :: s.minted
            resolved :=
              if assesses r then noteBar i (judge.bar r.preset) s.resolved else s.resolved
            answered :=
              if out.2 = .settledByPolicy then (i, roundsAt out.1 i) :: s.answered
              else s.answered }
      else none
  | .answer now choice feedback =>
      (findParkedJudge registry s.run).toOption.bind fun found =>
        (recordJudgeAnswer now choice feedback found s.run).toOption.map fun
          | (run, none) =>
              { s.saved run with
                effects := (found.index, found.approval.id) :: s.effects }
          | (run, some rewind) =>
              { s.saved run with
                bouncing :=
                  { run := run, rev := s.rev + 1, rewind := rewind } :: s.bouncing }
  | .rewind now bounce =>
      if bounce ∈ s.bouncing then
        let s := { s with bouncing := s.bouncing.erase bounce }
        if bounce.rev = s.rev then
          some
            { s.saved (rewindForBounce now bounce.rewind bounce.run) with
              effects := (bounce.rewind.index, bounce.rewind.approvalId) :: s.effects }
        else some s
      else none
  | .approve now proposal actor =>
      (judgeGate registry s.run).bind fun id =>
        (approveStep registry.toRegistry now s.run.id id proposal actor
          s.run).toOption.map s.saved
  | .fail => some (s.saved (failRun s.run))

/-!
## The condition
-/

/-- The policy answers this round: the verdict is below the bar, it would bounce the
work to a step that exists, and the budget is spent. -/
def policyAnswers (judge : Judge) (r : Evaluation) (run : Run) (state : JudgeStepState) :
    Bool :=
  decide ((assess judge r.reply).1.score < state.threshold.getD 0) &&
    decide (judge.onFail = .bounce) &&
    (bounceTargetIndex judge.toJudgeDefinition run.steps run.currentStep).isSome &&
    decide (state.maxBounces ≤ state.bounces) && r.resolvesOwnCaps

/-- A judge that assesses again was not made by a pass-through, and its last cap was
not answered by the policy unless this one is. -/
def barInForce (registry : JudgeRegistry) (s : JudgeSystem) : JudgeAction -> Bool
  | .evaluate r =>
      !assesses r || (judgeUnder registry s.run).all fun (step, judge) =>
        step.judge.all fun state =>
          state.threshold.isSome &&
            (!state.capSettledByPolicy || policyAnswers judge r s.run state)
  | _ => true

end Gates
end CatFactory
