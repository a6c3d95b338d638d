import CatFactory.Gates.CompanionGrading

/-!
# Judging a run

A judge scores the work against a rubric and disposes of the score: the run goes
on, its producer is sent back, a person is asked, or the run fails.
-/

namespace CatFactory
namespace Gates

open Execution (AgentState ExecutionStatus StepApprovalStatus ReworkRequester)
open Foundation Reviews

/-!
## Registered judges
-/

/-- What a judge reads of the task's merge preset. -/
structure JudgePreset where
  judgeMinScore : Rat
  judgeMaxBounces : Nat
deriving DecidableEq

inductive JudgeOnFail where
  | park
  | bounce
  | fail
deriving DecidableEq

structure Judge extends JudgeDefinition where
  rubricId : String
  threshold : Option (JudgePreset -> Rat) := none
  attemptBudget : Option (JudgePreset -> Nat) := none
  onFail : JudgeOnFail
  unwiredOutput : Option String := none

/-- The registries of the engine, its judges registered in full. -/
structure JudgeRegistry extends Registry where
  judge : String -> Option Judge
  judgeFor_eq : forall kind, judgeFor kind = (judge kind).map Judge.toJudgeDefinition

/-- The bar a preset sets for the judge: the score to reach and the bounces it may
spend. -/
def Judge.bar (judge : Judge) (preset : JudgePreset) : Rat × Nat :=
  ((judge.threshold.map fun f => f preset).getD preset.judgeMinScore,
    (judge.attemptBudget.map fun f => f preset).getD preset.judgeMaxBounces)

/-!
## The disposition of a verdict
-/

inductive JudgeParkReason where
  | budgetSpent
  | noBounceTarget
  | registration
deriving DecidableEq

structure JudgeDispositionInput where
  score : Rat
  threshold : Rat
  onFail : JudgeOnFail
  bounces : Nat
  maxBounces : Nat
  hasBounceTarget : Bool
deriving DecidableEq

structure JudgeDispositionResult where
  disposition : JudgeDisposition
  note : Option String := none
  parkReason : Option JudgeParkReason := none
deriving DecidableEq

def spentOf (bounces maxBounces : Nat) : String :=
  toString bounces ++ "/" ++ toString maxBounces

def disposeJudgeVerdict (input : JudgeDispositionInput) : JudgeDispositionResult :=
  if input.threshold ≤ input.score then { disposition := .pass }
  else
    match input.onFail with
    | .fail => { disposition := .fail }
    | .bounce =>
        if !input.hasBounceTarget then
          { disposition := .park
            note := some
              ("No preceding producing step to bounce to, so the verdict needs a human " ++
                "decision.")
            parkReason := some .noBounceTarget }
        else if input.maxBounces ≤ input.bounces then
          { disposition := .park
            note := some
              ("Rework budget spent (" ++ spentOf input.bounces input.maxBounces ++
                " bounce round(s)); asking a human.")
            parkReason := some .budgetSpent }
        else { disposition := .bounce }
    | .park => { disposition := .park, parkReason := some .registration }

/-!
## The texts of a round
-/

/-- `toFixed(2)`: the nearest hundredth, the larger one when two are as near. -/
def toFixed2 (x : Rat) : String :=
  let hundredths := ((if x < 0 then -x else x) * 100 + 1 / 2).floor.toNat
  (if x < 0 then "-" else "") ++ toString (hundredths / 100) ++ "." ++
    toString (hundredths / 10 % 10) ++ toString (hundredths % 10)

def JUDGE_SEVERITY_RANK : JudgeFindingSeverity -> Nat
  | .low => 0
  | .medium => 1
  | .high => 2
  | .critical => 3

def severityWord : JudgeFindingSeverity -> String
  | .low => "low"
  | .medium => "medium"
  | .high => "high"
  | .critical => "critical"

def renderFinding (finding : JudgeFinding) : String :=
  let place := finding.place.filter fun p => p ≠ ""
  let detail := finding.detail.filter fun d => d ≠ ""
  "- [" ++ severityWord finding.severity ++ "] " ++ finding.title ++
    (place.map fun p => " (" ++ p ++ ")").getD "" ++
    (detail.map fun d => " — " ++ d).getD ""

/-- The brief of a bounce, its findings worst first. -/
def renderJudgeRework (verdict : JudgeVerdict) (rubricName : String)
    (extraFeedback : Option String) : String :=
  let findings := verdict.findings.mergeSort fun a b =>
    decide (JUDGE_SEVERITY_RANK b.severity ≤ JUDGE_SEVERITY_RANK a.severity)
  let head :=
    "The \"" ++ rubricName ++ "\" review scored this work " ++ toFixed2 verdict.score ++
      " and asked for changes."
  let summary := if trim verdict.summary = "" then [] else ["", trim verdict.summary]
  let list :=
    if findings = [] then []
    else ["", "Address each of the following:"] ++ findings.map renderFinding
  let guidance :=
    match trimmed extraFeedback with
    | none => []
    | some text => ["", "Additional guidance: " ++ text]
  String.intercalate "\n" ([head] ++ summary ++ list ++ guidance)

def renderPassOutput (judge : Judge) (verdict : JudgeVerdict) (threshold : Rat) : String :=
  let nits := verdict.findings.length
  "The \"" ++ judge.rubricName ++ "\" review passed (" ++ toFixed2 verdict.score ++ " ≥ " ++
    toFixed2 threshold ++ ")." ++
    (if 0 < nits then " " ++ toString nits ++ " non-blocking finding(s) recorded." else "")

def renderCapSettledOutput (judge : Judge) (verdict : JudgeVerdict)
    (state : JudgeStepState) : String :=
  "The \"" ++ judge.rubricName ++ "\" review did not clear the bar (" ++
    toFixed2 verdict.score ++ " < " ++ toFixed2 (state.threshold.getD 0) ++
    ") and its rework budget (" ++ spentOf state.bounces state.maxBounces ++
    " round(s)) is spent. This run's risk policy answered the cap instead of stopping " ++
    "for a person, so the work proceeded as it stands. " ++ trim verdict.summary

/-!
## One evaluation
-/

/-- What one evaluation reads. -/
structure Evaluation where
  now : Nat
  approvalId : String
  assessorEnabled : Bool := true
  wired : Bool := true
  preset : JudgePreset
  rubricOverridden : Bool := false
  /-- The parsed verdict with its model and pin, or what the assessment threw. -/
  reply : Except String (JudgeVerdict × Option String × Option JudgeModelPin)
  /-- Whether the policy answers caps, as it stands when this one is reached. -/
  resolvesOwnCaps : Bool := false
deriving DecidableEq

/-- How an evaluation ended. -/
inductive JudgeExit where
  | skipped
  | passed
  | failed
  | bounced
  | settledByPolicy
  | parked
deriving DecidableEq

def passThrough (judge : Judge) (assessorEnabled : Bool) (old : Option JudgeStepState) :
    JudgeStepState × String :=
  let note :=
    if !assessorEnabled then
      "The \"" ++ judge.rubricName ++
        "\" review was skipped (no assessment model is configured)."
    else
      judge.unwiredOutput.getD
        ("The \"" ++ judge.rubricName ++
          "\" review was skipped (its provider is not configured).")
  ({ old.getD { status := .skipped, maxBounces := 0 } with
      status := .skipped
      rubricId := some judge.rubricId
      rubricName := some judge.rubricName
      note := some note }, note)

/-- The bar is read once: a step that carries judge state keeps it. -/
def initState (judge : Judge) (preset : JudgePreset) (old : Option JudgeStepState) :
    JudgeStepState :=
  match old with
  | some state => { state with status := .evaluating }
  | none =>
      { status := .evaluating
        rubricId := some judge.rubricId
        rubricName := some judge.rubricName
        threshold := some (judge.bar preset).1
        maxBounces := (judge.bar preset).2 }

/-- A thrown assessment is a verdict that scores nothing. -/
def assess (judge : Judge)
    (reply : Except String (JudgeVerdict × Option String × Option JudgeModelPin)) :
    JudgeVerdict × Option String × Option JudgeModelPin :=
  match reply with
  | .ok reply => reply
  | .error reason =>
      ({ score := 0
         summary :=
           "The \"" ++ judge.rubricName ++ "\" assessment could not be completed: " ++ reason
         findings :=
           [{ title := "The rubric assessment did not produce a readable verdict"
              detail := some reason
              severity := .high }] }, none, none)

def recordRound (now : Nat) (verdict : JudgeVerdict) (model : Option String)
    (modelPin : Option JudgeModelPin) (decision : JudgeDispositionResult)
    (state : JudgeStepState) : JudgeStepState :=
  { state with
    verdict := some verdict
    model := model
    modelPin := modelPin
    disposition := some decision.disposition
    note := decision.note
    rounds := state.rounds ++
      [{ round := state.rounds.length + 1
         recordedAt := now
         verdict := verdict
         disposition := decision.disposition
         model := model }] }

def settleCap (state : JudgeStepState) : JudgeStepState :=
  { state with
    status := .passed
    capSettledByPolicy := true
    note := some
      ("Rework budget spent (" ++ spentOf state.bounces state.maxBounces ++
        " bounce round(s)) with the verdict still below the bar, and this run's risk " ++
        "policy answered the cap rather than waiting for a person. The work proceeded " ++
        "as it stands.") }

/-- The completion of a step whose result is an output and nothing else. -/
def recordStepResult (now : Nat) (approvalId output : String) (step : Step) (run : Run) : Run :=
  resolvePassedCompanion now approvalId none
    { step with output := some output, outputIsRendered := false, rework := none } run

def withJudge (state : JudgeStepState) (step : Step) : Step :=
  { step with judge := some state }

/-- What a verdict is disposed on. -/
def judgeInput (judge : Judge) (state : JudgeStepState) (verdict : JudgeVerdict)
    (producerIndex : Option Nat) : JudgeDispositionInput :=
  { score := verdict.score
    threshold := state.threshold.getD 0
    onFail := judge.onFail
    bounces := state.bounces
    maxBounces := state.maxBounces
    hasBounceTarget := producerIndex.isSome }

/-- The judge runs an assessment; else it passes the work through. -/
def assesses (r : Evaluation) : Bool :=
  r.assessorEnabled && r.wired

/-- The state a round starts from. -/
def openRound (judge : Judge) (r : Evaluation) (step : Step) : JudgeStepState :=
  { initState judge r.preset step.judge with rubricOverridden := r.rubricOverridden }

/-- Evaluate the judge under the cursor. -/
def evaluate (judge : Judge) (r : Evaluation) (step : Step) (run : Run) : Run × JudgeExit :=
  if !assesses r then
    let skip := passThrough judge r.assessorEnabled step.judge
    (recordStepResult r.now r.approvalId skip.2 (withJudge skip.1 step) run, .skipped)
  else
    let opened := openRound judge r step
    let (verdict, model, modelPin) := assess judge r.reply
    let producerIndex :=
      bounceTargetIndex judge.toJudgeDefinition run.steps run.currentStep
    let decision := disposeJudgeVerdict (judgeInput judge opened verdict producerIndex)
    let state := recordRound r.now verdict model modelPin decision opened
    match decision.disposition, producerIndex with
    | .pass, _ =>
        let state := { state with status := JudgeStatus.passed }
        (recordStepResult r.now r.approvalId
          (renderPassOutput judge verdict (state.threshold.getD 0)) (withJudge state step) run,
          .passed)
    | .fail, _ =>
        -- the driver fails the run on the failed job this returns
        (failRun
          { run with
            steps := run.steps.set run.currentStep
              (withJudge { state with status := .failed } step) }, .failed)
    | .bounce, some producer =>
        let state := { state with status := .bouncing, bounces := state.bounces + 1 }
        let looped :=
          rerunProducerThrough r.now producer run.currentStep
            { previousProposal := (run.steps[producer]?.bind Step.output).getD ""
              feedback := renderJudgeRework verdict judge.rubricName none
              requestedBy := ReworkRequester.reviewer }
            { run with steps := run.steps.set run.currentStep (withJudge state step) }
        ({ looped with status := unblock looped.status }, .bounced)
    | _, _ =>
        if decision.parkReason = some .budgetSpent ∧ r.resolvesOwnCaps then
          let state := settleCap state
          (recordStepResult r.now r.approvalId (renderCapSettledOutput judge verdict state)
            (withJudge state step) run, .settledByPolicy)
        else
          ({ run with
             steps := run.steps.set run.currentStep
               (openDecisionPark r.now r.approvalId ""
                 (withJudge { state with status := .awaitingDecision } step))
             status := ExecutionStatus.blocked }, .parked)

/-!
## The answers of a person

An answer is written in one compare-and-swap; a bounce then rewinds the run in a
second one.
-/

structure ParkedJudge where
  index : Nat
  step : Step
  approval : StepApproval
  state : JudgeStepState
  judge : Judge

def findParkedJudge (registry : JudgeRegistry) (run : Run) :
    Except DecisionError ParkedJudge :=
  match (run.steps.findIdx? isParkedJudge).bind fun i =>
      run.steps[i]?.bind fun step =>
        step.approval.bind fun approval =>
          step.judge.map fun state => (i, step, approval, state) with
  | none => .error (.conflict "The run is no longer awaiting a review decision")
  | some (index, step, approval, state) =>
      match registry.judge step.agentKind with
      | none =>
          .error (.conflict
            ("No judge is registered for step kind '" ++ step.agentKind ++ "'"))
      | some judge =>
          .ok
            { index := index
              step := step
              approval := approval
              state := state
              judge := judge }

/-- What the first write of a bounce leaves for the second one. -/
structure Rewind where
  index : Nat
  target : Nat
  approvalId : String
  verdict : JudgeVerdict
  rubricName : String
  feedback : Option String
deriving DecidableEq

/-- The judge with the answer recorded on it. -/
def answeredState (resolution : JudgeResolution) (state : JudgeStepState) : JudgeStepState :=
  match resolution.choice with
  | .bounce =>
      { state with
        resolution := some resolution
        disposition := some .bounce }
  | .stop =>
      { state with
        status := .failed
        resolution := some resolution
        disposition := some .fail }
  | .proceed =>
      { state with
        status := .passed
        resolution := some resolution
        disposition := some .pass
        note := some "A human chose to proceed despite the verdict." }

def overruledOutput (judge : Judge) : String :=
  "The \"" ++ judge.rubricName ++ "\" review was overruled by a human; the run proceeded."

/-- The first write of an answer. -/
def recordJudgeAnswer (now : Nat) (choice : JudgeChoice) (feedback : Option String)
    (found : ParkedJudge) (run : Run) : Except DecisionError (Run × Option Rewind) :=
  let resolution :=
    { choice := choice, feedback := trimmed feedback, recordedAt := now }
  let step := withJudge (answeredState resolution found.state) found.step
  let answered := { run with steps := run.steps.set found.index step }
  match choice with
  | .bounce =>
      match bounceTargetIndex found.judge.toJudgeDefinition run.steps found.index with
      | none => .error (.conflict "There is no preceding step to send this work back to")
      | some target =>
          .ok
            (answered,
              some
                { index := found.index
                  target := target
                  approvalId := found.approval.id
                  verdict := found.state.verdict.getD { score := 0, summary := "" }
                  rubricName := found.judge.rubricName
                  feedback := trimmed feedback })
  | .stop => .ok (answered, none)
  | .proceed =>
      .ok
        (advanceRunPastGate now found.index
          { run with
            steps := run.steps.set found.index
              { step with output := some (overruledOutput found.judge) } }, none)

def markBouncing (step : Step) : Step :=
  { step with judge := step.judge.map fun state => { state with status := .bouncing } }

/-- The second write of a bounce, on the run the first one wrote. -/
def rewindForBounce (now : Nat) (rewind : Rewind) (run : Run) : Run :=
  let rerun :=
    rerunProducerThrough now rewind.target rewind.index
      { previousProposal := (run.steps[rewind.target]?.bind Step.output).getD ""
        feedback := renderJudgeRework rewind.verdict rewind.rubricName rewind.feedback
        requestedBy := ReworkRequester.reviewer } run
  { rerun with
    steps := rerun.steps.modify rewind.index markBouncing
    status := unblock rerun.status }

end Gates
end CatFactory
