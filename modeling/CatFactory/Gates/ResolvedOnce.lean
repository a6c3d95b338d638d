import CatFactory.Gates.DecisionEffects

/-!
# A gate is resolved once

No input of a run falls into a gap of the handlers: then each approval is
resolved at most once, and a run that is over stays as it is.
-/

namespace CatFactory
namespace Gates

open Execution (AgentState ExecutionStatus StepApprovalStatus)
open Foundation Reviews

variable {a : Action} {id : String} {registry : Registry}

/-- What every run in order keeps. -/
structure Sound (s : History) : Prop where
  cursor : CursorWaits s.run
  minted : forall i id, PendingAt s.run i id -> id ∈ s.minted
  one : forall i j id, PendingAt s.run i id -> PendingAt s.run j id -> i = j
  past : forall id, id ∈ s.resolved -> id ∈ s.minted ∧
    forall i, PendingAt s.run i id -> i < s.run.currentStep ∨ isSettled s.run = true
  once : s.resolved.Nodup

theorem apply_effect {run : Run} (hcw : CursorWaits run)
    (hin : fallsThrough registry run a = false) :
    Effect run (apply registry run a) (actsOn run a) (mints a) := by
  unfold apply
  cases h : handle registry run a with
  | error e => exact Effect.same run _ _
  | ok run' => exact handle_effect hcw hin h

/-- One action, with the effect it had and the ids it minted. -/
theorem act_spec {s t : History} (hs : Sound s) (hin : InOrder registry s a)
    (h : act registry s a = some t) :
    Effect s.run t.run (actsOn s.run a) (mints a) ∧
      (forall id, mints a = some id -> id ∉ s.minted ∧ id ∈ t.minted) ∧
      (forall id, id ∈ s.minted -> id ∈ t.minted) ∧
      t.resolved = resolves s.run t.run a ++ s.resolved := by
  unfold act at h
  split at h
  · cases h
  · rename_i hfresh
    cases h
    refine ⟨apply_effect hs.cursor hin, ?_, ?_, rfl⟩
    · intro id hid
      constructor
      · intro hmem
        apply hfresh
        simp [hid, hmem]
      · simp [hid]
    · intro id hmem
      simp [hmem]

/-- A gate that is open after a step was open before, or is the new one. -/
theorem pending_before {run run' : Run} {target minted : Option String} {known : List String}
    (he : Effect run run' target minted) (hfresh : forall id, minted = some id -> id ∉ known)
    {i : Nat} (hknown : id ∈ known) (h : PendingAt run' i id) : PendingAt run i id := by
  rcases he.pending i id h with hold | ⟨hnew, _⟩
  · exact hold
  · exact absurd hknown (hfresh id hnew)

theorem settled_of_progress {run run' : Run} (h : progressOf run' = progressOf run) :
    isSettled run' = isSettled run := by
  have hstatus : run'.status = run.status := congrArg (fun p => p.1) h
  simp [isSettled, hstatus]

theorem cursorWaits_step {run run' : Run} {target minted : Option String}
    (hcw : CursorWaits run) (he : Effect run run' target minted) : CursorWaits run' := by
  intro j id hwaits
  cases he.moves with
  | stays cursor waits =>
      rw [cursor]
      rcases waits j id hwaits with hold | heq
      · exact hcw j id hold
      · exact heq
  | advances _ waits =>
      rcases waits j id hwaits with ⟨hold, hne⟩
      exact absurd (hcw j id hold) hne
  | loops back waits range =>
      have heq := hcw j id (waits j id hwaits)
      exact absurd hwaits.pending (range j id (heq ▸ back) (le_of_eq heq))

/-- Behind the cursor stays behind the cursor. -/
theorem behind_step {run run' : Run} {target minted : Option String} {i : Nat}
    (he : Effect run run' target minted) (h : PendingAt run' i id)
    (hbehind : i < run.currentStep) : i < run'.currentStep := by
  cases he.moves with
  | stays cursor _ =>
      rw [cursor]
      exact hbehind
  | advances cursor _ =>
      rw [cursor]
      exact Nat.lt_succ_of_lt hbehind
  | loops _ _ range =>
      by_contra hnot
      exact range i id (Nat.le_of_not_lt hnot) (Nat.le_of_lt hbehind) h

/-- An id that was just resolved waited under the cursor. -/
theorem mem_resolves {run run' : Run} {minted : Option String}
    (he : Effect run run' (actsOn run a) minted) (h : id ∈ resolves run run' a) :
    isSettled run = false ∧ WaitsAt run run.currentStep id ∧
      (Not (PendingAt run' run.currentStep id) ∨ run.currentStep < run'.currentStep ∨
        isSettled run' = true) := by
  unfold resolves at h
  split at h
  · cases h
  · rename_i hmoved
    have htarget : actsOn run a = some id := by simpa using h
    constructor
    · rcases he.live with hsame | hlive
      · exact absurd hsame hmoved
      · exact hlive
    · rcases he.resolves with hsame | hnone | ⟨id', hsome, hwaits, hgone⟩
      · exact absurd hsame hmoved
      · rw [hnone] at htarget
        cases htarget
      · cases htarget.symm.trans hsome
        exact ⟨hwaits, hgone⟩

theorem Sound.step {s t : History} (hs : Sound s) (hin : InOrder registry s a)
    (h : act registry s a = some t) : Sound t := by
  rcases act_spec hs hin h with ⟨he, hmints, hgrow, hresolved⟩
  have hfresh : forall id, mints a = some id -> id ∉ s.minted := fun id hid => (hmints id hid).1
  constructor
  · exact cursorWaits_step hs.cursor he
  · intro i id hpending
    rcases he.pending i id hpending with hold | ⟨hnew, _⟩
    · exact hgrow id (hs.minted i id hold)
    · exact (hmints id hnew).2
  · intro i j id hi hj
    rcases he.pending i id hi with hiold | ⟨hinew, hicursor⟩
    · have hknown := hs.minted i id hiold
      exact hs.one i j id hiold (pending_before he hfresh hknown hj)
    · rcases he.pending j id hj with hjold | ⟨_, hjcursor⟩
      · exact absurd (hs.minted j id hjold) (hfresh id hinew)
      · exact hicursor.trans hjcursor.symm
  · intro id hmem
    rw [hresolved, List.mem_append] at hmem
    rcases hmem with hnow | hbefore
    · rcases mem_resolves he hnow with ⟨_, hwaits, hgone⟩
      have hknown := hs.minted _ id hwaits.pending
      refine ⟨hgrow id hknown, ?_⟩
      intro i hpending
      have hi := hs.one i _ id (pending_before he hfresh hknown hpending) hwaits.pending
      subst hi
      rcases hgone with hgone | hpast | hover
      · exact absurd hpending hgone
      · exact Or.inl hpast
      · exact Or.inr hover
    · rcases hs.past id hbefore with ⟨hknown, hpast⟩
      refine ⟨hgrow id hknown, ?_⟩
      intro i hpending
      rcases hpast i (pending_before he hfresh hknown hpending) with hbehind | hover
      · exact Or.inl (behind_step he hpending hbehind)
      · right
        rcases he.live with hsame | hlive
        · rw [settled_of_progress hsame]
          exact hover
        · cases hlive.symm.trans hover
  · rw [hresolved, List.nodup_append]
    refine ⟨?_, hs.once, ?_⟩
    · unfold resolves
      split
      · exact List.nodup_nil
      · cases actsOn s.run a with
        | none => exact List.nodup_nil
        | some id => simp
    · intro id hnow id' hbefore heq
      subst heq
      rcases mem_resolves he hnow with ⟨hlive, hwaits, _⟩
      rcases (hs.past id hbefore).2 _ hwaits.pending with hbehind | hover
      · exact Nat.lt_irrefl _ hbehind
      · cases hlive.symm.trans hover

/-- No action in order moves a run that is over. -/
theorem progress_of_settled {s t : History} (hs : Sound s) (hin : InOrder registry s a)
    (h : act registry s a = some t)
    (hover : isSettled s.run = true) : progressOf t.run = progressOf s.run := by
  rcases (act_spec hs hin h).1.live with hsame | hlive
  · exact hsame
  · cases hlive.symm.trans hover

/-- The approval is spent, or a decision on it has taken effect. -/
def Over (s : History) (id : String) : Prop :=
  id ∈ s.minted ∧ (Spent s.run id ∨ id ∈ s.resolved)

theorem Over.step {s t : History} (hs : Sound s) (hin : InOrder registry s a)
    (h : act registry s a = some t) (ho : Over s id) :
    Over t id := by
  rcases act_spec hs hin h with ⟨he, hmints, hgrow, hresolved⟩
  refine ⟨hgrow id ho.1, ?_⟩
  rcases ho.2 with hspent | hmem
  · left
    intro i hpending
    exact hspent i (pending_before he (fun id hid => (hmints id hid).1) ho.1 hpending)
  · right
    rw [hresolved]
    exact List.mem_append_right _ hmem

/-- No action in order on such an approval moves the run. -/
theorem progress_of_over {s t : History} (hs : Sound s) (hin : InOrder registry s a)
    (h : act registry s a = some t) (ho : Over s id)
    (htarget : actsOn s.run a = some id) : progressOf t.run = progressOf s.run := by
  rcases (act_spec hs hin h).1.resolves with hsame | hnone | ⟨id', hsome, hwaits, _⟩
  · exact hsame
  · rw [hnone] at htarget
    cases htarget
  · cases htarget.symm.trans hsome
    rcases ho.2 with hspent | hmem
    · exact absurd hwaits.pending (hspent _)
    · rcases (hs.past id hmem).2 _ hwaits.pending with hbehind | hover
      · exact absurd hbehind (Nat.lt_irrefl _)
      · exact progress_of_settled hs hin h hover

/-- A run as it is admitted: no step has an approval yet. -/
def admitted (run : Run) : History :=
  { run := { run with steps := run.steps.map fun step => { step with approval := none } } }

theorem sound_admitted (run : Run) : Sound (admitted run) := by
  have hnone : forall i id, Not (PendingAt (admitted run).run i id) := by
    intro i id hpending
    rcases hpending with ⟨t, ht, hid⟩
    simp only [admitted, List.getElem?_map, Option.map_eq_some_iff] at ht
    rcases ht with ⟨step, _, rfl⟩
    simp [pendingOn] at hid
  constructor
  · intro j id h
    exact absurd h.pending (hnone j id)
  · intro i id h
    exact absurd h (hnone i id)
  · intro i j id h _
    exact absurd h (hnone i id)
  · intro id h
    cases h
  · exact List.nodup_nil

theorem sound_run {run : Run} {trace : List Action} {s : History}
    (hrun : RunWhere (act registry) (InOrder registry) (admitted run) trace s) : Sound s :=
  RunWhere.invariant (sound_admitted run) (fun _ _ _ hs hin h => hs.step hin h) hrun

/-- In a run whose every action is in order, each approval is resolved at most
once; an approval that is approved, rejected, sent back or re-armed is out of
reach for good; and a run that is done or failed stays as it is. -/
theorem gates_resolved_once {run : Run} {trace : List Action} {s : History}
    (hrun : RunWhere (act registry) (InOrder registry) (admitted run) trace s) :
    s.resolved.Nodup ∧
      (forall (later : List Action) (t u : History) (a : Action) (id : String),
        id ∈ s.minted -> Spent s.run id ∨ id ∈ s.resolved ->
        RunWhere (act registry) (InOrder registry) s later t ->
        InOrder registry t a -> act registry t a = some u ->
        actsOn t.run a = some id -> progressOf u.run = progressOf t.run) ∧
      (forall (later : List Action) (t : History), isSettled s.run = true ->
        RunWhere (act registry) (InOrder registry) s later t ->
        progressOf t.run = progressOf s.run) := by
  have hs := sound_run hrun
  refine ⟨hs.once, ?_, ?_⟩
  · intro later t u a id hminted hover hlater hin h htarget
    have hboth : Sound t ∧ Over t id := by
      refine @RunWhere.invariant _ _ _ _ _ (fun x => Sound x ∧ Over x id)
        ⟨hs, hminted, hover⟩ ?_ _ _ hlater
      intro x b y hx hin h
      exact ⟨hx.1.step hin h, hx.2.step hx.1 hin h⟩
    exact progress_of_over hboth.1 hin h hboth.2 htarget
  · intro later t hover hlater
    have hboth : Sound t ∧ progressOf t.run = progressOf s.run := by
      refine @RunWhere.invariant _ _ _ _ _
        (fun x => Sound x ∧ progressOf x.run = progressOf s.run) ⟨hs, rfl⟩ ?_ _ _ hlater
      intro x a y hx hin h
      refine ⟨hx.1.step hin h, ?_⟩
      rw [<- hx.2]
      apply progress_of_settled hx.1 hin h
      rw [settled_of_progress hx.2]
      exact hover
    exact hboth.2

/-!
## A gated pipeline
-/

/-- One companion kind, which reviews what the coder did. -/
def reviewRegistry : Registry where
  isCompanionKind kind := kind = "reviewer"
  companionTargets kind := if kind = "reviewer" then ["coder"] else []
  hasInterviewGate _ := false
  deliverableIsReply kind := kind = "architect"
  judgeFor _ := none

def gatedRun : Run where
  id := "exec_1"
  steps :=
    [{ agentKind := "architect", state := AgentState.pending, requiresApproval := true },
      { agentKind := "coder", state := AgentState.pending },
      { agentKind := "reviewer"
        state := AgentState.pending
        companion := some { threshold := 4 / 5, maxAttempts := 1 } }]

def approver : GateActor where
  id := "usr_1"
  kind := ActorKind.user
  role := some WorkspaceRole.member

/-- The plan is held up for a person. -/
def parkPlan : List Action :=
  [.driver 1 .dispatch, .driver 2 (.park "appr_1" "the plan" .approvalGate)]

/-- The plan is approved and the run is stopped. -/
def stopApproved : List Action :=
  parkPlan ++ [.approveStep 3 "appr_1" none approver, .stopRun]

/-- The reviewer's loop ends at its cap, and the run is stopped there. -/
def stopAtCap : List Action :=
  [.driver 1 .settle, .driver 2 .settle, .driver 3 (.park "appr_1" "" .companionCap),
    .stopRun]

def sendPlanBack : List Action :=
  parkPlan ++ [.requestStepChanges 3 "appr_1" {} approver]

theorem inOrder_of_check {s : History}
    (h : (!fallsThrough registry s.run a) = true) : InOrder registry s a := by
  simpa [InOrder] using h

theorem runInOrder_endOf {start : History} {trace : List Action}
    (h : (runChecked (act registry) (fun s a => !fallsThrough registry s.run a) start
      trace).isSome = true) :
    RunWhere (act registry) (InOrder registry) start trace
      (endOf (act registry) start trace) :=
  runWhere_endOf (fun _ _ => inOrder_of_check) h

theorem spent_of_all {run : Run}
    (h : (run.steps.all fun step => !pendingOn id step) = true) : Spent run id := by
  intro i hpending
  rcases hpending with ⟨step, hstep, hid⟩
  have hnot := List.all_eq_true.mp h step (List.mem_of_getElem? hstep)
  rw [hid] at hnot
  cases hnot

theorem gates_resolved_once_stopped :
    (endOf (act reviewRegistry) (admitted gatedRun) stopApproved).resolved.Nodup ∧
      progressOf
          (endOf (act reviewRegistry)
            (endOf (act reviewRegistry) (admitted gatedRun) stopApproved)
            [.resolveDecision 4 "dec_1" "yes"]).run =
        progressOf
          (endOf (act reviewRegistry) (admitted gatedRun) stopApproved).run ∧
      progressOf
          (endOf (act reviewRegistry)
            (endOf (act reviewRegistry) (admitted gatedRun) stopApproved)
            [.approveStep 4 "appr_1" none approver]).run =
        progressOf
          (endOf (act reviewRegistry) (admitted gatedRun) stopApproved).run := by
  have hrun : RunWhere (act reviewRegistry) (InOrder reviewRegistry) (admitted gatedRun)
      stopApproved (endOf (act reviewRegistry) (admitted gatedRun) stopApproved) :=
    runInOrder_endOf (by decide +kernel)
  have hlaw := gates_resolved_once hrun
  refine ⟨hlaw.1, ?_, ?_⟩
  · exact hlaw.2.2 _ _ (by decide +kernel) (runInOrder_endOf (by decide +kernel))
  · refine hlaw.2.1 [] _ _ (.approveStep 4 "appr_1" none approver) "appr_1"
      (by decide +kernel) (Or.inr (by decide +kernel)) RunWhere.nil
      (inOrder_of_check (by decide +kernel)) ?_ rfl
    decide +kernel

/-- A person who lets the reviewer's last step through turns a failed run into a
done one, and one who approves a plan that was sent back moves the cursor past
the architect while it is at work again. -/
theorem not_gates_resolved_once :
    (exists s t, Foundation.Run (act reviewRegistry) (admitted gatedRun) stopAtCap s ∧
      act reviewRegistry s (.resolveCompanionExceeded 9 "appr_1" .proceed) = some t ∧
      s.run.status = ExecutionStatus.failed ∧ t.run.status = ExecutionStatus.done) ∧
    (exists s t, Foundation.Run (act reviewRegistry) (admitted gatedRun) sendPlanBack s ∧
      act reviewRegistry s (.approveStep 9 "appr_1" none approver) = some t ∧
      "appr_1" ∈ s.resolved ∧ Spent s.run "appr_1" ∧
      s.run.currentStep = 0 ∧ t.run.currentStep = 1) := by
  constructor
  · refine ⟨endOf (act reviewRegistry) (admitted gatedRun) stopAtCap,
      endOf (act reviewRegistry) (admitted gatedRun)
        (stopAtCap ++ [.resolveCompanionExceeded 9 "appr_1" .proceed]),
      run_endOf (by decide +kernel), ?_, ?_, ?_⟩
    · decide +kernel
    · decide +kernel
    · decide +kernel
  · refine ⟨endOf (act reviewRegistry) (admitted gatedRun) sendPlanBack,
      endOf (act reviewRegistry) (admitted gatedRun)
        (sendPlanBack ++ [.approveStep 9 "appr_1" none approver]),
      run_endOf (by decide +kernel), ?_, ?_, spent_of_all ?_, ?_, ?_⟩
    · decide +kernel
    · decide +kernel
    · decide +kernel
    · decide +kernel
    · decide +kernel

end Gates
end CatFactory
