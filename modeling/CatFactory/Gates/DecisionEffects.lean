import CatFactory.Gates.Interleaving
import CatFactory.Reviews.Posting

/-!
# What one decision can do

Each handler inverted once: where it leaves the cursor, which gates stay open,
and that it only moves a run that is not over, through the gate that waits under
the cursor.
-/

namespace CatFactory
namespace Gates

open Execution (AgentState ExecutionStatus StepApprovalStatus)
open Foundation Reviews

variable {approval : StepApproval} {review : PrReviewStepState} {approvalId : String}
  {id : String} {steps : List Step} {run : Run} {i : Nat}

/-!
## Pending and waiting gates
-/

def pendingOn (id : String) (step : Step) : Bool :=
  step.approval.any fun approval =>
    approval.id = id && approval.status = StepApprovalStatus.pending

def PendingAt (run : Run) (i : Nat) (id : String) : Prop :=
  exists step, run.steps[i]? = some step ∧ pendingOn id step = true

/-- The step at `i` waits for the decision on `id`. -/
def WaitsAt (run : Run) (i : Nat) (id : String) : Prop :=
  exists step, run.steps[i]? = some step ∧ pendingOn id step = true ∧
    step.state = AgentState.waitingDecision

/-- The approval is approved, rejected or sent back, or its step was re-armed. -/
def Spent (run : Run) (id : String) : Prop :=
  forall i, Not (PendingAt run i id)

theorem WaitsAt.pending (h : WaitsAt run i id) :
    PendingAt run i id := by
  rcases h with ⟨step, hstep, hpending, _⟩
  exact ⟨step, hstep, hpending⟩

theorem pendingOn_of_none {step : Step} (h : step.approval = none) :
    pendingOn id step = false := by
  simp [pendingOn, h]

theorem pendingOn_congr {step step' : Step}
    (h : step'.approval = step.approval) : pendingOn id step' = pendingOn id step := by
  simp [pendingOn, h]

theorem findIdx_found {p : Step -> Bool} {step : Step} (h : run.steps.findIdx? p = some i)
    (hat : run.steps[i]? = some step) : p step = true := by
  rcases List.findIdx?_eq_some_iff_getElem.mp h with ⟨hlt, hfound, _⟩
  rw [List.getElem?_eq_getElem hlt] at hat
  rw [← Option.some.inj hat]
  exact hfound

/-- What `gateOf` found. -/
theorem gateOf_spec {step : Step} (h : gateOf run id = some (i, step, approval)) :
    run.steps[i]? = some step ∧ step.approval = some approval ∧ approval.id = id := by
  unfold gateOf at h
  cases hindex : run.steps.findIdx? (carriesApproval id) with
  | none => simp [hindex] at h
  | some k =>
      simp only [hindex, Option.bind_some, Option.bind_eq_some_iff,
        Option.map_eq_some_iff] at h
      rcases h with ⟨found, hget, approval', happroval, heq⟩
      cases heq
      have hcarries := findIdx_found hindex hget
      refine ⟨hget, happroval, ?_⟩
      simpa [carriesApproval, happroval] using hcarries

/-- A gate that was found waiting waits for the decision on its id. -/
theorem waitsAt_of_awaits {step : Step} (hstep : run.steps[i]? = some step)
    (happroval : step.approval = some approval)
    (hawaits : stepAwaitsDecision step = true) : WaitsAt run i approval.id := by
  simp only [stepAwaitsDecision, happroval, Option.map_some, Option.some.injEq,
    Bool.and_eq_true, decide_eq_true_eq] at hawaits
  exact ⟨step, hstep, by simp [pendingOn, happroval, hawaits.2], hawaits.1⟩

/-!
## The steps after a write
-/

theorem set_step {i j : Nat} {step t : Step} (hsteps : steps = run.steps.set i step)
    (h : steps[j]? = some t) :
    (j = i ∧ t = step) ∨ (j ≠ i ∧ run.steps[j]? = some t) := by
  rw [hsteps, List.getElem?_set] at h
  by_cases hij : i = j
  · subst hij
    rw [if_pos rfl] at h
    split at h
    · left
      exact ⟨rfl, (Option.some.inj h).symm⟩
    · cases h
  · right
    rw [if_neg hij] at h
    exact ⟨fun heq => hij heq.symm, h⟩

theorem modify_step {change : Step -> Step} {i j : Nat} {t : Step}
    (h : (steps.modify i change)[j]? = some t) :
    exists step, steps[j]? = some step ∧
      ((j = i ∧ t = change step) ∨ (j ≠ i ∧ t = step)) := by
  rw [List.getElem?_modify] at h
  cases hstep : steps[j]? with
  | none => simp [hstep] at h
  | some step =>
      refine ⟨step, rfl, ?_⟩
      rw [hstep] at h
      by_cases hij : i = j
      · left
        simp only [hij, if_true, Option.map_eq_map, Option.map_some, Option.some.injEq] at h
        exact ⟨hij.symm, h.symm⟩
      · right
        simp only [hij, if_false, Option.map_eq_map, Option.map_some, Option.some.injEq] at h
        exact ⟨fun heq => hij heq.symm, h.symm⟩

/-- Past a gate: its step is done, the next one works, the others are as before. -/
theorem advanced_step {now i j : Nat} {t : Step}
    (h : (advanceRunPastGate now i run).steps[j]? = some t) :
    exists step, run.steps[j]? = some step ∧ t.approval = step.approval ∧
      (t.state = AgentState.waitingDecision -> t = step ∧ j ≠ i) := by
  have hfinish {steps : List Step} {t : Step}
      (h : (steps.modify i fun step => { finishStep now step with progress := 1 })[j]? =
        some t) :
      exists step, steps[j]? = some step ∧ t.approval = step.approval ∧
        (t.state = AgentState.waitingDecision -> t = step ∧ j ≠ i) := by
    rcases modify_step h with ⟨step, hstep, ⟨_, rfl⟩ | ⟨hne, rfl⟩⟩
    · exact ⟨step, hstep, rfl, fun hwaits => by cases hwaits⟩
    · exact ⟨_, hstep, rfl, fun _ => ⟨rfl, hne⟩⟩
  unfold advanceRunPastGate at h
  split at h
  · exact hfinish h
  · rcases modify_step h with ⟨mid, hmid, ⟨_, rfl⟩ | ⟨_, rfl⟩⟩
    · rcases hfinish hmid with ⟨step, hstep, happroval, _⟩
      refine ⟨step, hstep, ?_, ?_⟩
      · rw [startStep_approval, happroval]
      · intro hwaits
        rw [startStep_state] at hwaits
        cases hwaits
    · exact hfinish hmid

/-- Past a loop-back: the steps of the range have no approval. -/
theorem rerun_step {now p c j : Nat} {rework : Rework} {t : Step} (hle : p ≤ c)
    (h : (rerunProducerThrough now p c rework run).steps[j]? = some t) :
    exists step, run.steps[j]? = some step ∧
      ((p ≤ j ∧ j ≤ c ∧ t.approval = none) ∨ (Not (p ≤ j ∧ j ≤ c) ∧ t = step)) := by
  rcases modify_step h with ⟨second, hsecond, htop⟩
  rcases modify_step hsecond with ⟨first, hfirst, hmid⟩
  unfold resetRange at hfirst
  rw [List.getElem?_mapIdx] at hfirst
  rcases Option.map_eq_some_iff.mp hfirst with ⟨step, hstep, rfl⟩
  refine ⟨step, hstep, ?_⟩
  by_cases hrange : p ≤ j ∧ j ≤ c
  · left
    refine ⟨hrange.1, hrange.2, ?_⟩
    have hreset : second.approval = none := by
      rcases hmid with ⟨_, rfl⟩ | ⟨_, rfl⟩
      · simp [rearmCompanion, hrange, resetStepForRerun]
      · simp [hrange, resetStepForRerun]
    rcases htop with ⟨_, rfl⟩ | ⟨_, rfl⟩
    · rw [startStep_approval]
      exact hreset
    · exact hreset
  · right
    refine ⟨hrange, ?_⟩
    rw [if_neg hrange] at hmid
    have hmiddle : second = step := by
      rcases hmid with ⟨hj, _⟩ | ⟨_, rfl⟩
      · exact absurd ⟨hj ▸ hle, le_of_eq hj⟩ hrange
      · rfl
    rcases htop with ⟨hj, _⟩ | ⟨_, rfl⟩
    · exact absurd ⟨le_of_eq hj.symm, hj ▸ hle⟩ hrange
    · exact hmiddle

/-!
## What one action can do
-/

/-- The ways a write moves the cursor and the wait. -/
inductive Moves (run run' : Run) : Prop where
  | stays (cursor : run'.currentStep = run.currentStep)
      (waits : forall j id, WaitsAt run' j id -> WaitsAt run j id ∨ j = run.currentStep)
  | advances (cursor : run'.currentStep = run.currentStep + 1)
      (waits : forall j id, WaitsAt run' j id -> WaitsAt run j id ∧ j ≠ run.currentStep)
  | loops (back : run'.currentStep ≤ run.currentStep)
      (waits : forall j id, WaitsAt run' j id -> WaitsAt run j id)
      (range : forall j id, run'.currentStep ≤ j -> j ≤ run.currentStep ->
        Not (PendingAt run' j id))

/-- A decision on `target` and the approval `minted` in the step from `run` to
`run'`. -/
structure Effect (run run' : Run) (target minted : Option String) : Prop where
  pending : forall j id, PendingAt run' j id ->
    PendingAt run j id ∨ (minted = some id ∧ j = run.currentStep)
  moves : Moves run run'
  live : progressOf run' = progressOf run ∨ isSettled run = false
  resolves : progressOf run' = progressOf run ∨ target = none ∨
    exists id, target = some id ∧ WaitsAt run run.currentStep id ∧
      (Not (PendingAt run' run.currentStep id) ∨ run.currentStep < run'.currentStep ∨
        isSettled run' = true)

/-- Only the step under the cursor waits. -/
def CursorWaits (run : Run) : Prop :=
  forall j id, WaitsAt run j id -> j = run.currentStep

theorem state_of_progress {run run' : Run} (h : progressOf run' = progressOf run)
    {j : Nat} {step t : Step} (hstep : run.steps[j]? = some step)
    (ht : run'.steps[j]? = some t) : t.state = step.state := by
  have hsteps := congrArg (fun p => p.2.2[j]?) h
  simp only [progressOf, List.getElem?_map, hstep, ht, Option.map_some,
    Option.some.injEq, Prod.mk.injEq] at hsteps
  exact hsteps.1

/-- A write that moves nothing has the effect of none, if it opens no gate. -/
theorem Effect.quiet {run run' : Run} {target minted : Option String}
    (hprogress : progressOf run' = progressOf run)
    (hpending : forall j id, PendingAt run' j id -> PendingAt run j id) :
    Effect run run' target minted := by
  have hcursor : run'.currentStep = run.currentStep := congrArg (fun p => p.2.1) hprogress
  constructor
  · intro j id h
    exact Or.inl (hpending j id h)
  · apply Moves.stays hcursor
    intro j id h
    left
    rcases h with ⟨t, ht, hpend, hstate⟩
    rcases hpending j id ⟨t, ht, hpend⟩ with ⟨step, hstep, hold⟩
    rw [state_of_progress hprogress hstep ht] at hstate
    exact ⟨step, hstep, hold, hstate⟩
  · exact Or.inl hprogress
  · exact Or.inl hprogress

theorem Effect.same (run : Run) (target minted : Option String) :
    Effect run run target minted :=
  Effect.quiet rfl (fun _ _ h => h)

/-- Replace one step by another that waits for no more. -/
theorem set_pending {step step' : Step} (hstep : run.steps[i]? = some step)
    (hsteps : steps = run.steps.set i step')
    (hpend : forall id, pendingOn id step' = true -> pendingOn id step = true) {j : Nat} {t : Step} (ht : steps[j]? = some t)
    (h : pendingOn id t = true) : PendingAt run j id := by
  rcases set_step hsteps ht with ⟨rfl, rfl⟩ | ⟨_, hold⟩
  · exact ⟨step, hstep, hpend id h⟩
  · exact ⟨t, hold, h⟩

theorem progressOf_set {step step' : Step} (hstep : run.steps[i]? = some step)
    (hstate : step'.state = step.state) (hstarted : step'.startedAt = step.startedAt)
    (hfinished : step'.finishedAt = step.finishedAt) :
    progressOf { run with steps := run.steps.set i step' } = progressOf run := by
  rcases List.getElem?_eq_some_iff.mp hstep with ⟨hlt, hget⟩
  have hlt' : i < (run.steps.map fun s => (s.state, s.startedAt, s.finishedAt)).length := by
    simpa using hlt
  have hsame : (step'.state, step'.startedAt, step'.finishedAt) =
      (run.steps.map fun s => (s.state, s.startedAt, s.finishedAt))[i] := by
    simp [hget, hstate, hstarted, hfinished]
  simp only [progressOf, List.map_set, hsame, List.set_getElem_self]

/-- A step is rewritten in place and waits for no more than before. -/
theorem quiet_set {step step' : Step} {target minted : Option String}
    (hstep : run.steps[i]? = some step) (hstate : step'.state = step.state)
    (hstarted : step'.startedAt = step.startedAt) (hfinished : step'.finishedAt = step.finishedAt)
    (hpend : forall id, pendingOn id step' = true -> pendingOn id step = true) :
    Effect run { run with steps := run.steps.set i step' } target minted := by
  apply Effect.quiet
  · exact progressOf_set hstep hstate hstarted hfinished
  · intro j id h
    rcases h with ⟨t, ht, hid⟩
    exact set_pending hstep rfl hpend ht hid

/-!
## The writes that move a run
-/

theorem failRun_of_settled (h : isSettled run = true) :
    failRun { run with steps := steps } = { run with steps := steps } := by
  unfold failRun
  exact if_pos h

theorem failRun_of_live (h : isSettled run = false) :
    failRun { run with steps := steps } =
      { run with steps := steps, status := ExecutionStatus.failed } := by
  unfold failRun
  rw [if_neg]
  intro hsettled
  have hboth := h.symm.trans hsettled
  cases hboth

/-- A write that changes the status alone. -/
theorem status_effect {status : ExecutionStatus} {minted : Option String}
    (hlive : isSettled run = false) :
    Effect run { run with status := status } none minted := by
  constructor
  · intro j id h
    exact Or.inl h
  · refine Moves.stays rfl ?_
    intro j id h
    exact Or.inl h
  · exact Or.inr hlive
  · exact Or.inr (Or.inl rfl)

theorem failRun_effect : Effect run (failRun run) none none := by
  cases hlive : isSettled run with
  | true =>
      have hsame : failRun run = run := if_pos hlive
      rw [hsame]
      exact Effect.same run none none
  | false =>
      have hfail : failRun run = { run with status := ExecutionStatus.failed } :=
        failRun_of_live hlive
      rw [hfail]
      exact status_effect hlive

/-- The cursor's gate is resolved and the run moves past it. -/
theorem advance_effect {now i : Nat} {step step' : Step} {target : Option String}
    (hcursor : i = run.currentStep) (hstep : run.steps[i]? = some step)
    (hpend : forall id, pendingOn id step' = true -> pendingOn id step = true)
    (hlive : isSettled run = false)
    (htarget : target = none ∨ exists id, target = some id ∧ WaitsAt run i id) :
    Effect run (advanceRunPastGate now i { run with steps := run.steps.set i step' })
      target none := by
  subst hcursor
  have hold {j : Nat} {t : Step}
      (ht : (advanceRunPastGate now run.currentStep
        { run with steps := run.steps.set run.currentStep step' }).steps[j]? = some t) :
      forall id, pendingOn id t = true -> PendingAt run j id := by
    intro id hid
    rcases advanced_step ht with ⟨mid, hmid, happroval, _⟩
    rw [pendingOn_congr happroval] at hid
    exact set_pending hstep rfl hpend hmid hid
  have hwaits {j : Nat} {id : String}
      (h : WaitsAt (advanceRunPastGate now run.currentStep
        { run with steps := run.steps.set run.currentStep step' }) j id) :
      WaitsAt run j id ∧ j ≠ run.currentStep := by
    rcases h with ⟨t, ht, hid, hstate⟩
    rcases advanced_step ht with ⟨mid, hmid, _, hwaiting⟩
    rcases hwaiting hstate with ⟨rfl, hne⟩
    rcases set_step rfl hmid with ⟨heq, _⟩ | ⟨_, hgot⟩
    · exact absurd heq hne
    · exact ⟨⟨t, hgot, hid, hstate⟩, hne⟩
  constructor
  · intro j id h
    rcases h with ⟨t, ht, hid⟩
    exact Or.inl (hold ht id hid)
  · by_cases hlast : run.currentStep + 1 = run.steps.length
    · apply Moves.stays
      · simp [advanceRunPastGate, hlast]
      · intro j id h
        exact Or.inl (hwaits h).1
    · apply Moves.advances
      · simp [advanceRunPastGate, hlast]
      · intro j id h
        exact hwaits h
  · exact Or.inr hlive
  · right
    rcases htarget with hnone | ⟨id, hsome, hwaiting⟩
    · exact Or.inl hnone
    · right
      refine ⟨id, hsome, hwaiting, Or.inr ?_⟩
      by_cases hlast : run.currentStep + 1 = run.steps.length
      · right
        simp [advanceRunPastGate, hlast, isSettled]
      · left
        simp [advanceRunPastGate, hlast]

/-- The run loops back over the cursor's gate. -/
theorem rerun_effect {run base : Run} {now p i : Nat} {rework : Rework}
    {target : Option String} (hcursor : i = run.currentStep) (hle : p ≤ i)
    (hbase : forall (j : Nat) (t : Step), Not (p ≤ j ∧ j ≤ i) -> base.steps[j]? = some t ->
      run.steps[j]? = some t)
    (hlive : isSettled run = false)
    (htarget : target = none ∨ exists id, target = some id ∧ WaitsAt run i id)
    {run' : Run} (hsteps : forall (j : Nat) (t : Step), run'.steps[j]? = some t ->
      exists t' : Step, (rerunProducerThrough now p i rework base).steps[j]? = some t' ∧
        t.approval = t'.approval ∧ t.state = t'.state)
    (hback : run'.currentStep = p) : Effect run run' target none := by
  subst hcursor
  have hgone {j : Nat} {id : String} (hpj : p ≤ j) (hji : j ≤ run.currentStep) :
      Not (PendingAt run' j id) := by
    intro h
    rcases h with ⟨t, ht, hid⟩
    rcases hsteps j t ht with ⟨t', ht', happroval, _⟩
    rcases rerun_step hle ht' with ⟨step, _, ⟨_, _, hnone⟩ | ⟨hrange, _⟩⟩
    · rw [pendingOn_of_none (happroval.trans hnone)] at hid
      cases hid
    · exact hrange ⟨hpj, hji⟩
  have hkept {j : Nat} {t : Step} (ht : run'.steps[j]? = some t)
      (hrange : Not (p ≤ j ∧ j ≤ run.currentStep)) :
      exists step, run.steps[j]? = some step ∧ t.approval = step.approval ∧
        t.state = step.state := by
    rcases hsteps j t ht with ⟨t', ht', happroval, hstate⟩
    rcases rerun_step hle ht' with ⟨step, hstep, ⟨hpj, hji, _⟩ | ⟨_, rfl⟩⟩
    · exact absurd ⟨hpj, hji⟩ hrange
    · exact ⟨t', hbase j t' hrange hstep, happroval, hstate⟩
  have hpending {j : Nat} {id : String} (h : PendingAt run' j id) :
      PendingAt run j id := by
    by_cases hrange : p ≤ j ∧ j ≤ run.currentStep
    · exact absurd h (hgone hrange.1 hrange.2)
    · rcases h with ⟨t, ht, hid⟩
      rcases hkept ht hrange with ⟨step, hstep, happroval, _⟩
      rw [pendingOn_congr happroval] at hid
      exact ⟨step, hstep, hid⟩
  constructor
  · intro j id h
    exact Or.inl (hpending h)
  · apply Moves.loops
    · rw [hback]
      exact hle
    · intro j id h
      by_cases hrange : p ≤ j ∧ j ≤ run.currentStep
      · exact absurd h.pending (hgone hrange.1 hrange.2)
      · rcases h with ⟨t, ht, hid, hwaiting⟩
        rcases hkept ht hrange with ⟨step, hstep, happroval, hstate⟩
        rw [pendingOn_congr happroval] at hid
        rw [hstate] at hwaiting
        exact ⟨step, hstep, hid, hwaiting⟩
    · intro j id hpj hji
      rw [hback] at hpj
      exact hgone hpj hji
  · exact Or.inr hlive
  · right
    rcases htarget with hnone | ⟨id, hsome, hwaiting⟩
    · exact Or.inl hnone
    · right
      exact ⟨id, hsome, hwaiting, Or.inl (hgone hle (le_refl _))⟩

/-- The step under the cursor is written in place, and its gate is gone. -/
theorem rewrite_effect {run run' : Run} {step step' : Step} {target : Option String}
    (hcursor : i = run.currentStep) (hstep : run.steps[i]? = some step)
    (hsteps : run'.steps = run.steps.set i step') (hsame : run'.currentStep = run.currentStep)
    (hpend : forall id, pendingOn id step' = true -> pendingOn id step = true)
    (hlive : isSettled run = false)
    (htarget : target = none ∨ exists id, target = some id ∧ WaitsAt run i id ∧
      (pendingOn id step' = false ∨ isSettled run' = true)) :
    Effect run run' target none := by
  subst hcursor
  constructor
  · intro j id h
    rcases h with ⟨t, ht, hid⟩
    exact Or.inl (set_pending hstep hsteps hpend ht hid)
  · apply Moves.stays hsame
    intro j id h
    rcases h with ⟨t, ht, hid, hstate⟩
    rcases set_step hsteps ht with ⟨heq, _⟩ | ⟨_, hold⟩
    · exact Or.inr heq
    · exact Or.inl ⟨t, hold, hid, hstate⟩
  · exact Or.inr hlive
  · right
    rcases htarget with hnone | ⟨id, hsome, hwaiting, hgone⟩
    · exact Or.inl hnone
    · right
      refine ⟨id, hsome, hwaiting, ?_⟩
      rcases hgone with hgone | hsettled
      · left
        intro h
        rcases h with ⟨t, ht, hid⟩
        rcases set_step hsteps ht with ⟨_, rfl⟩ | ⟨hne, _⟩
        · rw [hgone] at hid
          cases hid
        · exact hne rfl
      · exact Or.inr (Or.inr hsettled)

/-!
## The handlers one by one
-/

section Handlers

variable {registry : Registry} {run run' : Run} {now : Nat}

theorem approveStep_effect {proposal : Option String} {actor : GateActor}
    (hcw : CursorWaits run)
    (hin : fallsThrough registry run (.approveStep now approvalId proposal actor) = false)
    (h : approveStep registry now run.id approvalId proposal actor run = .ok run') :
    Effect run run' (some approvalId) none := by
  cases hgate : gateOf run approvalId with
  | none => simp [approveStep, hgate] at h
  | some found =>
      rcases found with ⟨i, step, approval⟩
      rcases gateOf_spec hgate with ⟨hstep, happroval, hid⟩
      simp only [approveStep, hgate] at h
      simp only [fallsThrough, hgate] at hin
      cases hsurface : dedicatedParkSurface registry run step with
      | some surface => simp [hsurface] at h
      | none =>
          simp only [hsurface] at h
          by_cases happroved : approval.status = StepApprovalStatus.approved
          · rw [if_pos happroved] at h
            cases h
            exact Effect.same run _ none
          · rw [if_neg happroved] at h
            cases hrefuse : refuseGateResolution approval.approverPolicy actor with
            | some refusal => simp [hrefuse] at h
            | none =>
                simp only [hrefuse] at h
                split at h
                · cases h
                · rename_i hrejected
                  split at h
                  · cases h
                  · rename_i hlive
                    have hlive : isSettled run = false := by simpa using hlive
                    split at h
                    · cases h
                    · rename_i hrendered
                      split at h
                      · cases h
                      · split at h
                        · rename_i hquorum
                          -- the vote completes the quorum, so the gate is one that waits
                          have hawaits : stepAwaitsDecision step = true := by
                            have hrendered' :
                                (proposal.isSome && step.outputIsRendered) = false := by
                              simpa using hrendered
                            simpa [mayResolve, hsurface, hrefuse, hlive, happroved, hrejected,
                              hquorum, hrendered'] using hin
                          have hwaits := waitsAt_of_awaits hstep happroval hawaits
                          rw [hid] at hwaits
                          cases h
                          apply advance_effect (hcw i approvalId hwaits) hstep
                          · intro id hpending
                            simp [pendingOn] at hpending
                          · exact hlive
                          · exact Or.inr ⟨approvalId, rfl, hwaits⟩
                        · -- the vote is recorded and the gate stays as it is
                          cases h
                          refine quiet_set hstep rfl rfl rfl ?_
                          intro id' h'
                          simpa [pendingOn, happroval] using h'

theorem nearestStepIndexBefore_lt {p : Step -> Bool} {i k : Nat}
    (h : nearestStepIndexBefore p steps i = some k) : k < i := by
  induction i with
  | zero => cases h
  | succ i ih =>
      simp only [nearestStepIndexBefore] at h
      split at h
      · cases h
        exact Nat.lt_succ_self _
      · exact Nat.lt_succ_of_lt (ih h)

theorem companionProducerIndex_lt {i k : Nat}
    (h : companionProducerIndex registry run i = some k) : k < i := by
  simp only [companionProducerIndex] at h
  split at h
  · cases h
  · exact nearestStepIndexBefore_lt h

/-- Outside the range, a write to the step at its end is not seen. -/
theorem outside_set {i p : Nat} {step' : Step} (hle : p ≤ i) :
    forall (j : Nat) (t : Step), Not (p ≤ j ∧ j ≤ i) ->
      (run.steps.set i step')[j]? = some t -> run.steps[j]? = some t := by
  intro j t hrange ht
  rcases set_step rfl ht with ⟨heq, _⟩ | ⟨_, hold⟩
  · exact absurd ⟨heq ▸ hle, le_of_eq heq⟩ hrange
  · exact hold

theorem outside_modify {change : Step -> Step} {i p : Nat} (hle : p ≤ i) :
    forall (j : Nat) (t : Step), Not (p ≤ j ∧ j ≤ i) ->
      (steps.modify i change)[j]? = some t -> steps[j]? = some t := by
  intro j t hrange ht
  rcases modify_step ht with ⟨step, hstep, ⟨heq, _⟩ | ⟨_, rfl⟩⟩
  · exact absurd ⟨heq ▸ hle, le_of_eq heq⟩ hrange
  · exact hstep

theorem requestStepChanges_effect {review : StepReview} {actor : GateActor}
    (hcw : CursorWaits run)
    (hin : fallsThrough registry run (.requestStepChanges now approvalId review actor) =
    false) (h : requestStepChanges registry now approvalId review actor run = .ok run') :
    Effect run run' (some approvalId) none := by
  cases hgate : gateOf run approvalId with
  | none => simp [requestStepChanges, hgate] at h
  | some found =>
      rcases found with ⟨i, step, approval⟩
      rcases gateOf_spec hgate with ⟨hstep, happroval, hid⟩
      simp only [requestStepChanges, hgate] at h
      simp only [fallsThrough, hgate] at hin
      cases hsurface : dedicatedParkSurface registry run step with
      | some surface => simp [hsurface] at h
      | none =>
          cases hstatus : approval.status with
          | approved => simp [hsurface, hstatus] at h
          | rejected => simp [hsurface, hstatus] at h
          | changesRequested => simp [hsurface, hstatus] at h
          | pending =>
              cases hrefuse : refuseGateResolution approval.approverPolicy actor with
              | some refusal => simp [hsurface, hstatus, hrefuse] at h
              | none =>
                  simp only [hsurface, hstatus, hrefuse] at h
                  have hopen : isSettled run = false ∧ stepAwaitsDecision step = true := by
                    simpa [mayResolve, hsurface, hrefuse, hstatus] using hin
                  have hwaits := waitsAt_of_awaits hstep happroval hopen.2
                  rw [hid] at hwaits
                  have hcursor := hcw i approvalId hwaits
                  split at h
                  · rename_i p hproducer
                    cases h
                    have hlt : p < i := by
                      split at hproducer
                      · exact companionProducerIndex_lt hproducer
                      · cases hproducer
                    refine rerun_effect hcursor (Nat.le_of_lt hlt) ?_ hopen.1
                      (Or.inr ⟨approvalId, rfl, hwaits⟩)
                      (fun j t ht => ⟨t, ht, rfl, rfl⟩) rfl
                    exact outside_set (Nat.le_of_lt hlt)
                  · cases h
                    refine rewrite_effect hcursor hstep (List.set_set ..) rfl ?_ hopen.1 ?_
                    · intro id hpending
                      simp [pendingOn, restartStep] at hpending
                    · right
                      refine ⟨approvalId, rfl, hwaits, Or.inl ?_⟩
                      simp [pendingOn, restartStep]

theorem rejectStep_effect {reason : Option String} {actor : GateActor} (hcw : CursorWaits run)
    (hin : fallsThrough registry run (.rejectStep approvalId reason actor) = false)
    (h : rejectStep registry approvalId reason actor run = .ok run') :
    Effect run run' (some approvalId) none := by
  cases hgate : gateOf run approvalId with
  | none => simp [rejectStep, hgate] at h
  | some found =>
      rcases found with ⟨i, step, approval⟩
      rcases gateOf_spec hgate with ⟨hstep, happroval, hid⟩
      simp only [rejectStep, hgate] at h
      simp only [fallsThrough, hgate] at hin
      cases hsurface : dedicatedParkSurface registry run step with
      | some surface => simp [hsurface] at h
      | none =>
          cases hstatus : approval.status with
          | approved => simp [hsurface, hstatus] at h
          | changesRequested => simp [hsurface, hstatus] at h
          | rejected =>
              simp only [hsurface, hstatus] at h
              cases h
              exact Effect.same run _ none
          | pending =>
              cases hrefuse : refuseGateResolution approval.approverPolicy actor with
              | some refusal => simp [hsurface, hstatus, hrefuse] at h
              | none =>
                  simp only [hsurface, hstatus, hrefuse] at h
                  cases h
                  cases hlive : isSettled run with
                  | true =>
                      -- the run is over, so only the mark is written
                      rw [failRun_of_settled hlive]
                      refine quiet_set hstep rfl rfl rfl ?_
                      intro id' h'
                      simp [pendingOn] at h'
                  | false =>
                      have hawaits : stepAwaitsDecision step = true := by
                        simpa [mayResolve, hsurface, hrefuse, hstatus, hlive] using hin
                      have hwaits := waitsAt_of_awaits hstep happroval hawaits
                      rw [hid] at hwaits
                      rw [failRun_of_live hlive]
                      refine rewrite_effect (hcw i approvalId hwaits) hstep rfl rfl ?_ hlive ?_
                      · intro id hpending
                        simp [pendingOn] at hpending
                      · right
                        refine ⟨approvalId, rfl, hwaits, Or.inl ?_⟩
                        simp [pendingOn]

theorem nearestStepIndexBefore_modify {p : Step -> Bool} {change : Step -> Step}
    (hsame : forall step, p (change step) = p step) (steps : List Step) (i k : Nat) :
    nearestStepIndexBefore p (steps.modify k change) i = nearestStepIndexBefore p steps i := by
  induction i with
  | zero => rfl
  | succ i ih =>
      have hany : ((steps.modify k change)[i]?.any p) = steps[i]?.any p := by
        rw [List.getElem?_modify]
        cases steps[i]? with
        | none => rfl
        | some step =>
            by_cases hki : k = i
            · simp [hki, hsame]
            · simp [hki]
      simp only [nearestStepIndexBefore, hany, ih]

/-- Raising a budget does not change which step is the producer. -/
theorem companionProducerIndex_grant (i : Nat) :
    companionProducerIndex registry { run with steps := run.steps.modify i grantRound } i =
      companionProducerIndex registry run i := by
  cases hstep : run.steps[i]? with
  | none => simp [companionProducerIndex, hstep]
  | some step =>
      have hget : (run.steps.modify i grantRound)[i]? = some (grantRound step) := by
        simp [hstep]
      simp only [companionProducerIndex, hget, hstep]
      exact @nearestStepIndexBefore_modify
        (fun s => (registry.companionTargets step.agentKind).contains s.agentKind)
        grantRound (fun _ => rfl) run.steps i i

theorem resolveCompanionExceeded_effect {choice : IterationCapChoice} (hcw : CursorWaits run)
    (hin : fallsThrough registry run (.resolveCompanionExceeded now approvalId choice) =
    false) (h : resolveCompanionExceeded registry now approvalId choice run = .ok run') :
    Effect run run' (some approvalId) none := by
  cases hgate : gateOf run approvalId with
  | none => simp [resolveCompanionExceeded, hgate] at h
  | some found =>
      rcases found with ⟨i, step, approval⟩
      rcases gateOf_spec hgate with ⟨hstep, happroval, hid⟩
      simp only [resolveCompanionExceeded, hgate] at h
      simp only [fallsThrough, hgate] at hin
      cases hcompanion : step.companion with
      | none => simp [hcompanion] at h
      | some companion =>
          simp only [hcompanion] at h
          split at h
          · cases h
          · rename_i hexceeded
            split at h
            · cases h
              exact Effect.same run _ none
            · rename_i hstatus
              have hexceeded : companion.exceeded = true := by simpa using hexceeded
              have hopen (hpath : choice = .proceed ∨
                  (companionProducerIndex registry run i).isSome = true) :
                  isSettled run = false ∧ stepAwaitsDecision step = true := by
                rcases hpath with hpath | hpath
                · simpa [hcompanion, hexceeded, hstatus, hpath] using hin
                · simpa [hcompanion, hexceeded, hstatus, hpath] using hin
              cases choice with
              | proceed =>
                  have hopen := hopen (Or.inl rfl)
                  have hwaits := waitsAt_of_awaits hstep happroval hopen.2
                  rw [hid] at hwaits
                  cases h
                  apply advance_effect (hcw i approvalId hwaits) hstep
                  · intro id hpending
                    simp [pendingOn] at hpending
                  · exact hopen.1
                  · exact Or.inr ⟨approvalId, rfl, hwaits⟩
              | extraRound =>
                  simp only [loopCompanionProducer] at h
                  cases hproducer : companionProducerIndex registry
                      { run with steps := run.steps.modify i grantRound } i with
                  | none => simp [hproducer] at h
                  | some p =>
                      have hsame : companionProducerIndex registry run i = some p := by
                        rw [<- hproducer]
                        exact (companionProducerIndex_grant i).symm
                      have hopen := hopen (Or.inr (by simp [hsame]))
                      have hwaits := waitsAt_of_awaits hstep happroval hopen.2
                      rw [hid] at hwaits
                      have hlt := companionProducerIndex_lt hsame
                      split at h
                      · cases h
                      · rename_i hloop
                        cases h
                        split at hloop
                        · rename_i p' _ hp'
                          cases hp'.symm.trans hproducer
                          cases hloop
                          refine rerun_effect (hcw i approvalId hwaits) (Nat.le_of_lt hlt) ?_
                            hopen.1 (Or.inr ⟨approvalId, rfl, hwaits⟩)
                            (fun j t ht => ⟨t, ht, rfl, rfl⟩) rfl
                          intro j t hrange ht
                          have hle := Nat.le_of_lt hlt
                          exact outside_modify hle j t hrange
                            (outside_modify hle j t hrange ht)
                        · cases hloop

/-!
## Questions, reviews and judges
-/

theorem resolveDecision_effect {decisionId choice : String}
    (hin : fallsThrough registry run (.resolveDecision now decisionId choice) = false)
    (h : resolveDecision now decisionId choice run = .ok run') :
    Effect run run' none none := by
  simp only [resolveDecision] at h
  cases hindex : run.steps.findIdx? fun s =>
      s.decision.map StepDecision.id = some decisionId with
  | none =>
      simp only [hindex] at h
      cases h
  | some i =>
      simp only [hindex] at h
      cases h
      rcases List.findIdx?_eq_some_iff_getElem.mp hindex with ⟨hlt, hfound, _⟩
      have hany : (run.steps.any fun s =>
          s.decision.map StepDecision.id = some decisionId) = true :=
        List.any_eq_true.mpr ⟨_, List.getElem_mem hlt, hfound⟩
      have hlive : isSettled run = false := by
        simp only [fallsThrough, hany, Bool.and_true] at hin
        exact hin
      constructor
      · intro j id hpending
        rcases hpending with ⟨t, ht, hid⟩
        left
        rcases modify_step ht with ⟨step, hstep, ⟨_, rfl⟩ | ⟨_, rfl⟩⟩
        · rw [pendingOn_congr (startStep_approval now _)] at hid
          exact ⟨step, hstep, hid⟩
        · exact ⟨_, hstep, hid⟩
      · refine Moves.stays rfl ?_
        intro j id hwaits
        rcases hwaits with ⟨t, ht, hid, hstate⟩
        left
        rcases modify_step ht with ⟨step, hstep, ⟨_, rfl⟩ | ⟨_, rfl⟩⟩
        · rw [startStep_state] at hstate
          cases hstate
        · exact ⟨_, hstep, hid, hstate⟩
      · exact Or.inr hlive
      · exact Or.inr (Or.inl rfl)

/-- What `findParkedReview` found. -/
theorem findParkedReview_found {step : Step}
    (h : findParkedReview run = some (i, step, approval, review)) :
    run.steps[i]? = some step ∧ step.approval = some approval ∧ step.prReview = some review ∧
      isParkedReview step = true := by
  unfold findParkedReview at h
  cases hindex : run.steps.findIdx? isParkedReview with
  | none => simp [hindex] at h
  | some k =>
      simp only [hindex, Option.bind_some, Option.bind_eq_some_iff,
        Option.map_eq_some_iff] at h
      rcases h with ⟨found, hget, approval', happroval, review', hreview, heq⟩
      cases heq
      exact ⟨hget, happroval, hreview, findIdx_found hindex hget⟩

theorem findParkedReview_spec {step : Step}
    (h : findParkedReview run = some (i, step, approval, review)) :
    run.steps[i]? = some step ∧ step.approval = some approval ∧
      WaitsAt run i approval.id := by
  rcases findParkedReview_found h with ⟨hget, happroval, _, hparked⟩
  simp only [isParkedReview, Bool.and_eq_true] at hparked
  exact ⟨hget, happroval, waitsAt_of_awaits hget happroval hparked.1.2⟩

/-- The review that `findParkedReview` found waits for a selection. -/
theorem findParkedReview_review {step : Step}
    (h : findParkedReview run = some (i, step, approval, review)) :
    step.prReview = some review ∧ review.status = PrReviewStatus.awaitingSelection ∧
      step.agentKind = PR_REVIEW_STEP_KIND ∧ stepAwaitsDecision step = true := by
  rcases findParkedReview_found h with ⟨_, _, hreview, hparked⟩
  simp only [isParkedReview, hreview, Option.any_some, Bool.and_eq_true,
    decide_eq_true_eq] at hparked
  exact ⟨hreview, hparked.2, hparked.1.1, hparked.1.2⟩

/-- The step is run again in place, over its gate. -/
theorem rearmStep_effect {step step' : Step} (hcw : CursorWaits run)
    (hstep : run.steps[i]? = some step) (hwaits : WaitsAt run i approval.id)
    (hlive : isSettled run = false) :
    Effect run (rearmStep now i step' run) (some approval.id) none := by
  have hnone (id : String) :
      pendingOn id (startStep now (resetStepForRerun step')) = false := by
    rw [pendingOn_congr (startStep_approval now _)]
    exact pendingOn_of_none rfl
  refine rewrite_effect (hcw i approval.id hwaits) hstep rfl rfl ?_ hlive ?_
  · intro id hpending
    rw [hnone] at hpending
    cases hpending
  · exact Or.inr ⟨approval.id, rfl, hwaits, Or.inl (hnone approval.id)⟩

theorem resolvePrReview_effect {action : PrReviewResolution} {findingIds : List String}
    (hcw : CursorWaits run)
    (hin : fallsThrough registry run (.resolvePrReview now action findingIds) = false)
    (h : resolvePrReview now action findingIds run = .ok run') :
    Effect run run' (actsOn run (.resolvePrReview now action findingIds)) none := by
  cases hparked : findParkedReview run with
  | none => simp [resolvePrReview, hparked] at h
  | some found =>
      rcases found with ⟨i, step, approval, review⟩
      rcases findParkedReview_spec hparked with ⟨hstep, happroval, hwaits⟩
      simp only [resolvePrReview, hparked] at h
      simp only [fallsThrough, hparked] at hin
      have htarget : actsOn run (.resolvePrReview now action findingIds) =
          some approval.id := by
        simp [actsOn, hparked]
      rw [htarget]
      split at h
      · cases h
      · rename_i hselected
        have hlive : isSettled run = false := by
          by_cases hfinish : action = PrReviewResolution.finish
          · simpa [hfinish] using hin
          · have hsome : selectable review findingIds ≠ [] :=
              fun hnil => hselected ⟨hfinish, hnil⟩
            simpa [hsome] using hin
        cases action with
        | finish =>
            cases h
            apply advance_effect (hcw i approval.id hwaits) hstep
            · intro id hpending
              simp [pendingOn] at hpending
            · exact hlive
            · exact Or.inr ⟨approval.id, rfl, hwaits⟩
        | fix =>
            cases h
            exact rearmStep_effect hcw hstep hwaits hlive
        | post =>
            cases h
            exact rearmStep_effect hcw hstep hwaits hlive

theorem dismissParkedFinding_effect {findingId : String}
    (h : dismissParkedFinding findingId run = .ok run') :
    Effect run run' none none := by
  cases hparked : findParkedReview run with
  | none => simp [dismissParkedFinding, hparked] at h
  | some found =>
      rcases found with ⟨i, step, approval, review⟩
      rcases findParkedReview_spec hparked with ⟨hstep, _, _⟩
      simp only [dismissParkedFinding, hparked] at h
      cases h
      exact quiet_set hstep rfl rfl rfl fun _ h' => h'

theorem queueChallenge_spec {findingId : String} {question : Option String} {step step' : Step}
    (h : queueChallenge findingId question review step = .ok step') :
    challengeable review findingId = true ∧
      step'.approval = step.approval ∧ step'.state = step.state ∧
      step'.startedAt = step.startedAt ∧ step'.finishedAt = step.finishedAt := by
  simp only [queueChallenge] at h
  cases hfind : review.findings.find? fun f => f.id = findingId with
  | none => simp [hfind] at h
  | some target =>
      simp only [hfind] at h
      split at h
      · cases h
      · rename_i hretracted
        split at h
        · cases h
        · rename_i hflight
          cases h
          constructor
          · simp [challengeable, hfind, hretracted, hflight]
          · exact ⟨rfl, rfl, rfl, rfl⟩

theorem challengeFinding_effect {findingId : String} {question : Option String}
    (hcw : CursorWaits run)
    (hin : fallsThrough registry run (.challengeFinding now findingId question) = false)
    (h : challengeFinding now findingId question run = .ok run') :
    Effect run run' (actsOn run (.challengeFinding now findingId question)) none := by
  simp only [challengeFinding] at h
  cases hchallenging : run.steps.findIdx? isChallengingReview with
  | some i =>
      simp only [hchallenging] at h
      split at h
      · cases h
      · split at h
        · cases h
        · rename_i step review hfound
          rcases Option.bind_eq_some_iff.mp hfound with ⟨step', hstep, hmap⟩
          rcases Option.map_eq_some_iff.mp hmap with ⟨_, _, heq⟩
          cases heq
          split at h
          · cases h
          · rename_i queued hqueued
            cases h
            rcases queueChallenge_spec hqueued with
              ⟨_, happroval, hstate, hstarted, hfinished⟩
            refine quiet_set hstep hstate hstarted hfinished ?_
            intro id' hid'
            rw [pendingOn_congr happroval] at hid'
            exact hid'
  | none =>
      simp only [hchallenging] at h
      have hnone : run.steps.any isChallengingReview = false := by
        rw [List.any_eq_false]
        intro step hmem
        have := List.findIdx?_eq_none_iff.mp hchallenging step hmem
        simpa using this
      cases hparked : findParkedReview run with
      | none => simp [hparked] at h
      | some found =>
          rcases found with ⟨i, step, approval, review⟩
          rcases findParkedReview_spec hparked with ⟨hstep, happroval, hwaits⟩
          simp only [hparked] at h
          simp only [fallsThrough, hparked, hnone] at hin
          split at h
          · cases h
          · rename_i queued hqueued
            cases h
            have hlive : isSettled run = false := by
              simpa [(queueChallenge_spec hqueued).1] using hin
            have htarget : actsOn run (.challengeFinding now findingId question) =
                some approval.id := by
              simp [actsOn, hnone, hparked]
            rw [htarget]
            exact rearmStep_effect hcw hstep hwaits hlive

theorem bounceTargetIndex_lt {judge : JudgeDefinition} {i k : Nat}
    (h : bounceTargetIndex judge steps i = some k) : k < i := by
  simp only [bounceTargetIndex] at h
  split at h
  · exact nearestStepIndexBefore_lt h
  · split at h
    · cases h
    · cases h
      omega

theorem resolveJudge_effect {choice : JudgeChoice} {feedback : Option String}
    {rework : Rework} (hcw : CursorWaits run)
    (hin : fallsThrough registry run (.resolveJudge now choice feedback rework) = false)
    (h : resolveJudge registry now choice feedback rework run = .ok run') :
    Effect run run' (actsOn run (.resolveJudge now choice feedback rework)) none := by
  simp only [resolveJudge] at h
  cases hindex : run.steps.findIdx? isParkedJudge with
  | none => simp [hindex] at h
  | some i =>
      rcases List.findIdx?_eq_some_iff_getElem.mp hindex with ⟨hlt, hparked, _⟩
      have hstep : run.steps[i]? = some run.steps[i] := List.getElem?_eq_getElem hlt
      generalize run.steps[i] = step at hparked hstep
      simp only [isParkedJudge, Bool.and_eq_true] at hparked
      have hawaits := hparked.1
      cases happroval : step.approval with
      | none => simp [stepAwaitsDecision, happroval] at hawaits
      | some approval =>
          have hwaits := waitsAt_of_awaits hstep happroval hawaits
          have hcursor := hcw i approval.id hwaits
          have htarget : actsOn run (.resolveJudge now choice feedback rework) =
              some approval.id := by
            simp [actsOn, parkedJudge, hindex, hstep, happroval]
          rw [htarget]
          cases hjudge : step.judge with
          | none => simp [hjudge] at hparked
          | some state =>
              simp only [hindex, Option.bind_some, hstep, hjudge, Option.map_some] at h
              simp only [fallsThrough, hindex, Option.bind_some, hstep,
                Option.map_some] at hin
              split at h
              · cases h
              · rename_i judge hfor
                simp only [hfor] at hin
                cases choice with
                | proceed =>
                    have hlive : isSettled run = false := by simpa using hin
                    cases h
                    apply advance_effect hcursor hstep
                    · intro id hpending
                      exact hpending
                    · exact hlive
                    · exact Or.inr ⟨approval.id, rfl, hwaits⟩
                | stop =>
                    cases h
                    cases hlive : isSettled run with
                    | true =>
                        rw [failRun_of_settled hlive]
                        exact quiet_set hstep rfl rfl rfl fun _ h' => h'
                    | false =>
                        rw [failRun_of_live hlive]
                        refine rewrite_effect hcursor hstep rfl rfl (fun _ h' => h') hlive ?_
                        exact Or.inr ⟨approval.id, rfl, hwaits, Or.inr rfl⟩
                | bounce =>
                    cases hbounce : bounceTargetIndex judge run.steps i with
                    | none => simp [hbounce] at h
                    | some p =>
                        have hlive : isSettled run = false := by simpa [hbounce] using hin
                        have hlt := bounceTargetIndex_lt hbounce
                        simp only [hbounce] at h
                        cases h
                        refine @rerun_effect run run now p i rework _ hcursor
                          (Nat.le_of_lt hlt) (fun _ _ _ h' => h') hlive
                          (Or.inr ⟨approval.id, rfl, hwaits⟩) _ ?_ rfl
                        intro j t ht
                        rcases modify_step ht with ⟨t', ht', ⟨_, rfl⟩ | ⟨_, rfl⟩⟩
                        · exact ⟨t', ht', rfl, rfl⟩
                        · exact ⟨_, ht', rfl, rfl⟩

/-!
## The driver
-/

/-- The driver writes the step under the cursor. -/
theorem modify_effect {change : Step -> Step} {minted : Option String}
    (hlive : isSettled run = false)
    (hsteps : run'.steps = run.steps.modify run.currentStep change)
    (hsame : run'.currentStep = run.currentStep)
    (hpend : forall step id, pendingOn id (change step) = true ->
      pendingOn id step = true ∨ minted = some id) :
    Effect run run' none minted := by
  constructor
  · intro j id h
    rcases h with ⟨t, ht, hid⟩
    rw [hsteps] at ht
    rcases modify_step ht with ⟨step, hstep, ⟨hj, rfl⟩ | ⟨_, rfl⟩⟩
    · rcases hpend step id hid with hold | hminted
      · exact Or.inl ⟨step, hstep, hold⟩
      · exact Or.inr ⟨hminted, hj⟩
    · exact Or.inl ⟨_, hstep, hid⟩
  · apply Moves.stays hsame
    intro j id h
    rcases h with ⟨t, ht, hid, hstate⟩
    rw [hsteps] at ht
    rcases modify_step ht with ⟨step, hstep, ⟨hj, _⟩ | ⟨_, rfl⟩⟩
    · exact Or.inr hj
    · exact Or.inl ⟨_, hstep, hid, hstate⟩
  · exact Or.inr hlive
  · exact Or.inr (Or.inl rfl)

theorem pendingOn_parkStep {approvalId proposal id : String} {kind : ParkKind}
    {step : Step} (h : pendingOn id (parkStep now approvalId proposal kind step) = true) :
    some approvalId = some id := by
  cases kind with
  | approvalGate =>
      simpa [parkStep, pauseStepForInput, pendingOn, buildStepApproval] using h
  | companionCap =>
      simpa [parkStep, openDecisionPark, pauseStepForInput, pendingOn] using h
  | judgeVerdict state =>
      simpa [parkStep, openDecisionPark, pauseStepForInput, pendingOn] using h
  | reviewFindings review =>
      simpa [parkStep, openDecisionPark, pauseStepForInput, pendingOn] using h
  | other =>
      simpa [parkStep, openDecisionPark, pauseStepForInput, pendingOn] using h

theorem driverHolds_live {move : DriverMove} (h : driverHolds run move = true) :
    isSettled run = false := by
  cases move with
  | resume =>
      have hstatus : run.status = ExecutionStatus.paused := by simpa [driverHolds] using h
      simp [isSettled, hstatus]
  | _ =>
      simp only [driverHolds, Bool.and_eq_true, decide_eq_true_eq] at h
      simp [isSettled, h.1]

theorem driverAct_effect {move : DriverMove} (h : driverAct now run move = some run') :
    Effect run run' none (mints (.driver now move)) := by
  unfold driverAct at h
  split at h
  · rename_i hholds
    have hlive := driverHolds_live hholds
    cases move with
    | resume =>
        cases h
        exact status_effect hlive
    | pause =>
        cases h
        exact status_effect hlive
    | dispatch =>
        cases h
        refine modify_effect hlive rfl rfl ?_
        intro step id hid
        rw [pendingOn_congr (startStep_approval now step)] at hid
        exact Or.inl hid
    | askDecision decisionId =>
        simp only [driverWrite] at h
        split at h
        · cases h
        · cases h
          exact modify_effect hlive rfl rfl (fun _ _ hid => Or.inl hid)
    | park approvalId proposal kind =>
        cases h
        exact modify_effect hlive rfl rfl (fun _ _ hid => Or.inr (pendingOn_parkStep hid))
    | recordReview review jobs =>
        cases h
        exact modify_effect hlive rfl rfl (fun _ _ hid => Or.inl hid)
    | settle =>
        cases h
        simp only [driverHolds, Bool.and_eq_true, decide_eq_true_eq] at hholds
        have hstep := List.getElem?_eq_getElem hholds.2
        have heffect := @advance_effect run now run.currentStep _ _ none rfl hstep
          (fun _ hid => hid) hlive (Or.inl rfl)
        rw [List.set_getElem_self hholds.2] at heffect
        exact heffect
    | loopBack fromIndex rework =>
        simp only [driverWrite] at h
        split at h
        · rename_i hle
          cases h
          exact @rerun_effect run run now fromIndex run.currentStep rework none rfl hle
            (fun _ _ _ ht => ht) hlive (Or.inl rfl) _ (fun j t ht => ⟨t, ht, rfl, rfl⟩) rfl
        · cases h
  · cases h

/-- Every action in order has one of the effects. -/
theorem handle_effect {a : Action} (hcw : CursorWaits run)
    (hin : fallsThrough registry run a = false) (h : handle registry run a = .ok run') :
    Effect run run' (actsOn run a) (mints a) := by
  cases a with
  | resolveDecision now decisionId choice => exact resolveDecision_effect hin h
  | approveStep now approvalId proposal actor => exact approveStep_effect hcw hin h
  | requestStepChanges now approvalId review actor =>
      exact requestStepChanges_effect hcw hin h
  | rejectStep approvalId reason actor => exact rejectStep_effect hcw hin h
  | resolveCompanionExceeded now approvalId choice =>
      exact resolveCompanionExceeded_effect hcw hin h
  | resolvePrReview now action findingIds => exact resolvePrReview_effect hcw hin h
  | challengeFinding now findingId question => exact challengeFinding_effect hcw hin h
  | dismissFinding findingId => exact dismissParkedFinding_effect h
  | resolveJudge now choice feedback rework => exact resolveJudge_effect hcw hin h
  | stopRun =>
      cases h
      exact failRun_effect
  | failRun =>
      cases h
      exact failRun_effect
  | driver now move =>
      simp only [handle] at h
      split at h
      · cases h
      · rename_i hmove
        cases h
        exact driverAct_effect hmove

end Handlers

end Gates
end CatFactory
