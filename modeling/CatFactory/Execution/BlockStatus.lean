import CatFactory.Execution.RunTransitions

/-!
# Terminal block statuses

Which transitions take back a status that a step's resolver gave the block, and
what every run without them keeps.
-/

namespace CatFactory
namespace Execution

open Foundation
open Initiatives (BlockStatus)

variable {s t : BoardRun}

/-- A terminal status stays terminal, and `done` stays `done`. -/
def KeepsTerminal (s t : BoardRun) : Prop :=
  blockIsTerminal t = true ∧
    (blockStatus s = some BlockStatus.done -> blockStatus t = some BlockStatus.done)

/-- The end of the pipeline leaves the terminal status of this block alone: the
block is done or a task, or the run neither plans an initiative nor only maps a
repository. -/
def finalizeKeeps (s : BoardRun) : Bool :=
  match s.block with
  | none => true
  | some block =>
      block.status = BlockStatus.done || levelOf block = BlockLevel.task ||
        (!plansInitiative s.run && !mappingOnly s.run)

/-- The transition is none of those that write a terminal block back. -/
def leavesTerminal (s : BoardRun) (transition : Transition) : Bool :=
  !blockIsTerminal s ||
    match transition with
    | .settleStepAndAdvance _ isFinalStep _ => !isFinalStep || finalizeKeeps s
    | .advanceRunPastGate _ _ => true
    | .settleAdvancedGate stepIndex => !isLastIndex s.run stepIndex || finalizeKeeps s
    | .parkStepOnDecision _ _ _ _ => false
    | .failRun _ _ => isSettledRun s.run
    | .finalizeBlock => finalizeKeeps s

/-!
## Reading the block after a write
-/

theorem KeepsTerminal.of_same (hterminal : blockIsTerminal s = true)
    (hsame : blockStatus t = blockStatus s) : KeepsTerminal s t := by
  constructor
  · unfold blockIsTerminal at hterminal ⊢
    rw [hsame]
    exact hterminal
  · intro hdone
    rw [hsame]
    exact hdone

theorem terminal_cases {s : BoardRun} (h : blockIsTerminal s = true) :
    exists block, s.block = some block ∧
      (block.status = BlockStatus.done ∨ block.status = BlockStatus.prReady) := by
  unfold blockIsTerminal blockStatus at h
  cases hblock : s.block with
  | none => simp [hblock] at h
  | some block =>
      simp only [hblock, Option.map_some, Option.some.injEq, decide_eq_true_eq] at h
      exact ⟨block, rfl, h⟩

theorem blockStatus_updateBlock {s : BoardRun} {block : Block}
    (hblock : s.block = some block) (change : Block -> Block) :
    blockStatus (updateBlock change s) = some (change block).status := by
  simp [blockStatus, updateBlock, hblock]

theorem refreshBlockProgress_status (s : BoardRun) :
    blockStatus (refreshBlockProgress s) = blockStatus s := by
  unfold refreshBlockProgress blockStatus updateBlock
  cases s.block with
  | none => rfl
  | some block => rfl

theorem not_keeps_of_status {status : BlockStatus} (hstatus : blockStatus t = some status)
    (hdone : status ≠ BlockStatus.done)
    (hready : status ≠ BlockStatus.prReady) : Not (KeepsTerminal s t) := by
  intro h
  have hterminal := h.1
  unfold blockIsTerminal at hterminal
  rw [hstatus] at hterminal
  simp [hdone, hready] at hterminal

theorem keeps_of_done (hstatus : blockStatus t = some BlockStatus.done) : KeepsTerminal s t := by
  constructor
  · simp [blockIsTerminal, hstatus]
  · intro _
    exact hstatus

/-!
## The transitions one by one
-/

theorem finalizeBlock_keeps_iff {s : BoardRun} (hterminal : blockIsTerminal s = true) :
    KeepsTerminal s (finalizeBlock s) <-> finalizeKeeps s = true := by
  rcases terminal_cases hterminal with ⟨block, hblock, hstatus⟩
  have hsame : KeepsTerminal s s := KeepsTerminal.of_same hterminal rfl
  unfold finalizeBlock finalizeKeeps
  simp only [hblock]
  by_cases hdone : block.status = BlockStatus.done
  · simp [hdone, hsame]
  · have hready : block.status = BlockStatus.prReady := by
      rcases hstatus with h | h
      · exact absurd h hdone
      · exact h
    rw [if_neg hdone]
    by_cases hlevel : levelOf block = BlockLevel.task
    · -- a task stays at `pr_ready` or becomes `done`
      have hwrite (status : BlockStatus)
          (hkept : status = BlockStatus.done ∨ status = BlockStatus.prReady) :
          KeepsTerminal s
            (updateBlock (fun b => { b with status := status, progress := 1 }) s) := by
        have hread := blockStatus_updateBlock hblock
          (fun b => { b with status := status, progress := 1 })
        constructor
        · unfold blockIsTerminal
          rw [hread]
          simpa using hkept
        · intro h
          simp [blockStatus, hblock, hready] at h
      rw [if_neg (fun h => h hlevel)]
      simp only [hready, hlevel]
      constructor
      · intro _
        simp
      · intro _
        split
        · rw [if_neg (by simp)]
          exact hsame
        · split
          · exact hwrite _ (Or.inl rfl)
          · exact hwrite _ (Or.inr rfl)
    · rw [if_pos hlevel]
      cases hplans : plansInitiative s.run with
      | true =>
          have hnot := @not_keeps_of_status s _ _
            (blockStatus_updateBlock hblock
              (fun b => { b with status := BlockStatus.inProgress, progress := 0 }))
            (by simp) (by simp)
          simp [hdone, hlevel, hnot]
      | false =>
          cases hmapping : mappingOnly s.run with
          | true =>
              have hnot := @not_keeps_of_status s _ _
                (blockStatus_updateBlock hblock
                  (fun b => { b with status := BlockStatus.ready, progress := 1 }))
                (by simp) (by simp)
              simp [hdone, hlevel, hnot]
          | false =>
              have hkept := @keeps_of_done s _
                (blockStatus_updateBlock hblock
                  (fun b => { b with status := BlockStatus.done, progress := 1 }))
              simp [hkept]

theorem settleStepAndAdvance_keeps_iff {s : BoardRun} {now : Nat}
    {isFinalStep resolverOwnsTerminalStatus : Bool}
    (hterminal : blockIsTerminal s = true) :
    KeepsTerminal s
        (settleStepAndAdvance now isFinalStep resolverOwnsTerminalStatus s) <->
      (!isFinalStep || finalizeKeeps s) = true := by
  cases isFinalStep with
  | true =>
      have hfinal := @finalizeBlock_keeps_iff
        { s with run := { s.run with status := ExecutionStatus.done } } hterminal
      exact hfinal
  | false =>
      constructor
      · intro _
        rfl
      · intro _
        -- the block is read before it is written, so only its progress moves
        have hread : blockIsTerminal
            { s with
              run := { s.run with
                currentStep := s.run.currentStep + 1
                steps := s.run.steps.modify (s.run.currentStep + 1)
                  (startStep now) } } = true := hterminal
        unfold settleStepAndAdvance
        simp only [Bool.false_eq_true, if_false, hread, Bool.or_true, if_true]
        apply KeepsTerminal.of_same hterminal
        rw [refreshBlockProgress_status]
        rfl

theorem settleAdvancedGate_keeps_iff {stepIndex : Nat} (hterminal : blockIsTerminal s = true)
    (h : settleAdvancedGate stepIndex s = some t) :
    KeepsTerminal s t <->
      (!isLastIndex s.run stepIndex || finalizeKeeps s) = true := by
  unfold settleAdvancedGate at h
  split at h
  · cases h
  · cases hlast : isLastIndex s.run stepIndex with
    | true =>
        rw [hlast, if_pos rfl] at h
        cases h
        rw [finalizeBlock_keeps_iff hterminal]
        rfl
    | false =>
        rw [hlast, hterminal] at h
        cases h
        constructor
        · intro _
          rfl
        · intro _
          exact KeepsTerminal.of_same hterminal (refreshBlockProgress_status s)

theorem parkStepOnDecision_not_keeps {now stepIndex : Nat} {approvalId proposal : String}
    (hterminal : blockIsTerminal s = true)
    (h : parkStepOnDecision now stepIndex approvalId proposal s = some t) :
    Not (KeepsTerminal s t) := by
  rcases Option.map_eq_some_iff.mp h with ⟨step, _, rfl⟩
  rcases terminal_cases hterminal with ⟨block, hblock, _⟩
  apply @not_keeps_of_status s _ BlockStatus.blocked
  · simp [updateBlockProgress, updateBlock, blockStatus, hblock]
  · simp
  · simp

theorem failRun_keeps_iff {s : BoardRun} {now : Nat} {cause : FailureCause}
    (hterminal : blockIsTerminal s = true) :
    KeepsTerminal s (failRun now cause s) <-> isSettledRun s.run = true := by
  rcases terminal_cases hterminal with ⟨block, hblock, _⟩
  unfold failRun
  cases hsettled : isSettledRun s.run with
  | true =>
      simp only [if_true]
      constructor
      · intro _
        trivial
      · intro _
        exact KeepsTerminal.of_same hterminal rfl
  | false =>
      simp only [Bool.false_eq_true, if_false, iff_false]
      apply @not_keeps_of_status s _ BlockStatus.blocked
      · simp [updateBlock, blockStatus, hblock]
      · simp
      · simp

theorem advanceRunPastGate_keeps {now stepIndex : Nat} (hterminal : blockIsTerminal s = true)
    (h : advanceRunPastGate now stepIndex s = some t) : KeepsTerminal s t := by
  rcases Option.map_eq_some_iff.mp h with ⟨step, _, ht⟩
  apply KeepsTerminal.of_same hterminal
  rw [<- ht]
  split
  · rfl
  · rfl

/-- From a terminal block, a transition keeps the status exactly when it is none
of those that write it back. -/
theorem step_keepsTerminal_iff {transition : Transition} (hterminal : blockIsTerminal s = true)
    (h : s.step transition = some t) :
    KeepsTerminal s t <-> leavesTerminal s transition = true := by
  unfold leavesTerminal
  rw [hterminal]
  simp only [Bool.not_true, Bool.false_or]
  cases transition with
  | settleStepAndAdvance now isFinalStep resolverOwnsTerminalStatus =>
      cases h
      exact settleStepAndAdvance_keeps_iff hterminal
  | advanceRunPastGate now stepIndex =>
      constructor
      · intro _
        rfl
      · intro _
        exact advanceRunPastGate_keeps hterminal h
  | settleAdvancedGate stepIndex => exact settleAdvancedGate_keeps_iff hterminal h
  | parkStepOnDecision now stepIndex approvalId proposal =>
      constructor
      · intro hkeeps
        exact absurd hkeeps (parkStepOnDecision_not_keeps hterminal h)
      · intro hfalse
        cases hfalse
  | failRun now cause =>
      cases h
      exact failRun_keeps_iff hterminal
  | finalizeBlock =>
      cases h
      exact finalizeBlock_keeps_iff hterminal

/-!
## Whole runs
-/

abbrev TrailingRun (start : BoardRun) (trace : List Transition) (s : BoardRun) :
    Prop :=
  RunWhere BoardRun.step (fun s transition => leavesTerminal s transition = true)
    start trace s

/-- Once a resolver has given the block a terminal status, every run of
transitions that do not write it back keeps it, and keeps `done` as `done`. -/
theorem terminalStatus_kept {start s : BoardRun} {trace : List Transition}
    (hterminal : blockIsTerminal start = true)
    (hrun : TrailingRun start trace s) : KeepsTerminal start s := by
  apply @RunWhere.invariant _ _ _ _ _ (fun t => KeepsTerminal start t)
    (KeepsTerminal.of_same hterminal rfl) _ _ _ hrun
  intro u transition t hu hok h
  have hstep := (step_keepsTerminal_iff hu.1 h).mpr hok
  constructor
  · exact hstep.1
  · intro hdone
    exact hstep.2 (hu.2 hdone)

/-- A merged task with a judge and a deployer still to come. -/
def mergedRun : BoardRun :=
  { run :=
      { id := "exec_1"
        blockId := "blk_1"
        pipelineId := "pl_1"
        pipelineName := "Ship"
        steps :=
          [{ agentKind := "merger", state := AgentState.done },
            { agentKind := "judge", state := AgentState.working },
            { agentKind := "disposer", state := AgentState.pending }]
        currentStep := 1
        status := ExecutionStatus.running }
    block := some
      { id := "blk_1"
        level := some BlockLevel.task
        status := BlockStatus.done } }

def trailingTrace : List Transition :=
  [.settleStepAndAdvance 1 false false, .settleStepAndAdvance 2 true false]

theorem terminalStatus_kept_mergedRun :
    KeepsTerminal mergedRun (endOf BoardRun.step mergedRun trailingTrace) :=
  terminalStatus_kept (by decide) (runWhere_endOf (fun _ _ h => h) (by decide))

/-- A trailing judge that parks turns a merged task into a blocked one. -/
theorem terminalStatus_lost_byPark :
    exists trace s, Run BoardRun.step mergedRun trace s ∧
      blockStatus mergedRun = some BlockStatus.done ∧
      blockStatus s = some BlockStatus.blocked :=
  ⟨[.parkStepOnDecision 1 1 "appr_1" ""], _, run_endOf (by decide), by decide,
    by decide⟩

end Execution
end CatFactory
