import CatFactory.Harness.ProgressGuard
import Mathlib.Data.List.Induction

/-!
# What the progress guard holds a run to

Until it first aborts, the guard's counters are the lengths of the trailing
blocks of the stream.  No run of calls goes on for ever without a verdict, and a
guard with larger limits speaks no earlier.
-/

namespace CatFactory
namespace Harness

variable {guard : ProgressGuard} {tool : ToolSignal}

/-!
## One call
-/

/-- A streak that goes on or starts again. -/
def bump (hit : Bool) (count : Nat) : Nat :=
  if hit then count + 1 else 0

theorem bump_true (count : Nat) : bump true count = count + 1 :=
  rfl

namespace ProgressGuard

/-- The counters after a call on which the guard does not abort. -/
def tally (guard : ProgressGuard) (tool : ToolSignal) : ProgressGuard :=
  { toolCalls := if tool.isNonAction then guard.toolCalls else guard.toolCalls + 1
    edits := if tool.isNonAction = false ∧ tool.isFileEdit = true then guard.edits + 1
      else guard.edits
    consecutiveErrors := bump tool.isError guard.consecutiveErrors
    consecutiveWebCalls := bump tool.isWeb guard.consecutiveWebCalls
    consecutiveMcpCalls := bump tool.isMcp guard.consecutiveMcpCalls
    consecutiveNonActionCalls := bump tool.isNonAction guard.consecutiveNonActionCalls
    awaitingWorkspaceEvidence := guard.awaitingWorkspaceEvidence }

theorem tally_consecutiveErrors (guard : ProgressGuard) (tool : ToolSignal) :
    (guard.tally tool).consecutiveErrors = bump tool.isError guard.consecutiveErrors := by
  rw [tally]

theorem tally_consecutiveWebCalls (guard : ProgressGuard) (tool : ToolSignal) :
    (guard.tally tool).consecutiveWebCalls = bump tool.isWeb guard.consecutiveWebCalls := by
  rw [tally]

theorem tally_consecutiveMcpCalls (guard : ProgressGuard) (tool : ToolSignal) :
    (guard.tally tool).consecutiveMcpCalls = bump tool.isMcp guard.consecutiveMcpCalls := by
  rw [tally]

theorem tally_consecutiveNonActionCalls (guard : ProgressGuard) (tool : ToolSignal) :
    (guard.tally tool).consecutiveNonActionCalls =
      bump tool.isNonAction guard.consecutiveNonActionCalls := by
  rw [tally]

/-- A streak is at its bound. -/
def Aborts (limits : ProgressGuardLimits) (guard : ProgressGuard) (tool : ToolSignal) : Prop :=
  limits.maxConsecutiveErrors ≤ (guard.tally tool).consecutiveErrors ∨
    (tool.isWeb = true ∧ limits.webCap ≤ (guard.tally tool).consecutiveWebCalls) ∨
    (tool.isMcp = true ∧ limits.mcpCap ≤ (guard.tally tool).consecutiveMcpCalls) ∨
    (tool.isNonAction = true ∧
      limits.nonActionCap ≤ (guard.tally tool).consecutiveNonActionCalls)

theorem aborts_iff (limits : ProgressGuardLimits) (guard : ProgressGuard) (tool : ToolSignal) :
    guard.Aborts limits tool <->
      limits.maxConsecutiveErrors ≤ bump tool.isError guard.consecutiveErrors ∨
        (tool.isWeb = true ∧ limits.webCap ≤ bump tool.isWeb guard.consecutiveWebCalls) ∨
        (tool.isMcp = true ∧ limits.mcpCap ≤ bump tool.isMcp guard.consecutiveMcpCalls) ∨
        (tool.isNonAction = true ∧
          limits.nonActionCap ≤ bump tool.isNonAction guard.consecutiveNonActionCalls) := by
  rw [Aborts, tally_consecutiveErrors, tally_consecutiveWebCalls, tally_consecutiveMcpCalls,
    tally_consecutiveNonActionCalls]

/-- The no-edit bound is reached and its question is not out yet. -/
def Asks (limits : ProgressGuardLimits) (expectsEdits : Bool) (guard : ProgressGuard)
    (tool : ToolSignal) : Prop :=
  tool.isNonAction = false ∧ expectsEdits = true ∧ (guard.tally tool).edits = 0 ∧
    guard.awaitingWorkspaceEvidence = false ∧
      limits.maxToolCallsWithoutEdit ≤ (guard.tally tool).toolCalls

/-- What a call can do: abort, ask, or be counted. -/
inductive Observed (limits : ProgressGuardLimits) (expectsEdits : Bool) (guard : ProgressGuard)
    (tool : ToolSignal) : ProgressGuard × Option ProgressVerdict -> Prop where
  | aborted {after : ProgressGuard} {reason : String} :
      guard.Aborts limits tool ->
      after.toolCalls = guard.toolCalls -> after.edits = guard.edits ->
      after.awaitingWorkspaceEvidence = guard.awaitingWorkspaceEvidence ->
      Observed limits expectsEdits guard tool (after, some (ProgressVerdict.abort reason))
  | asked {reason : String} :
      ¬ guard.Aborts limits tool -> guard.Asks limits expectsEdits tool ->
      Observed limits expectsEdits guard tool
        ({ guard.tally tool with awaitingWorkspaceEvidence := true },
          some (ProgressVerdict.needsWorkspaceEvidence reason))
  | counted :
      ¬ guard.Aborts limits tool -> ¬ guard.Asks limits expectsEdits tool ->
      Observed limits expectsEdits guard tool (guard.tally tool, none)

theorem observeWeb_eq (limits : ProgressGuardLimits) (expectsEdits : Bool)
    (guard : ProgressGuard) (tool : ToolSignal) :
    guard.observeWeb limits expectsEdits tool =
      let counted := { guard with
        consecutiveWebCalls := bump tool.isWeb guard.consecutiveWebCalls }
      if tool.isWeb = true ∧ limits.webCap ≤ counted.consecutiveWebCalls then
        (counted, some (ProgressVerdict.abort counted.webReason))
      else counted.observeMcp limits expectsEdits tool := by
  unfold observeWeb
  cases tool.isWeb <;> simp [bump]

theorem observeMcp_eq (limits : ProgressGuardLimits) (expectsEdits : Bool)
    (guard : ProgressGuard) (tool : ToolSignal) :
    guard.observeMcp limits expectsEdits tool =
      let counted := { guard with
        consecutiveMcpCalls := bump tool.isMcp guard.consecutiveMcpCalls }
      if tool.isMcp = true ∧ limits.mcpCap ≤ counted.consecutiveMcpCalls then
        (counted, some (ProgressVerdict.abort counted.mcpReason))
      else counted.observeNonAction limits expectsEdits tool := by
  unfold observeMcp
  cases tool.isMcp <;> simp [bump]

theorem observeSignal_eq (limits : ProgressGuardLimits) (expectsEdits : Bool)
    (guard : ProgressGuard) (tool : ToolSignal) :
    guard.observeSignal limits expectsEdits tool =
      let counted := { guard with
        consecutiveErrors := bump tool.isError guard.consecutiveErrors }
      if limits.maxConsecutiveErrors ≤ counted.consecutiveErrors then
        (counted, some (ProgressVerdict.abort counted.errorReason))
      else counted.observeWeb limits expectsEdits tool :=
  rfl

theorem observeNonAction_of_true {limits : ProgressGuardLimits} {expectsEdits : Bool}
    (h : tool.isNonAction = true) :
    guard.observeNonAction limits expectsEdits tool =
      let counted := { guard with
        consecutiveNonActionCalls := guard.consecutiveNonActionCalls + 1 }
      if limits.nonActionCap ≤ counted.consecutiveNonActionCalls then
        (counted, some (ProgressVerdict.abort counted.nonActionReason))
      else (counted, none) :=
  if_pos h

theorem observeNonAction_of_false {limits : ProgressGuardLimits} {expectsEdits : Bool}
    (h : tool.isNonAction = false) :
    guard.observeNonAction limits expectsEdits tool =
      guard.observeAction limits expectsEdits tool := by
  rw [observeNonAction, h, if_neg Bool.false_ne_true]

theorem tally_of_nonAction (h : tool.isNonAction = true) :
    guard.tally tool =
      { guard with
        consecutiveErrors := bump tool.isError guard.consecutiveErrors
        consecutiveWebCalls := bump tool.isWeb guard.consecutiveWebCalls
        consecutiveMcpCalls := bump tool.isMcp guard.consecutiveMcpCalls
        consecutiveNonActionCalls := guard.consecutiveNonActionCalls + 1 } := by
  simp [tally, bump, h]

theorem tally_of_action (h : tool.isNonAction = false) :
    guard.tally tool =
      { toolCalls := guard.toolCalls + 1
        edits := if tool.isFileEdit then guard.edits + 1 else guard.edits
        consecutiveErrors := bump tool.isError guard.consecutiveErrors
        consecutiveWebCalls := bump tool.isWeb guard.consecutiveWebCalls
        consecutiveMcpCalls := bump tool.isMcp guard.consecutiveMcpCalls
        consecutiveNonActionCalls := 0
        awaitingWorkspaceEvidence := guard.awaitingWorkspaceEvidence } := by
  simp [tally, bump, h]

/-- The last check, on a guard whose other streaks are counted and below their bounds. -/
theorem observeNonAction_observed {limits : ProgressGuardLimits} {expectsEdits : Bool}
    (hothers : guard.Aborts limits tool -> tool.isNonAction = true ∧
      limits.nonActionCap ≤ bump tool.isNonAction guard.consecutiveNonActionCalls) :
    Observed limits expectsEdits guard tool
      ({ guard with
          consecutiveErrors := bump tool.isError guard.consecutiveErrors
          consecutiveWebCalls := bump tool.isWeb guard.consecutiveWebCalls
          consecutiveMcpCalls := bump tool.isMcp guard.consecutiveMcpCalls }.observeNonAction
        limits expectsEdits tool) := by
  cases hnonAction : tool.isNonAction with
  | true =>
      rw [hnonAction, bump_true] at hothers
      have htally := @tally_of_nonAction guard tool hnonAction
      have hask : ¬ guard.Asks limits expectsEdits tool := by
        intro h
        exact Bool.false_ne_true (h.left.symm.trans hnonAction)
      rw [observeNonAction_of_true hnonAction]
      by_cases hcap : limits.nonActionCap ≤ guard.consecutiveNonActionCalls + 1
      · have haborts : guard.Aborts limits tool := by
          rw [aborts_iff, hnonAction, bump_true]
          exact Or.inr (Or.inr (Or.inr ⟨rfl, hcap⟩))
        simp only [hcap, if_true]
        exact Observed.aborted haborts rfl rfl rfl
      · have hquiet : ¬ guard.Aborts limits tool := by
          intro h
          exact hcap (hothers h).right
        simp only [hcap, if_false]
        rw [← htally]
        exact Observed.counted hquiet hask
  | false =>
      have htally := @tally_of_action guard tool hnonAction
      have hquiet : ¬ guard.Aborts limits tool := by
        intro h
        exact Bool.false_ne_true (hnonAction.symm.trans (hothers h).left)
      rw [observeNonAction_of_false hnonAction, observeAction]
      by_cases hask : guard.Asks limits expectsEdits tool
      · have hcondition := hask.right
        rw [htally] at hcondition
        rw [if_pos hcondition]
        have hasked := @Observed.asked limits expectsEdits guard tool
          (guard.tally tool).noEditReason hquiet hask
        rw [htally] at hasked
        exact hasked
      · have hcondition : ¬ (expectsEdits = true ∧
            (if tool.isFileEdit then guard.edits + 1 else guard.edits) = 0 ∧
            guard.awaitingWorkspaceEvidence = false ∧
            limits.maxToolCallsWithoutEdit ≤ guard.toolCalls + 1) := by
          intro h
          apply hask
          unfold Asks
          rw [htally]
          exact ⟨hnonAction, h⟩
        rw [if_neg hcondition]
        have hcounted := @Observed.counted limits expectsEdits guard tool hquiet hask
        rw [htally] at hcounted
        exact hcounted

/-- Every call is one of the three. -/
theorem observeSignal_observed (limits : ProgressGuardLimits) (expectsEdits : Bool)
    (guard : ProgressGuard) (tool : ToolSignal) :
    Observed limits expectsEdits guard tool (guard.observeSignal limits expectsEdits tool) := by
  rw [observeSignal_eq]
  by_cases herrors : limits.maxConsecutiveErrors ≤ bump tool.isError guard.consecutiveErrors
  · have haborts := (aborts_iff limits guard tool).mpr (Or.inl herrors)
    simp only [herrors, if_true]
    exact Observed.aborted haborts rfl rfl rfl
  simp only [herrors, if_false]
  rw [observeWeb_eq]
  by_cases hweb : tool.isWeb = true ∧ limits.webCap ≤ bump tool.isWeb guard.consecutiveWebCalls
  · have haborts := (aborts_iff limits guard tool).mpr (Or.inr (Or.inl hweb))
    rw [if_pos hweb]
    exact Observed.aborted haborts rfl rfl rfl
  rw [if_neg hweb, observeMcp_eq]
  by_cases hmcp : tool.isMcp = true ∧ limits.mcpCap ≤ bump tool.isMcp guard.consecutiveMcpCalls
  · have haborts := (aborts_iff limits guard tool).mpr (Or.inr (Or.inr (Or.inl hmcp)))
    rw [if_pos hmcp]
    exact Observed.aborted haborts rfl rfl rfl
  rw [if_neg hmcp]
  apply observeNonAction_observed
  intro h
  rcases (aborts_iff limits guard tool).mp h with h | h | h | h
  · exact absurd h herrors
  · exact absurd h hweb
  · exact absurd h hmcp
  · exact h

end ProgressGuard

/-!
## Runs
-/

def isAbort : Option ProgressVerdict -> Bool
  | some (ProgressVerdict.abort _) => true
  | _ => false

def isQuestion : Option ProgressVerdict -> Bool
  | some (ProgressVerdict.needsWorkspaceEvidence _) => true
  | _ => false

/-- The tool calls of a stream. -/
def callsOf (events : List GuardEvent) : List ToolSignal :=
  events.filterMap fun event =>
    match event with
    | GuardEvent.signal tool => some tool
    | _ => none

/-- The length of the block at the end of a list that fits. -/
def trailing (fits : ToolSignal -> Bool) (calls : List ToolSignal) : Nat :=
  (calls.reverse.takeWhile fits).length

theorem trailing_snoc (fits : ToolSignal -> Bool) (calls : List ToolSignal) (tool : ToolSignal) :
    trailing fits (calls ++ [tool]) = bump (fits tool) (trailing fits calls) := by
  unfold trailing bump
  rw [List.reverse_append]
  cases hfits : fits tool <;> simp [hfits]

section Run

variable (limits : ProgressGuardLimits) (expectsEdits : Bool)

/-- Every call of a stream gets a verdict that fits. -/
def EveryVerdict (fits : Option ProgressVerdict -> Bool) (events : List GuardEvent) : Prop :=
  forall before tool later, events = before ++ GuardEvent.signal tool :: later ->
    fits (verdictOn limits expectsEdits before tool) = true

def Unaborted (events : List GuardEvent) : Prop :=
  EveryVerdict limits expectsEdits (fun verdict => !isAbort verdict) events

def Silent (events : List GuardEvent) : Prop :=
  EveryVerdict limits expectsEdits Option.isNone events

variable {limits expectsEdits} {events : List GuardEvent}

theorem everyVerdict_snoc {fits : Option ProgressVerdict -> Bool} {event : GuardEvent}
    (h : EveryVerdict limits expectsEdits fits (events ++ [event])) :
    EveryVerdict limits expectsEdits fits events ∧
      forall tool, event = GuardEvent.signal tool ->
        fits (verdictOn limits expectsEdits events tool) = true := by
  constructor
  · intro before tool later hsplit
    apply h before tool (later ++ [event])
    rw [hsplit]
    simp
  · intro tool heq
    apply h events tool []
    rw [heq]

theorem everyVerdict_of_snoc {fits : Option ProgressVerdict -> Bool} {event : GuardEvent}
    (h : EveryVerdict limits expectsEdits fits events)
    (hlast : forall tool, event = GuardEvent.signal tool ->
      fits (verdictOn limits expectsEdits events tool) = true) :
    EveryVerdict limits expectsEdits fits (events ++ [event]) := by
  intro before tool later hsplit
  rcases List.eq_nil_or_concat later with hnil | ⟨init, last, hlater⟩
  · rw [hnil] at hsplit
    have hparts := List.append_inj' hsplit rfl
    rw [← hparts.left]
    exact hlast tool (List.head_eq_of_cons_eq hparts.right)
  · apply h before tool init
    rw [hlater, List.concat_eq_append, ← List.cons_append, ← List.append_assoc] at hsplit
    exact (List.append_inj' hsplit rfl).left

theorem guardAfter_snoc (event : GuardEvent) :
    guardAfter limits expectsEdits (events ++ [event]) =
      event.apply limits expectsEdits (guardAfter limits expectsEdits events) := by
  simp [guardAfter]

theorem isAbort_iff (tool : ToolSignal) :
    isAbort (verdictOn limits expectsEdits events tool) = true <->
      (guardAfter limits expectsEdits events).Aborts limits tool := by
  have hobserved := ProgressGuard.observeSignal_observed limits expectsEdits
    (guardAfter limits expectsEdits events) tool
  unfold verdictOn
  generalize (guardAfter limits expectsEdits events).observeSignal limits expectsEdits tool =
    outcome at hobserved ⊢
  cases hobserved with
  | aborted haborts _ _ _ => exact iff_of_true rfl haborts
  | asked hquiet _ => exact iff_of_false Bool.false_ne_true hquiet
  | counted hquiet _ => exact iff_of_false Bool.false_ne_true hquiet

theorem isQuestion_asks (h : isQuestion (verdictOn limits expectsEdits events tool) = true) :
    (guardAfter limits expectsEdits events).Asks limits expectsEdits tool := by
  have hobserved := ProgressGuard.observeSignal_observed limits expectsEdits
    (guardAfter limits expectsEdits events) tool
  unfold verdictOn at h
  generalize (guardAfter limits expectsEdits events).observeSignal limits expectsEdits tool =
    outcome at hobserved h
  cases hobserved with
  | aborted _ _ _ _ => cases h
  | asked _ hasks => exact hasks
  | counted _ _ => cases h

/-!
## Exact streaks
-/

/-- The counters of a guard are the trailing blocks of the calls it was told. -/
structure Counts (guard : ProgressGuard) (calls : List ToolSignal) : Prop where
  errors : guard.consecutiveErrors = trailing ToolSignal.isError calls
  web : guard.consecutiveWebCalls = trailing ToolSignal.isWeb calls
  mcp : guard.consecutiveMcpCalls = trailing ToolSignal.isMcp calls
  nonAction : guard.consecutiveNonActionCalls = trailing ToolSignal.isNonAction calls

theorem Counts.tally {calls : List ToolSignal} (h : Counts guard calls)
    (tool : ToolSignal) : Counts (guard.tally tool) (calls ++ [tool]) := by
  constructor
  · rw [trailing_snoc, ← h.errors, ProgressGuard.tally_consecutiveErrors]
  · rw [trailing_snoc, ← h.web, ProgressGuard.tally_consecutiveWebCalls]
  · rw [trailing_snoc, ← h.mcp, ProgressGuard.tally_consecutiveMcpCalls]
  · rw [trailing_snoc, ← h.nonAction, ProgressGuard.tally_consecutiveNonActionCalls]

theorem callsOf_snoc (events : List GuardEvent) (event : GuardEvent) :
    callsOf (events ++ [event]) = callsOf events ++ callsOf [event] :=
  List.filterMap_append

theorem counts_of_unaborted (h : Unaborted limits expectsEdits events) :
    Counts (guardAfter limits expectsEdits events) (callsOf events) := by
  induction events using List.reverseRecOn with
  | nil => exact ⟨rfl, rfl, rfl, rfl⟩
  | append_singleton events event ih =>
      rcases everyVerdict_snoc h with ⟨hbefore, hlast⟩
      have hcounts := ih hbefore
      rw [guardAfter_snoc, callsOf_snoc]
      cases event with
      | signal tool =>
          have hverdict := hlast tool rfl
          have hobserved := ProgressGuard.observeSignal_observed limits expectsEdits
            (guardAfter limits expectsEdits events) tool
          have htally := hcounts.tally tool
          unfold verdictOn at hverdict
          show Counts ((guardAfter limits expectsEdits events).observeSignal limits expectsEdits
            tool).1 _
          generalize (guardAfter limits expectsEdits events).observeSignal limits expectsEdits
            tool = outcome at hobserved hverdict ⊢
          cases hobserved with
          | aborted _ _ _ _ => cases hverdict
          | asked _ _ => exact ⟨htally.errors, htally.web, htally.mcp, htally.nonAction⟩
          | counted _ _ => exact htally
      | noteWorkspaceMutation =>
          show Counts _ (callsOf events ++ [])
          rw [List.append_nil]
          exact ⟨hcounts.errors, hcounts.web, hcounts.mcp, hcounts.nonAction⟩
      | rearmNoEditBound =>
          show Counts _ (callsOf events ++ [])
          rw [List.append_nil]
          exact ⟨hcounts.errors, hcounts.web, hcounts.mcp, hcounts.nonAction⟩

/-- Every bound is at least one. -/
structure Positive (limits : ProgressGuardLimits) : Prop where
  noEdit : 0 < limits.maxToolCallsWithoutEdit
  errors : 0 < limits.maxConsecutiveErrors
  web : 0 < limits.webCap
  mcp : 0 < limits.mcpCap
  nonAction : 0 < limits.nonActionCap

/-- A block of calls at its bound ends at the call that made it so. -/
theorem bump_reaches {hit : Bool} {bound count : Nat} (hpositive : 0 < bound) :
    (hit = true ∧ bound ≤ bump hit count) <-> bound ≤ bump hit count := by
  constructor
  · intro h
    exact h.right
  · intro h
    cases hit with
    | true => exact ⟨rfl, h⟩
    | false => exact absurd h (Nat.not_le.mpr hpositive)

/-- Before the first abort, the guard aborts exactly when a trailing block is long enough. -/
theorem isAbort_iff_trailing (hpositive : Positive limits)
    (h : Unaborted limits expectsEdits events) (tool : ToolSignal) :
    isAbort (verdictOn limits expectsEdits events tool) = true <->
      limits.maxConsecutiveErrors ≤ trailing ToolSignal.isError (callsOf events ++ [tool]) ∨
        limits.webCap ≤ trailing ToolSignal.isWeb (callsOf events ++ [tool]) ∨
        limits.mcpCap ≤ trailing ToolSignal.isMcp (callsOf events ++ [tool]) ∨
        limits.nonActionCap ≤ trailing ToolSignal.isNonAction (callsOf events ++ [tool]) := by
  have hcounts := counts_of_unaborted h
  rw [isAbort_iff, ProgressGuard.aborts_iff, bump_reaches hpositive.web,
    bump_reaches hpositive.mcp, bump_reaches hpositive.nonAction, hcounts.errors, hcounts.web,
    hcounts.mcp, hcounts.nonAction, trailing_snoc, trailing_snoc, trailing_snoc, trailing_snoc]

/-!
## Edits and questions
-/

theorem isNonAction_of_isFileEdit (h : tool.isFileEdit = true) :
    tool.isNonAction = false := by
  have hnames : forall name, name ∈ FILE_EDIT_TOOLS -> isNonActionToolCall name = false := by
    decide +kernel
  rw [ToolSignal.isFileEdit] at h
  rw [ToolSignal.isNonAction]
  exact hnames tool.loweredName (of_decide_eq_true h)

/-- A noted mutation, or a call of an edit tool on which the guard did not abort. -/
def EditedBy (limits : ProgressGuardLimits) (expectsEdits : Bool) (before : List GuardEvent)
    (event : GuardEvent) : Prop :=
  match event with
  | GuardEvent.signal tool =>
      tool.isFileEdit = true ∧ isAbort (verdictOn limits expectsEdits before tool) = false
  | GuardEvent.noteWorkspaceMutation => True
  | GuardEvent.rearmNoEditBound => False

def Edited (limits : ProgressGuardLimits) (expectsEdits : Bool) (events : List GuardEvent) :
    Prop :=
  exists before event later, events = before ++ event :: later ∧
    EditedBy limits expectsEdits before event

theorem edited_snoc {event : GuardEvent} :
    Edited limits expectsEdits (events ++ [event]) <->
      Edited limits expectsEdits events ∨ EditedBy limits expectsEdits events event := by
  constructor
  · intro h
    rcases h with ⟨before, edit, later, hsplit, hedit⟩
    rcases List.eq_nil_or_concat later with hnil | ⟨init, last, hlater⟩
    · rw [hnil] at hsplit
      have hparts := List.append_inj' hsplit rfl
      rw [hparts.left, List.head_eq_of_cons_eq hparts.right]
      exact Or.inr hedit
    · rw [hlater, List.concat_eq_append, ← List.cons_append, ← List.append_assoc] at hsplit
      exact Or.inl ⟨before, edit, init, (List.append_inj' hsplit rfl).left, hedit⟩
  · intro h
    rcases h with ⟨before, edit, later, hsplit, hedit⟩ | hedit
    · rw [hsplit]
      exact ⟨before, edit, later ++ [event], by simp, hedit⟩
    · exact ⟨events, event, [], rfl, hedit⟩

theorem tally_edits_eq_zero :
    (guard.tally tool).edits = 0 <-> guard.edits = 0 ∧ ¬ tool.isFileEdit = true := by
  show (if tool.isNonAction = false ∧ tool.isFileEdit = true then _ else _) = 0 <-> _
  cases hedit : tool.isFileEdit with
  | true => simp [isNonAction_of_isFileEdit hedit]
  | false => simp

theorem tally_toolCalls_lt (h : guard.toolCalls < limits.maxToolCallsWithoutEdit)
    (hedits : (guard.tally tool).edits = 0) (hawaiting : guard.awaitingWorkspaceEvidence = false)
    (hsilent : ¬ guard.Asks limits true tool) :
    (guard.tally tool).toolCalls < limits.maxToolCallsWithoutEdit := by
  cases hnonAction : tool.isNonAction with
  | true =>
      rw [ProgressGuard.tally_of_nonAction hnonAction]
      exact h
  | false =>
      apply Nat.lt_of_not_le
      intro hbound
      exact hsilent ⟨hnonAction, rfl, hedits, hawaiting, hbound⟩

/-- The count of edits is still zero exactly when there was none. -/
theorem edits_eq_zero_iff :
    (guardAfter limits expectsEdits events).edits = 0 <->
      ¬ Edited limits expectsEdits events := by
  induction events using List.reverseRecOn with
  | nil =>
      apply iff_of_true rfl
      intro h
      rcases h with ⟨before, _, _, hsplit, _⟩
      cases before <;> cases hsplit
  | append_singleton events event ih =>
      rw [guardAfter_snoc, edited_snoc, not_or, ← ih]
      cases event with
      | signal tool =>
          have hobserved := ProgressGuard.observeSignal_observed limits expectsEdits
            (guardAfter limits expectsEdits events) tool
          show ((guardAfter limits expectsEdits events).observeSignal limits expectsEdits
              tool).1.edits = 0 <->
            _ ∧ ¬ (tool.isFileEdit = true ∧ isAbort ((guardAfter limits expectsEdits
              events).observeSignal limits expectsEdits tool).2 = false)
          generalize (guardAfter limits expectsEdits events).observeSignal limits expectsEdits
            tool = outcome at hobserved ⊢
          cases hobserved with
          | aborted _ _ hedits _ => simp [hedits, isAbort]
          | asked _ _ => simpa [isAbort] using tally_edits_eq_zero
          | counted _ _ => simpa [isAbort] using tally_edits_eq_zero
      | noteWorkspaceMutation =>
          apply iff_of_false
          · exact Nat.succ_ne_zero _
          · intro h
            exact h.right trivial
      | rearmNoEditBound =>
          constructor
          · intro h
            exact ⟨h, not_false⟩
          · exact And.left

/-- A question that no event after it answered. -/
def Outstanding (limits : ProgressGuardLimits) (expectsEdits : Bool)
    (events : List GuardEvent) : Prop :=
  exists before tool, exists calls : List ToolSignal,
    events = before ++ GuardEvent.signal tool :: calls.map GuardEvent.signal ∧
      isQuestion (verdictOn limits expectsEdits before tool) = true

theorem outstanding_snoc {event : GuardEvent} :
    Outstanding limits expectsEdits (events ++ [event]) <->
      exists tool, event = GuardEvent.signal tool ∧
        (Outstanding limits expectsEdits events ∨
          isQuestion (verdictOn limits expectsEdits events tool) = true) := by
  constructor
  · intro h
    rcases h with ⟨before, tool, calls, hsplit, hquestion⟩
    rcases List.eq_nil_or_concat calls with hnil | ⟨init, last, hcalls⟩
    · rw [hnil] at hsplit
      have hparts := List.append_inj' hsplit rfl
      rw [hparts.left]
      exact ⟨tool, List.head_eq_of_cons_eq hparts.right, Or.inr hquestion⟩
    · rw [hcalls, List.concat_eq_append, List.map_append, ← List.cons_append,
        ← List.append_assoc] at hsplit
      have hparts := List.append_inj' hsplit rfl
      exact ⟨last, List.head_eq_of_cons_eq hparts.right,
        Or.inl ⟨before, tool, init, hparts.left, hquestion⟩⟩
  · intro h
    rcases h with ⟨tool, hevent, ⟨before, asked, calls, hsplit, hquestion⟩ | hquestion⟩
    · rw [hevent, hsplit]
      exact ⟨before, asked, calls ++ [tool], by simp, hquestion⟩
    · rw [hevent]
      exact ⟨events, tool, [], rfl, hquestion⟩

theorem awaiting_of_signal (guard : ProgressGuard) (tool : ToolSignal) :
    (guard.observeSignal limits expectsEdits tool).1.awaitingWorkspaceEvidence = true <->
      guard.awaitingWorkspaceEvidence = true ∨
        isQuestion (guard.observeSignal limits expectsEdits tool).2 = true := by
  have hobserved := ProgressGuard.observeSignal_observed limits expectsEdits guard tool
  generalize guard.observeSignal limits expectsEdits tool = outcome at hobserved ⊢
  cases hobserved with
  | aborted _ _ _ hawaiting =>
      rw [hawaiting]
      exact (or_iff_left Bool.false_ne_true).symm
  | asked _ _ => exact iff_of_true rfl (Or.inr rfl)
  | counted _ _ => exact (or_iff_left Bool.false_ne_true).symm

/-- The guard waits exactly while a question is outstanding. -/
theorem awaiting_iff :
    (guardAfter limits expectsEdits events).awaitingWorkspaceEvidence = true <->
      Outstanding limits expectsEdits events := by
  induction events using List.reverseRecOn with
  | nil =>
      apply iff_of_false Bool.false_ne_true
      intro h
      rcases h with ⟨before, _, _, hsplit, _⟩
      cases before <;> cases hsplit
  | append_singleton events event ih =>
      rw [guardAfter_snoc, outstanding_snoc, ← ih]
      cases event with
      | signal tool =>
          apply (awaiting_of_signal _ tool).trans
          constructor
          · intro h
            exact ⟨tool, rfl, h⟩
          · intro h
            rcases h with ⟨other, hother, h⟩
            cases hother
            exact h
      | noteWorkspaceMutation =>
          apply iff_of_false Bool.false_ne_true
          intro h
          rcases h with ⟨_, hevent, _⟩
          cases hevent
      | rearmNoEditBound =>
          apply iff_of_false Bool.false_ne_true
          intro h
          rcases h with ⟨_, hevent, _⟩
          cases hevent

/-- A question is asked of a run without an edit, and once until it is answered. -/
theorem question_free (h : isQuestion (verdictOn limits expectsEdits events tool) = true) :
    ¬ Outstanding limits expectsEdits events ∧
      ¬ Edited limits expectsEdits (events ++ [GuardEvent.signal tool]) := by
  have hasks := isQuestion_asks h
  have hedits := tally_edits_eq_zero.mp hasks.right.right.left
  constructor
  · intro houtstanding
    have hawaiting := awaiting_iff.mpr houtstanding
    rw [hasks.right.right.right.left] at hawaiting
    cases hawaiting
  · intro hedited
    rcases edited_snoc.mp hedited with hbefore | hlast
    · exact edits_eq_zero_iff.mp hedits.left hbefore
    · exact hedits.right hlast.left

/-!
## No silence for ever
-/

/-- Before its question, a guard that saw no edit is below its bound. -/
theorem toolCalls_lt (hpositive : Positive limits)
    (hedits : (guardAfter limits true events).edits = 0)
    (hawaiting : (guardAfter limits true events).awaitingWorkspaceEvidence = false) :
    (guardAfter limits true events).toolCalls < limits.maxToolCallsWithoutEdit := by
  induction events using List.reverseRecOn with
  | nil => exact hpositive.noEdit
  | append_singleton events event ih =>
      rw [guardAfter_snoc] at hedits hawaiting ⊢
      cases event with
      | signal tool =>
          have hobserved := ProgressGuard.observeSignal_observed limits true
            (guardAfter limits true events) tool
          change ((guardAfter limits true events).observeSignal limits true tool).1.edits = 0
            at hedits
          change ((guardAfter limits true events).observeSignal limits true
            tool).1.awaitingWorkspaceEvidence = false at hawaiting
          show ((guardAfter limits true events).observeSignal limits true tool).1.toolCalls < _
          generalize (guardAfter limits true events).observeSignal limits true tool = outcome
            at hobserved hedits hawaiting ⊢
          cases hobserved with
          | aborted _ hcalls hsame hwaits =>
              exact hcalls ▸ ih (hsame.symm.trans hedits) (hwaits.symm.trans hawaiting)
          | asked _ _ => cases hawaiting
          | counted _ hasks =>
              exact tally_toolCalls_lt (ih (tally_edits_eq_zero.mp hedits).left hawaiting)
                hedits hawaiting hasks
      | noteWorkspaceMutation => cases hedits
      | rearmNoEditBound => exact hpositive.noEdit

/-- What a guard has counted over a silent window of calls that edit nothing. -/
structure Windowed (limits : ProgressGuardLimits) (guard : ProgressGuard) (length : Nat) :
    Prop where
  edits : guard.edits = 0
  awaiting : guard.awaitingWorkspaceEvidence = false
  early : guard.toolCalls < limits.maxToolCallsWithoutEdit
  spent : length ≤ guard.toolCalls * limits.nonActionCap + guard.consecutiveNonActionCalls
  streak : 0 < length -> guard.consecutiveNonActionCalls < limits.nonActionCap

theorem Windowed.tally {length : Nat} (h : Windowed limits guard length)
    (hpositive : Positive limits) (hedit : tool.isFileEdit = false)
    (hquiet : ¬ guard.Aborts limits tool) (hsilent : ¬ guard.Asks limits true tool) :
    Windowed limits (guard.tally tool) (length + 1) := by
  have hedits := tally_edits_eq_zero.mpr ⟨h.edits, ne_true_of_eq_false hedit⟩
  have hearly := tally_toolCalls_lt h.early hedits h.awaiting hsilent
  cases hnonAction : tool.isNonAction with
  | true =>
      have hstreak : ¬ limits.nonActionCap ≤ (guard.tally tool).consecutiveNonActionCalls := by
        intro hcap
        exact hquiet (Or.inr (Or.inr (Or.inr ⟨hnonAction, hcap⟩)))
      refine ⟨hedits, h.awaiting, hearly, ?_, fun _ => Nat.lt_of_not_le hstreak⟩
      rw [ProgressGuard.tally_of_nonAction hnonAction]
      exact Nat.succ_le_succ h.spent
  | false =>
      rw [ProgressGuard.tally_of_action hnonAction] at hedits hearly ⊢
      refine ⟨hedits, h.awaiting, hearly, ?_, fun _ => hpositive.nonAction⟩
      have hstart := h.spent
      show length + 1 ≤ (guard.toolCalls + 1) * limits.nonActionCap + 0
      rw [Nat.succ_mul]
      by_cases hlength : 0 < length
      · have := h.streak hlength
        omega
      · have := hpositive.nonAction
        omega

/-- A window of that many calls without an edit does not pass in silence. -/
theorem window_speaks (hpositive : Positive limits)
    (hedited : ¬ Edited limits true events) (hidle : ¬ Outstanding limits true events)
    (calls : List ToolSignal) (hcalls : forall tool, tool ∈ calls -> tool.isFileEdit = false)
    (hlength : calls.length = limits.maxToolCallsWithoutEdit * limits.nonActionCap) :
    exists earlier tool later, calls = earlier ++ tool :: later ∧
      (verdictOn limits true (events ++ earlier.map GuardEvent.signal) tool).isSome = true := by
  by_contra hsilent
  have hwindowed : Windowed limits
      (guardAfter limits true (events ++ calls.map GuardEvent.signal)) calls.length := by
    clear hlength
    induction calls using List.reverseRecOn with
    | nil =>
        have hedits := edits_eq_zero_iff.mpr hedited
        have hawaiting := eq_false_of_ne_true (fun h => hidle (awaiting_iff.mp h))
        rw [List.map_nil, List.append_nil]
        exact ⟨hedits, hawaiting, toolCalls_lt hpositive hedits hawaiting, Nat.zero_le _,
          fun h => absurd h (Nat.lt_irrefl 0)⟩
    | append_singleton calls tool ih =>
        have hbefore := ih (fun other hother => hcalls other (List.mem_append_left _ hother))
          (by
            intro h
            rcases h with ⟨earlier, other, later, hsplit, hverdict⟩
            exact hsilent ⟨earlier, other, later ++ [tool], by simp [hsplit], hverdict⟩)
        have hverdict : ¬ (verdictOn limits true (events ++ calls.map GuardEvent.signal)
            tool).isSome = true := by
          intro h
          exact hsilent ⟨calls, tool, [], rfl, h⟩
        rw [List.map_append, ← List.append_assoc, List.map_singleton, guardAfter_snoc,
          List.length_append]
        unfold verdictOn at hverdict
        show Windowed limits (ProgressGuard.observeSignal limits true _ tool).1 _
        have hobserved := ProgressGuard.observeSignal_observed limits true
          (guardAfter limits true (events ++ calls.map GuardEvent.signal)) tool
        generalize ProgressGuard.observeSignal limits true _ tool = outcome
          at hobserved hverdict ⊢
        cases hobserved with
        | aborted _ _ _ _ => exact absurd rfl hverdict
        | asked _ _ => exact absurd rfl hverdict
        | counted hquiet hasks =>
            exact hbefore.tally hpositive (hcalls tool (by simp)) hquiet hasks
  have hpos : 0 < calls.length := by
    rw [hlength]
    exact Nat.mul_pos hpositive.noEdit hpositive.nonAction
  have hearly := Nat.mul_le_mul_right limits.nonActionCap (Nat.succ_le_of_lt hwindowed.early)
  have hspent := hwindowed.spent
  have hstreak := hwindowed.streak hpos
  rw [Nat.succ_mul] at hearly
  omega

/-!
## Overrides only loosen
-/

/-- A call passes in silence when it neither aborts nor asks, and is then counted. -/
theorem silent_iff (guard : ProgressGuard) (tool : ToolSignal) :
    (guard.observeSignal limits expectsEdits tool).2.isNone = true <->
      ¬ guard.Aborts limits tool ∧ ¬ guard.Asks limits expectsEdits tool := by
  have hobserved := ProgressGuard.observeSignal_observed limits expectsEdits guard tool
  generalize guard.observeSignal limits expectsEdits tool = outcome at hobserved ⊢
  cases hobserved with
  | aborted haborts _ _ _ => exact iff_of_false Bool.false_ne_true (fun h => h.left haborts)
  | asked _ hasks => exact iff_of_false Bool.false_ne_true (fun h => h.right hasks)
  | counted hquiet hasks => exact iff_of_true rfl ⟨hquiet, hasks⟩

theorem observeSignal_of_silent
    (h : (guard.observeSignal limits expectsEdits tool).2.isNone = true) :
    (guard.observeSignal limits expectsEdits tool).1 = guard.tally tool := by
  have hobserved := ProgressGuard.observeSignal_observed limits expectsEdits guard tool
  generalize guard.observeSignal limits expectsEdits tool = outcome at hobserved h ⊢
  cases hobserved with
  | aborted _ _ _ _ => cases h
  | asked _ _ => cases h
  | counted _ _ => rfl

/-- Every bound of the one is within the other's. -/
structure Looser (base limits : ProgressGuardLimits) : Prop where
  noEdit : base.maxToolCallsWithoutEdit ≤ limits.maxToolCallsWithoutEdit
  errors : base.maxConsecutiveErrors ≤ limits.maxConsecutiveErrors
  web : base.webCap ≤ limits.webCap
  mcp : base.mcpCap ≤ limits.mcpCap
  nonAction : base.nonActionCap ≤ limits.nonActionCap

theorem le_loosen (base : Nat) (override : Option Nat) : base ≤ loosen base override := by
  cases override with
  | none => exact Nat.le_refl base
  | some value => exact Nat.le_max_left base value

theorem mergeGuardLimits_looser (base : ProgressGuardLimits)
    (overrides : Option GuardLimitOverrides) : Looser base (mergeGuardLimits base overrides) := by
  cases overrides with
  | none => exact ⟨Nat.le_refl _, Nat.le_refl _, Nat.le_refl _, Nat.le_refl _, Nat.le_refl _⟩
  | some overrides =>
      exact ⟨le_loosen _ _, le_loosen _ _, le_loosen _ _, le_loosen _ _, le_loosen _ _⟩

theorem Looser.silent {base : ProgressGuardLimits} (hlooser : Looser base limits)
    (h : (guard.observeSignal base expectsEdits tool).2.isNone = true) :
    (guard.observeSignal limits expectsEdits tool).2.isNone = true := by
  rcases (silent_iff guard tool).mp h with ⟨hquiet, hasks⟩
  apply (silent_iff guard tool).mpr
  constructor
  · intro haborts
    apply hquiet
    rcases haborts with herrors | ⟨hweb, hbound⟩ | ⟨hmcp, hbound⟩ | ⟨hnonAction, hbound⟩
    · exact Or.inl (hlooser.errors.trans herrors)
    · exact Or.inr (Or.inl ⟨hweb, hlooser.web.trans hbound⟩)
    · exact Or.inr (Or.inr (Or.inl ⟨hmcp, hlooser.mcp.trans hbound⟩))
    · exact Or.inr (Or.inr (Or.inr ⟨hnonAction, hlooser.nonAction.trans hbound⟩))
  · intro hask
    rcases hask with ⟨haction, hexpects, hedits, hawaiting, hbound⟩
    exact hasks ⟨haction, hexpects, hedits, hawaiting, hlooser.noEdit.trans hbound⟩

/-- As long as the guard of the smaller limits is silent, the two guards are one. -/
theorem silent_of_looser {base : ProgressGuardLimits} (hlooser : Looser base limits)
    (h : Silent base expectsEdits events) :
    guardAfter limits expectsEdits events = guardAfter base expectsEdits events ∧
      Silent limits expectsEdits events := by
  induction events using List.reverseRecOn with
  | nil =>
      apply And.intro rfl
      intro before tool later hsplit
      cases before <;> cases hsplit
  | append_singleton events event ih =>
      rcases everyVerdict_snoc h with ⟨hbefore, hlast⟩
      rcases ih hbefore with ⟨hsame, hsilent⟩
      have hverdicts : forall tool, event = GuardEvent.signal tool ->
          (verdictOn limits expectsEdits events tool).isNone = true := by
        intro tool hevent
        unfold verdictOn
        rw [hsame]
        exact hlooser.silent (hlast tool hevent)
      apply And.intro _ (everyVerdict_of_snoc hsilent hverdicts)
      rw [guardAfter_snoc, guardAfter_snoc]
      cases event with
      | signal tool =>
          have hlimits := observeSignal_of_silent (hverdicts tool rfl)
          have hbase := observeSignal_of_silent (hlast tool rfl)
          exact hlimits.trans ((congrArg (fun guard => guard.tally tool) hsame).trans hbase.symm)
      | noteWorkspaceMutation => exact congrArg ProgressGuard.noteWorkspaceMutation hsame
      | rearmNoEditBound => exact congrArg ProgressGuard.rearmNoEditBound hsame

end Run

/-!
## The law
-/

/-- Until its first abort the guard aborts exactly at a streak of one of its bounds; a run
without an edit gets a verdict within a window of `N * X` calls; a question is asked once until
it is answered, and never after an edit; and overrides make no guard speak earlier. -/
theorem progressGuard_law (limits : ProgressGuardLimits) (hpositive : Positive limits) :
    (forall expectsEdits events tool, Unaborted limits expectsEdits events ->
      (isAbort (verdictOn limits expectsEdits events tool) = true <->
        limits.maxConsecutiveErrors ≤ trailing ToolSignal.isError (callsOf events ++ [tool]) ∨
          limits.webCap ≤ trailing ToolSignal.isWeb (callsOf events ++ [tool]) ∨
          limits.mcpCap ≤ trailing ToolSignal.isMcp (callsOf events ++ [tool]) ∨
          limits.nonActionCap ≤ trailing ToolSignal.isNonAction (callsOf events ++ [tool]))) ∧
    (forall events calls, ¬ Edited limits true events -> ¬ Outstanding limits true events ->
      (forall tool, tool ∈ calls -> tool.isFileEdit = false) ->
      calls.length = limits.maxToolCallsWithoutEdit * limits.nonActionCap ->
      exists earlier tool later, calls = earlier ++ tool :: later ∧
        (verdictOn limits true (events ++ earlier.map GuardEvent.signal) tool).isSome = true) ∧
    (forall expectsEdits events tool,
      isQuestion (verdictOn limits expectsEdits events tool) = true ->
      ¬ Outstanding limits expectsEdits events ∧
        ¬ Edited limits expectsEdits (events ++ [GuardEvent.signal tool])) ∧
    (forall overrides expectsEdits events, Silent limits expectsEdits events ->
      Silent (mergeGuardLimits limits overrides) expectsEdits events) := by
  constructor
  · intro expectsEdits events tool hunaborted
    exact isAbort_iff_trailing hpositive hunaborted tool
  constructor
  · intro events calls hedited hidle hcalls hlength
    exact window_speaks hpositive hedited hidle calls hcalls hlength
  constructor
  · intro expectsEdits events tool hquestion
    exact question_free hquestion
  · intro overrides expectsEdits events hsilent
    exact (silent_of_looser (mergeGuardLimits_looser limits overrides) hsilent).right

def shellCall : ToolSignal := { name := "bash", isError := false }

def editCall : ToolSignal := { name := "edit", isError := false }

def readCall : ToolSignal := { name := "read", isError := false }

/-- Two calls without an edit, two calls that only look. -/
def pairedLimits : ProgressGuardLimits :=
  { maxToolCallsWithoutEdit := 2
    maxConsecutiveErrors := 5
    maxConsecutiveNonActionCalls := some 2 }

theorem pairedLimits_positive : Positive pairedLimits := by
  constructor <;> decide

/-- The second of two shell calls raises the question, which is answered. -/
def answered : List GuardEvent :=
  [.signal shellCall, .signal shellCall, .rearmNoEditBound]

theorem everyVerdict_signal {limits : ProgressGuardLimits} {expectsEdits : Bool}
    {fits : Option ProgressVerdict -> Bool} {events : List GuardEvent} {tool : ToolSignal}
    (h : EveryVerdict limits expectsEdits fits events)
    (hverdict : fits (verdictOn limits expectsEdits events tool) = true) :
    EveryVerdict limits expectsEdits fits (events ++ [GuardEvent.signal tool]) := by
  apply everyVerdict_of_snoc h
  intro tool' heq
  cases heq
  exact hverdict

/-- After the answer two lookups abort the run, and two lookups between shell calls get a
verdict. -/
theorem progressGuard_law_rearmed :
    Positive pairedLimits ∧
      isAbort (verdictOn pairedLimits true (answered ++ [.signal readCall]) readCall) = true ∧
      (exists earlier tool later,
        [shellCall, readCall, shellCall, readCall] = earlier ++ tool :: later ∧
          (verdictOn pairedLimits true (answered ++ earlier.map GuardEvent.signal)
            tool).isSome = true) ∧
      ¬ Outstanding pairedLimits true [.signal shellCall] ∧
      Silent (mergeGuardLimits pairedLimits (some { maxConsecutiveErrors := some 9 })) true
        [.signal shellCall] := by
  have hlaw := progressGuard_law pairedLimits pairedLimits_positive
  have hstart (fits : Option ProgressVerdict -> Bool) :
      EveryVerdict pairedLimits true fits [] := by
    intro before tool later hsplit
    simp at hsplit
  have hasked : Unaborted pairedLimits true [.signal shellCall, .signal shellCall] :=
    everyVerdict_signal (everyVerdict_signal (hstart _) (by decide +kernel)) (by decide +kernel)
  have hanswered : Unaborted pairedLimits true answered := by
    apply @everyVerdict_of_snoc _ _ _ _ GuardEvent.rearmNoEditBound hasked
    intro tool heq
    cases heq
  refine ⟨pairedLimits_positive, ?_, ?_, ?_, ?_⟩
  · have hlooked : Unaborted pairedLimits true (answered ++ [.signal readCall]) :=
      everyVerdict_signal hanswered (by decide +kernel)
    exact (hlaw.left true _ readCall hlooked).mpr (by decide +kernel)
  · apply hlaw.right.left answered
    · exact edits_eq_zero_iff.mp (by decide +kernel)
    · exact mt awaiting_iff.mpr (by decide +kernel)
    · decide +kernel
    · rfl
  · exact (hlaw.right.right.left true _ shellCall (by decide +kernel)).left
  · apply hlaw.right.right.right
    exact @everyVerdict_signal _ _ _ [] shellCall (hstart _) (by decide +kernel)

/-- One call without an edit, one call that only looks. -/
def tightLimits : ProgressGuardLimits :=
  { maxToolCallsWithoutEdit := 1
    maxConsecutiveErrors := 5
    maxConsecutiveNonActionCalls := some 1 }

theorem tightLimits_positive : Positive tightLimits := by
  constructor <;> decide

/-- A question raised by a shell call, an edit before its answer, and the answer. -/
def editedBeforeAnswer : List GuardEvent :=
  [.signal shellCall, .signal editCall, .rearmNoEditBound]

/-- An edit before a re-arm takes the no-edit bound away for good. -/
theorem not_progressGuard_law :
    ¬ (forall limits before calls, Positive limits ->
      (before = [] ∨ exists earlier, before = earlier ++ [GuardEvent.rearmNoEditBound]) ->
      ¬ Outstanding limits true before ->
      (forall tool, tool ∈ calls -> tool.isFileEdit = false) ->
      calls.length = limits.maxToolCallsWithoutEdit * limits.nonActionCap ->
      exists earlier tool later, calls = earlier ++ tool :: later ∧
        (verdictOn limits true (before ++ earlier.map GuardEvent.signal) tool).isSome = true) := by
  intro h
  have hspeaks := h tightLimits editedBeforeAnswer [shellCall] tightLimits_positive
    (Or.inr ⟨[.signal shellCall, .signal editCall], rfl⟩)
    (mt awaiting_iff.mpr Bool.false_ne_true)
    (by
      intro tool htool
      rw [List.mem_singleton.mp htool]
      decide +kernel)
    rfl
  rcases hspeaks with ⟨earlier, tool, later, hcalls, hverdict⟩
  have hsilent : (verdictOn tightLimits true editedBeforeAnswer shellCall).isSome = false := by
    decide +kernel
  cases earlier with
  | nil =>
      rw [← List.head_eq_of_cons_eq hcalls] at hverdict
      rw [List.map_nil, List.append_nil, hsilent] at hverdict
      cases hverdict
  | cons first rest =>
      have hrest := List.tail_eq_of_cons_eq hcalls
      cases rest <;> cases hrest

end Harness
end CatFactory
