import CatFactory.Foundation.KeyedFold
import CatFactory.Foundation.Text
import Mathlib.Algebra.Order.Ring.Rat
import Mathlib.Algebra.BigOperators.Group.List.Basic
import Mathlib.Tactic.Ring

/-!
# Rolling up model calls

The store aggregates a run's calls by agent kind, phase, provider and model.
Each cell is priced while its model is known, and every coarser view folds the
same cells: counts add, extremes take the larger, and a cost that is missing
leaves the sum missing.
-/

namespace CatFactory
namespace Spend

open Foundation

structure LlmCallRollupTotals where
  calls : Rat
  promptTokens : Rat
  cacheReadTokens : Rat
  cacheWriteTokens : Rat
  completionTokens : Rat
  peakCompletionTokens : Rat
  maxOutputTokens : Option Rat
  truncatedCalls : Rat
  upstreamMs : Rat
  overheadMs : Rat
  errors : Rat
  warnings : Rat
  carryCostTokens : Rat
  costEstimate : Option Rat
deriving DecidableEq

structure LlmRollupCell extends LlmCallRollupTotals where
  agentKind : String
  phase : String
deriving DecidableEq

structure LlmCallMetricSummary extends LlmRollupCell where
  provider : String
  model : String
deriving DecidableEq

structure LlmKindRollup extends LlmCallRollupTotals where
  agentKind : String
deriving DecidableEq

structure LlmPhaseRollup extends LlmCallRollupTotals where
  phase : String
deriving DecidableEq

/-- What a fold starts from; its cost is no cost, not a missing one. -/
def EMPTY : LlmCallRollupTotals :=
  { calls := 0
    promptTokens := 0
    cacheReadTokens := 0
    cacheWriteTokens := 0
    completionTokens := 0
    peakCompletionTokens := 0
    maxOutputTokens := none
    truncatedCalls := 0
    upstreamMs := 0
    overheadMs := 0
    errors := 0
    warnings := 0
    carryCostTokens := 0
    costEstimate := some 0 }

/-- A missing ceiling loses to a known one. -/
def maxNullable : Option Rat -> Option Rat -> Option Rat
  | none, b => b
  | some a, none => some a
  | some a, some b => some (max a b)

/-- A missing cost leaves the sum missing. -/
def addCost : Option Rat -> Option Rat -> Option Rat
  | none, _ => none
  | some _, none => none
  | some a, some b => some (a + b)

def merge (a b : LlmCallRollupTotals) : LlmCallRollupTotals :=
  { calls := a.calls + b.calls
    promptTokens := a.promptTokens + b.promptTokens
    cacheReadTokens := a.cacheReadTokens + b.cacheReadTokens
    cacheWriteTokens := a.cacheWriteTokens + b.cacheWriteTokens
    completionTokens := a.completionTokens + b.completionTokens
    peakCompletionTokens := max a.peakCompletionTokens b.peakCompletionTokens
    maxOutputTokens := maxNullable a.maxOutputTokens b.maxOutputTokens
    truncatedCalls := a.truncatedCalls + b.truncatedCalls
    upstreamMs := a.upstreamMs + b.upstreamMs
    overheadMs := a.overheadMs + b.overheadMs
    errors := a.errors + b.errors
    warnings := a.warnings + b.warnings
    carryCostTokens := a.carryCostTokens + b.carryCostTokens
    costEstimate := addCost a.costEstimate b.costEstimate }

/-!
## Pricing
-/

structure LlmTokenRates where
  inputPerMillion : Rat
  cacheReadPerMillion : Rat
  cacheWritePerMillion : Rat
  outputPerMillion : Rat
deriving DecidableEq

structure InputTokenClassCounts where
  promptTokens : Rat
  cacheReadTokens : Rat
  cacheWriteTokens : Rat
deriving DecidableEq

structure LlmTokenClassCounts extends InputTokenClassCounts where
  completionTokens : Rat
deriving DecidableEq

def costOfTokenClasses (rates : LlmTokenRates) (tokens : LlmTokenClassCounts) : Rat :=
  tokens.promptTokens / 1000000 * rates.inputPerMillion +
    tokens.cacheReadTokens / 1000000 * rates.cacheReadPerMillion +
    tokens.cacheWriteTokens / 1000000 * rates.cacheWritePerMillion +
    tokens.completionTokens / 1000000 * rates.outputPerMillion

/-- The rates of a model, absent where the deployment cannot price it. -/
def LlmRateResolver : Type :=
  String -> String -> Option LlmTokenRates

def LlmCallRollupTotals.tokenClasses (totals : LlmCallRollupTotals) : LlmTokenClassCounts :=
  { promptTokens := totals.promptTokens
    cacheReadTokens := totals.cacheReadTokens
    cacheWriteTokens := totals.cacheWriteTokens
    completionTokens := totals.completionTokens }

def ratesOfCell (rates : Option LlmRateResolver) (cell : LlmCallMetricSummary) :
    Option LlmTokenRates :=
  rates.bind fun resolve => resolve cell.provider cell.model

def costOfCell (rates : Option LlmRateResolver) (cell : LlmCallMetricSummary) : Option Rat :=
  (ratesOfCell rates cell).map fun resolved => costOfTokenClasses resolved cell.tokenClasses

/-!
## The folds
-/

/-- A cell's totals, priced. -/
def pricedTotals (rates : Option LlmRateResolver) (cell : LlmCallMetricSummary) :
    LlmCallRollupTotals :=
  { merge EMPTY cell.toLlmCallRollupTotals with costEstimate := costOfCell rates cell }

def priced (rates : Option LlmRateResolver) (cell : LlmCallMetricSummary) : LlmRollupCell :=
  { pricedTotals rates cell with
    agentKind := cell.agentKind
    phase := cell.phase }

/-- The separator of a cell's key. -/
def NUL : Char := Char.ofNat 0

def cellKey (cell : LlmRollupCell) : String :=
  cell.agentKind ++ String.singleton NUL ++ cell.phase

def mergeCell (cell : LlmRollupCell) : Option LlmRollupCell -> LlmRollupCell
  | none => cell
  | some prev =>
      { merge prev.toLlmCallRollupTotals cell.toLlmCallRollupTotals with
        agentKind := prev.agentKind
        phase := prev.phase }

/-- Price the cells and fold their models away. -/
def priceRollupCells (cells : List LlmCallMetricSummary) (rates : Option LlmRateResolver) :
    List LlmRollupCell :=
  (foldByKey (fun cell : LlmCallMetricSummary => cellKey cell.toLlmRollupCell)
    (fun cell => mergeCell (priced rates cell)) cells).map Prod.snd

def foldRollupTotals (cells : List LlmCallRollupTotals) : LlmCallRollupTotals :=
  cells.foldl merge EMPTY

/-- A coarser view: what its rows are named after and how they carry their totals. -/
structure RollupView (row : Type) where
  keyOf : LlmRollupCell -> String
  make : String -> LlmCallRollupTotals -> row
  nameOf : row -> String
  totalsOf : row -> LlmCallRollupTotals
  nameOf_make : forall name totals, nameOf (make name totals) = name
  totalsOf_make : forall name totals, totalsOf (make name totals) = totals
  make_eta : forall r, make (nameOf r) (totalsOf r) = r
  keyOf_congr : forall cell cell' : LlmRollupCell, cell.agentKind = cell'.agentKind ->
    cell.phase = cell'.phase -> keyOf cell = keyOf cell'

/-- A cell merged into the row of its name. -/
def RollupView.step {row : Type} (view : RollupView row) (cell : LlmRollupCell)
    (prev : Option row) : row :=
  view.make (view.keyOf cell)
    (merge ((prev.map view.totalsOf).getD EMPTY) cell.toLlmCallRollupTotals)

def foldRollupsBy {row : Type} (view : RollupView row) (cells : List LlmRollupCell) : List row :=
  (foldByKey view.keyOf view.step cells).map Prod.snd

def kindView : RollupView LlmKindRollup :=
  { keyOf := LlmRollupCell.agentKind
    make := fun agentKind totals => { totals with agentKind := agentKind }
    nameOf := LlmKindRollup.agentKind
    totalsOf := LlmKindRollup.toLlmCallRollupTotals
    nameOf_make := fun _ _ => rfl
    totalsOf_make := fun _ _ => rfl
    make_eta := fun _ => rfl
    keyOf_congr := fun _ _ hkind _ => hkind }

def phaseView : RollupView LlmPhaseRollup :=
  { keyOf := LlmRollupCell.phase
    make := fun phase totals => { totals with phase := phase }
    nameOf := LlmPhaseRollup.phase
    totalsOf := LlmPhaseRollup.toLlmCallRollupTotals
    nameOf_make := fun _ _ => rfl
    totalsOf_make := fun _ _ => rfl
    make_eta := fun _ => rfl
    keyOf_congr := fun _ _ _ hphase => hphase }

def foldRollupsByAgentKind (cells : List LlmRollupCell) : List LlmKindRollup :=
  foldRollupsBy kindView cells

def foldRollupsByPhase (cells : List LlmRollupCell) : List LlmPhaseRollup :=
  foldRollupsBy phaseView cells

/-!
## The phase of a call

Every label is normalised before it is stored, so a cell's phase has no
separator in it.
-/

def UNATTRIBUTED_CALL_PHASE : String := ""

def MAX_PHASE_CHARS : Nat := 32

/-- `[a-z0-9-]` -/
def isPhaseChar (c : Char) : Bool :=
  ('a' ≤ c && c ≤ 'z') || ('0' ≤ c && c ≤ '9') || c = '-'

/-- `raw` is absent when it is not a string. -/
def normalizeCallPhase (raw : Option String) : String :=
  match raw with
  | none => UNATTRIBUTED_CALL_PHASE
  | some raw =>
      let trimmed := toLowerCase (trim raw)
      if trimmed = "" ∨ MAX_PHASE_CHARS < (trimmed.toList.map utf16Units).sum then
        UNATTRIBUTED_CALL_PHASE
      else if trimmed.toList.all isPhaseChar then trimmed
      else UNATTRIBUTED_CALL_PHASE

theorem normalizeCallPhase_plain (raw : Option String) :
    NUL ∉ (normalizeCallPhase raw).toList := by
  unfold normalizeCallPhase
  cases raw with
  | none => simp [UNATTRIBUTED_CALL_PHASE]
  | some raw =>
      simp only
      split
      · simp [UNATTRIBUTED_CALL_PHASE]
      · split
        · rename_i hall
          intro hmem
          have hchar := List.all_eq_true.mp hall NUL hmem
          cases hchar
        · simp [UNATTRIBUTED_CALL_PHASE]

/-!
## The laws of a merge
-/

theorem maxNullable_eq (a b : Option Rat) : maxNullable a b = Option.merge max a b := by
  cases a <;> cases b <;> rfl

theorem maxNullable_comm (a b : Option Rat) : maxNullable a b = maxNullable b a := by
  rw [maxNullable_eq, maxNullable_eq]
  exact Std.Commutative.comm a b

theorem maxNullable_assoc (a b c : Option Rat) :
    maxNullable (maxNullable a b) c = maxNullable a (maxNullable b c) := by
  simp only [maxNullable_eq]
  exact Std.Associative.assoc a b c

theorem addCost_eq (a b : Option Rat) : addCost a b = Option.map₂ (fun x y => x + y) a b := by
  cases a <;> cases b <;> rfl

theorem addCost_comm (a b : Option Rat) : addCost a b = addCost b a := by
  rw [addCost_eq, addCost_eq]
  exact Option.map₂_comm add_comm

theorem addCost_assoc (a b c : Option Rat) :
    addCost (addCost a b) c = addCost a (addCost b c) := by
  simp only [addCost_eq]
  exact Option.map₂_assoc add_assoc

instance : Std.Commutative merge where
  comm a b := by
    simp only [merge, maxNullable_comm a.maxOutputTokens, addCost_comm a.costEstimate, add_comm,
      max_comm]

instance : Std.Associative merge where
  assoc a b c := by
    simp only [merge, maxNullable_assoc, addCost_assoc, add_assoc, max_assoc]

theorem merge_EMPTY : merge EMPTY EMPTY = EMPTY := by
  simp [merge, EMPTY, maxNullable, addCost]

/-- A priced cell already carries the fold's floor. -/
theorem merge_EMPTY_pricedTotals (rates : Option LlmRateResolver) (cell : LlmCallMetricSummary) :
    merge EMPTY (pricedTotals rates cell) = pricedTotals rates cell := by
  unfold pricedTotals
  cases costOfCell rates cell with
  | none => simp [merge, EMPTY, maxNullable, addCost]
  | some cost => simp [merge, EMPTY, maxNullable, addCost]

end Spend
end CatFactory
