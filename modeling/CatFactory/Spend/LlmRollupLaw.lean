import CatFactory.Foundation.Framing
import CatFactory.Spend.LlmRollup
import Mathlib.Order.Bounds.Basic
import Mathlib.Order.WithBot

/-!
# The rollups agree

Every view of a run's calls is the same fold, cut by another key.  A row is the
plain sum of the cells it covers, whichever way they were folded and in whatever
order they came.
-/

namespace CatFactory
namespace Spend

open Foundation

/-!
## The greatest of a list
-/

section Greatest

variable {number : Type} [LinearOrder number]

theorem le_foldl_max (xs : List number) (a : number) : a ≤ xs.foldl max a := by
  induction xs generalizing a with
  | nil => exact le_refl a
  | cons x xs ih => exact le_trans (le_max_left a x) (ih (max a x))

theorem mem_le_foldl_max {xs : List number} {x : number} (h : x ∈ xs) (a : number) :
    x ≤ xs.foldl max a := by
  induction xs generalizing a with
  | nil => cases h
  | cons y xs ih =>
      cases h with
      | head => exact le_trans (le_max_right a x) (le_foldl_max xs (max a x))
      | tail _ h => exact ih h (max a y)

theorem foldl_max_mem (xs : List number) (a : number) : xs.foldl max a ∈ a :: xs := by
  induction xs generalizing a with
  | nil => exact List.mem_singleton_self a
  | cons x xs ih =>
      rw [List.foldl_cons]
      rcases List.mem_cons.mp (ih (max a x)) with heq | hin
      · rw [heq]
        rcases max_choice a x with hmax | hmax
        · rw [hmax]
          exact List.mem_cons_self
        · rw [hmax]
          exact List.mem_cons_of_mem a List.mem_cons_self
      · exact List.mem_cons_of_mem a (List.mem_cons_of_mem x hin)

/-- Over a floor that none of them is below, the fold is the greatest. -/
theorem isGreatest_foldl_max {xs : List number} {a : number} (hne : xs ≠ [])
    (hfloor : forall x, x ∈ xs -> a ≤ x) : IsGreatest { x | x ∈ xs } (xs.foldl max a) := by
  constructor
  · rcases List.exists_mem_of_ne_nil xs hne with ⟨y, hy⟩
    rcases List.mem_cons.mp (foldl_max_mem xs a) with heq | hmem
    · have hya : y ≤ a := by
        rw [← heq]
        exact mem_le_foldl_max hy a
      have hsame : a = y := le_antisymm (hfloor y hy) hya
      show xs.foldl max a ∈ xs
      rw [heq, hsame]
      exact hy
    · exact hmem
  · intro x hx
    exact mem_le_foldl_max hx a

end Greatest

/-!
## The columns of a total
-/

/-- A missing ceiling is below every known one. -/
def ceilingOf (ceiling : Option Rat) : WithBot Rat :=
  ceiling

/-- The folded totals of the cells. -/
def totalOfCells (rates : Option LlmRateResolver) (cells : List LlmCallMetricSummary) :
    LlmCallRollupTotals :=
  totalOf merge EMPTY (cells.map (pricedTotals rates))

/--
A row is the plain sum of the cells it covers: counts add, extremes are the
greatest, with a missing ceiling below every known one, and the cost is the sum
of the cells' costs unless one of them has no rates.
-/
structure PlainColumns (rates : Option LlmRateResolver) (cells : List LlmCallMetricSummary)
    (row : LlmCallRollupTotals) : Prop where
  calls : row.calls = (cells.map fun cell => cell.calls).sum
  promptTokens : row.promptTokens = (cells.map fun cell => cell.promptTokens).sum
  cacheReadTokens : row.cacheReadTokens = (cells.map fun cell => cell.cacheReadTokens).sum
  cacheWriteTokens : row.cacheWriteTokens = (cells.map fun cell => cell.cacheWriteTokens).sum
  completionTokens : row.completionTokens = (cells.map fun cell => cell.completionTokens).sum
  peakCompletionTokens : cells ≠ [] ->
    IsGreatest { peak | exists cell, cell ∈ cells ∧ cell.peakCompletionTokens = peak }
      row.peakCompletionTokens
  maxOutputTokens : cells ≠ [] ->
    IsGreatest { ceiling | exists cell, cell ∈ cells ∧
      ceilingOf cell.maxOutputTokens = ceiling } (ceilingOf row.maxOutputTokens)
  truncatedCalls : row.truncatedCalls = (cells.map fun cell => cell.truncatedCalls).sum
  upstreamMs : row.upstreamMs = (cells.map fun cell => cell.upstreamMs).sum
  overheadMs : row.overheadMs = (cells.map fun cell => cell.overheadMs).sum
  errors : row.errors = (cells.map fun cell => cell.errors).sum
  warnings : row.warnings = (cells.map fun cell => cell.warnings).sum
  carryCostTokens : row.carryCostTokens = (cells.map fun cell => cell.carryCostTokens).sum
  unpriced : row.costEstimate = none <->
    exists cell, cell ∈ cells ∧ ratesOfCell rates cell = none
  costEstimate : forall cost, row.costEstimate = some cost ->
    cost = (cells.map fun cell => (costOfCell rates cell).getD 0).sum

section Columns

variable {rates : Option LlmRateResolver} {cells : List LlmCallMetricSummary}

/-- A column that adds is the sum of the cells' column. -/
theorem sum_column (col : LlmCallRollupTotals -> Rat)
    (hmerge : forall a b, col (merge a b) = col a + col b) (hempty : col EMPTY = 0)
    (hpriced : forall cell, col (pricedTotals rates cell) = col cell.toLlmCallRollupTotals) :
    col (totalOfCells rates cells) =
      (cells.map fun cell => col cell.toLlmCallRollupTotals).sum := by
  rw [totalOfCells, column_totalOf col hmerge, hempty, List.map_map, ← List.sum_eq_foldl]
  congr 1
  apply List.map_congr_left
  intro cell _
  exact hpriced cell

theorem peak_column (hne : cells ≠ []) (hpeak : forall cell, cell ∈ cells ->
      0 ≤ cell.peakCompletionTokens) :
    IsGreatest { peak | exists cell, cell ∈ cells ∧ cell.peakCompletionTokens = peak }
      (totalOfCells rates cells).peakCompletionTokens := by
  have hfold : (totalOfCells rates cells).peakCompletionTokens =
      (cells.map fun cell => cell.peakCompletionTokens).foldl max 0 := by
    have hcolumn := @column_totalOf _ merge EMPTY _ max LlmCallRollupTotals.peakCompletionTokens
      (fun _ _ => rfl) (cells.map (pricedTotals rates))
    rw [totalOfCells, hcolumn, List.map_map]
    congr 1
    apply List.map_congr_left
    intro cell hcell
    exact max_eq_right (hpeak cell hcell)
  have hgreatest := @isGreatest_foldl_max _ _
    (cells.map fun cell => cell.peakCompletionTokens) 0 (by simpa using hne) (by simpa using hpeak)
  rw [hfold]
  simpa using hgreatest

theorem ceilingOf_maxNullable (a b : Option Rat) :
    ceilingOf (maxNullable a b) = max (ceilingOf a) (ceilingOf b) := by
  cases a with
  | none => exact (bot_sup_eq (ceilingOf b)).symm
  | some a =>
      cases b with
      | none => exact (sup_bot_eq (ceilingOf (some a))).symm
      | some b => exact WithBot.coe_max a b

theorem ceiling_column (hne : cells ≠ []) :
    IsGreatest { ceiling | exists cell, cell ∈ cells ∧
      ceilingOf cell.maxOutputTokens = ceiling }
      (ceilingOf (totalOfCells rates cells).maxOutputTokens) := by
  have hfold : ceilingOf (totalOfCells rates cells).maxOutputTokens =
      (cells.map fun cell => ceilingOf cell.maxOutputTokens).foldl max ⊥ := by
    have hcolumn := @column_totalOf _ merge EMPTY _ max
      (fun totals => ceilingOf totals.maxOutputTokens)
      (fun a b => ceilingOf_maxNullable a.maxOutputTokens b.maxOutputTokens)
      (cells.map (pricedTotals rates))
    rw [totalOfCells, hcolumn, List.map_map]
    rfl
  have hgreatest := @isGreatest_foldl_max _ _
    (cells.map fun cell => ceilingOf cell.maxOutputTokens) ⊥ (by simpa using hne) (by simp)
  rw [hfold]
  simpa using hgreatest

/-- One missing cost, and the sum is missing. -/
theorem foldl_addCost (costs : List (Option Rat)) (sum : Option Rat) :
    (costs.foldl addCost sum = none <-> sum = none ∨ none ∈ costs) ∧
    forall total, costs.foldl addCost sum = some total ->
      total = sum.getD 0 + (costs.map fun cost => cost.getD 0).sum := by
  induction costs generalizing sum with
  | nil =>
      constructor
      · simp
      · intro total h
        have hsum : sum = some total := h
        simp [hsum]
  | cons cost costs ih =>
      rcases ih (addCost sum cost) with ⟨hnone, hsome⟩
      constructor
      · rw [List.foldl_cons, hnone]
        cases sum with
        | none => simp [addCost]
        | some sum => cases cost <;> simp [addCost]
      · intro total h
        rw [hsome total h]
        cases sum with
        | none =>
            have hmissing := hnone.mpr (Or.inl rfl)
            rw [List.foldl_cons, hmissing] at h
            cases h
        | some sum =>
            cases cost with
            | none =>
                have hmissing := hnone.mpr (Or.inl rfl)
                rw [List.foldl_cons, hmissing] at h
                cases h
            | some cost => simp [addCost, add_assoc]

theorem cost_column :
    ((totalOfCells rates cells).costEstimate = none <->
      exists cell, cell ∈ cells ∧ ratesOfCell rates cell = none) ∧
    forall cost, (totalOfCells rates cells).costEstimate = some cost ->
      cost = (cells.map fun cell => (costOfCell rates cell).getD 0).sum := by
  have hfold : (totalOfCells rates cells).costEstimate =
      (cells.map (costOfCell rates)).foldl addCost (some 0) := by
    have hcolumn := @column_totalOf _ merge EMPTY _ addCost LlmCallRollupTotals.costEstimate
      (fun _ _ => rfl) (cells.map (pricedTotals rates))
    rw [totalOfCells, hcolumn, List.map_map]
    rfl
  rcases foldl_addCost (cells.map (costOfCell rates)) (some 0) with ⟨hnone, hsome⟩
  rw [hfold]
  constructor
  · rw [hnone]
    simp [costOfCell]
  · intro cost h
    rw [hsome cost h]
    simp [Function.comp_def]

/-- The total of a list of cells has plain columns. -/
theorem plainColumns_totalOfCells (hpeak : forall cell, cell ∈ cells ->
      0 ≤ cell.peakCompletionTokens) :
    PlainColumns rates cells (totalOfCells rates cells) := by
  constructor
  · exact sum_column LlmCallRollupTotals.calls (fun _ _ => rfl) rfl (fun _ => zero_add _)
  · exact sum_column LlmCallRollupTotals.promptTokens (fun _ _ => rfl) rfl (fun _ => zero_add _)
  · exact sum_column LlmCallRollupTotals.cacheReadTokens (fun _ _ => rfl) rfl
      (fun _ => zero_add _)
  · exact sum_column LlmCallRollupTotals.cacheWriteTokens (fun _ _ => rfl) rfl
      (fun _ => zero_add _)
  · exact sum_column LlmCallRollupTotals.completionTokens (fun _ _ => rfl) rfl
      (fun _ => zero_add _)
  · intro hne
    exact peak_column hne hpeak
  · intro hne
    exact ceiling_column hne
  · exact sum_column LlmCallRollupTotals.truncatedCalls (fun _ _ => rfl) rfl (fun _ => zero_add _)
  · exact sum_column LlmCallRollupTotals.upstreamMs (fun _ _ => rfl) rfl (fun _ => zero_add _)
  · exact sum_column LlmCallRollupTotals.overheadMs (fun _ _ => rfl) rfl (fun _ => zero_add _)
  · exact sum_column LlmCallRollupTotals.errors (fun _ _ => rfl) rfl (fun _ => zero_add _)
  · exact sum_column LlmCallRollupTotals.warnings (fun _ _ => rfl) rfl (fun _ => zero_add _)
  · exact sum_column LlmCallRollupTotals.carryCostTokens (fun _ _ => rfl) rfl
      (fun _ => zero_add _)
  · exact cost_column.left
  · exact cost_column.right

end Columns

/-!
## The rows of a view
-/

theorem totalOf_snoc (xs : List LlmCallRollupTotals) (x : LlmCallRollupTotals) :
    totalOf merge EMPTY (xs ++ [x]) = merge (totalOf merge EMPTY xs) x := by
  simp [totalOf]

/-- The last of the items of a key has the key. -/
theorem last_of_key {item : Type} {keyOf : item -> String} {xs : List item} {k : String}
    (hne : xs ≠ []) (h : forall x, x ∈ xs -> keyOf x = k) :
    ((xs.getLast?).map keyOf).getD "" = k := by
  rw [List.getLast?_eq_getLast_of_ne_nil hne]
  exact h _ (List.getLast_mem hne)

/-- Buckets with the same items name their rows alike. -/
theorem last_of_perm {item : Type} {keyOf : item -> String} {xs ys : List item} {k : String}
    (hperm : xs.Perm ys) (h : forall x, x ∈ xs -> keyOf x = k) :
    ((xs.getLast?).map keyOf).getD "" = ((ys.getLast?).map keyOf).getD "" := by
  by_cases hnil : xs = []
  · rw [hnil] at hperm
    rw [hnil, List.nil_perm.mp hperm]
  · have hys : ys ≠ [] := fun heq => hnil (List.perm_nil.mp (heq ▸ hperm))
    rw [last_of_key hnil h, last_of_key hys fun y hy => h y (hperm.mem_iff.mpr hy)]

section Views

variable {row : Type} (view : RollupView row)

/-- The row of a bucket of cells; the last cell names it. -/
def viewRow (cells : List LlmRollupCell) : row :=
  view.make ((cells.getLast?.map view.keyOf).getD "")
    (totalOf merge EMPTY (cells.map LlmRollupCell.toLlmCallRollupTotals))

theorem viewRow_singleton (cell : LlmRollupCell) :
    viewRow view [cell] = view.step cell none :=
  rfl

theorem viewRow_snoc (cells : List LlmRollupCell) (cell : LlmRollupCell) (_ : cells ≠ []) :
    viewRow view (cells ++ [cell]) = view.step cell (some (viewRow view cells)) := by
  have hlast : ((cells ++ [cell]).getLast?.map view.keyOf).getD "" = view.keyOf cell := by
    simp
  rw [viewRow, hlast, List.map_append]
  show view.make _ (totalOf merge EMPTY (_ ++ [cell.toLlmCallRollupTotals])) = _
  rw [totalOf_snoc]
  simp [viewRow, RollupView.step, view.totalsOf_make]

theorem viewRow_filter {cells : List LlmRollupCell} {k : String}
    (h : exists cell, cell ∈ cells ∧ view.keyOf cell = k) :
    viewRow view (cells.filter fun cell => view.keyOf cell = k) = view.make k
      (totalOf merge EMPTY ((cells.filter fun cell => view.keyOf cell = k).map
        LlmRollupCell.toLlmCallRollupTotals)) := by
  rcases h with ⟨cell, hcell, hkey⟩
  have hmem : cell ∈ cells.filter fun cell => view.keyOf cell = k :=
    List.mem_filter.mpr ⟨hcell, by simpa using hkey⟩
  rw [viewRow, last_of_key (List.ne_nil_of_mem hmem)]
  intro x hx
  exact of_decide_eq_true (List.mem_filter.mp hx).right

/-- The entries a view's fold leaves: a name and the row made for it. -/
theorem mem_viewEntries {cells : List LlmRollupCell} {entry : String × row} :
    entry ∈ foldByKey view.keyOf view.step cells <->
      entry.2 = view.make entry.1 (totalOf merge EMPTY
        ((cells.filter fun cell => view.keyOf cell = entry.1).map
          LlmRollupCell.toLlmCallRollupTotals)) ∧
      exists cell, cell ∈ cells ∧ view.keyOf cell = entry.1 := by
  rw [mem_foldByKey_iff (viewRow_singleton view) (viewRow_snoc view)]
  constructor
  · intro h
    rw [← viewRow_filter view h.right]
    exact h
  · intro h
    rw [viewRow_filter view h.right]
    exact h

/-- A row of a view totals the cells it is named after. -/
theorem mem_foldRollupsBy {cells : List LlmRollupCell} {r : row} :
    r ∈ foldRollupsBy view cells <->
      view.totalsOf r = totalOf merge EMPTY
        ((cells.filter fun cell => view.keyOf cell = view.nameOf r).map
          LlmRollupCell.toLlmCallRollupTotals) ∧
      exists cell, cell ∈ cells ∧ view.keyOf cell = view.nameOf r := by
  unfold foldRollupsBy
  rw [List.mem_map]
  constructor
  · intro h
    rcases h with ⟨entry, hentry, heq⟩
    rcases (mem_viewEntries view).mp hentry with ⟨hrow, hexists⟩
    rw [← heq, hrow, view.nameOf_make, view.totalsOf_make]
    exact ⟨rfl, hexists⟩
  · intro h
    rcases h with ⟨htotal, hexists⟩
    exists (view.nameOf r, r)
    constructor
    · apply (mem_viewEntries view).mpr
      constructor
      · rw [← htotal, view.make_eta]
      · exact hexists
    · rfl

theorem nodup_names (cells : List LlmRollupCell) :
    ((foldRollupsBy view cells).map view.nameOf).Nodup := by
  have hkeys := @nodup_keys_foldByKey _ _ _ _ view.keyOf _ _ (viewRow_singleton view)
    (viewRow_snoc view) cells
  have hnamed : (foldRollupsBy view cells).map view.nameOf =
      (foldByKey view.keyOf view.step cells).map Prod.fst := by
    unfold foldRollupsBy
    rw [List.map_map]
    apply List.map_congr_left
    intro entry hentry
    show view.nameOf entry.2 = entry.1
    rw [((mem_viewEntries view).mp hentry).left, view.nameOf_make]
  rw [hnamed]
  exact hkeys

/-- Totalling the rows of a view is totalling the cells. -/
theorem foldRollupTotals_view (cells : List LlmRollupCell) :
    foldRollupTotals ((foldRollupsBy view cells).map view.totalsOf) =
      foldRollupTotals (cells.map LlmRollupCell.toLlmCallRollupTotals) := by
  apply totalOf_foldByKey (viewRow_singleton view) (viewRow_snoc view) merge_EMPTY
  intro k part _ _
  rw [viewRow, view.totalsOf_make]

theorem foldRollupsBy_perm {cells cells' : List LlmRollupCell} (h : cells.Perm cells') :
    (foldRollupsBy view cells).Perm (foldRollupsBy view cells') := by
  apply List.Perm.map
  apply foldByKey_perm (viewRow_singleton view) (viewRow_snoc view) h
  intro k
  have hfilter := h.filter fun cell => decide (view.keyOf cell = k)
  unfold viewRow
  congr 1
  · exact last_of_perm hfilter fun cell hcell => of_decide_eq_true (List.mem_filter.mp hcell).right
  · exact totalOf_perm (hfilter.map _)

end Views

/-!
## The priced cells
-/

/-- What a stored cell is: its phase went through `normalizeCallPhase`, its peak is a count. -/
structure StoredCell (cell : LlmCallMetricSummary) : Prop where
  phase : NUL ∉ cell.phase.toList
  peak : 0 ≤ cell.peakCompletionTokens

/-- The last separator of a key stands before the phase. -/
theorem cellKey_eq_iff {cell cell' : LlmRollupCell} (h : NUL ∉ cell.phase.toList)
    (h' : NUL ∉ cell'.phase.toList) :
    cellKey cell = cellKey cell' <->
      cell.agentKind = cell'.agentKind ∧ cell.phase = cell'.phase := by
  have hkey : forall c : LlmRollupCell,
      (cellKey c).toList = c.agentKind.toList ++ NUL :: c.phase.toList := by
    intro c
    simp [cellKey]
  constructor
  · intro heq
    have hlists := congrArg String.toList heq
    rw [hkey, hkey] at hlists
    have hphase := congrArg (unterminated NUL) hlists
    rw [unterminated_append_sep, unterminated_append_sep, unterminated_of_not_mem h,
      unterminated_of_not_mem h'] at hphase
    rw [hphase] at hlists
    exact ⟨String.toList_inj.mp (List.append_cancel_right hlists), String.toList_inj.mp hphase⟩
  · intro heq
    rw [cellKey, cellKey, heq.left, heq.right]

section Priced

variable {rates : Option LlmRateResolver} {cells : List LlmCallMetricSummary}

/-- The row of a bucket of cells; the first cell names it. -/
def cellRow (rates : Option LlmRateResolver) (cells : List LlmCallMetricSummary) :
    LlmRollupCell :=
  { totalOfCells rates cells with
    agentKind := (cells.head?.map fun cell => cell.agentKind).getD ""
    phase := (cells.head?.map fun cell => cell.phase).getD "" }

theorem cellRow_singleton (cell : LlmCallMetricSummary) :
    cellRow rates [cell] = mergeCell (priced rates cell) none := by
  have htotal : totalOfCells rates [cell] = pricedTotals rates cell :=
    merge_EMPTY_pricedTotals rates cell
  rw [cellRow, htotal]
  rfl

theorem cellRow_snoc (cells : List LlmCallMetricSummary) (cell : LlmCallMetricSummary)
    (hne : cells ≠ []) :
    cellRow rates (cells ++ [cell]) =
      mergeCell (priced rates cell) (some (cellRow rates cells)) := by
  have htotal : totalOfCells rates (cells ++ [cell]) =
      merge (totalOfCells rates cells) (pricedTotals rates cell) := by
    rw [totalOfCells, List.map_append]
    exact totalOf_snoc _ _
  cases cells with
  | nil => exact absurd rfl hne
  | cons first rest =>
      rw [cellRow, htotal]
      rfl

/-- The cells of one agent kind and phase. -/
def cellsOf (cells : List LlmCallMetricSummary) (agentKind phase : String) :
    List LlmCallMetricSummary :=
  cells.filter fun cell => cell.agentKind = agentKind ∧ cell.phase = phase

theorem mem_cellsOf {agentKind phase : String} {cell : LlmCallMetricSummary} :
    cell ∈ cellsOf cells agentKind phase <->
      cell ∈ cells ∧ cell.agentKind = agentKind ∧ cell.phase = phase := by
  simp [cellsOf]

theorem filter_cellKey (hstored : forall cell, cell ∈ cells -> StoredCell cell)
    {cell : LlmCallMetricSummary} (hcell : cell ∈ cells) :
    (cells.filter fun other =>
        cellKey other.toLlmRollupCell = cellKey cell.toLlmRollupCell) =
      cellsOf cells cell.agentKind cell.phase := by
  apply List.filter_congr
  intro other hother
  simp only [cellKey_eq_iff (hstored other hother).phase (hstored cell hcell).phase]

theorem cellRow_cellsOf {agentKind phase : String}
    (h : exists cell, cell ∈ cells ∧ cell.agentKind = agentKind ∧ cell.phase = phase) :
    cellRow rates (cellsOf cells agentKind phase) =
      { totalOfCells rates (cellsOf cells agentKind phase) with
        agentKind := agentKind
        phase := phase } := by
  rcases h with ⟨cell, hcell⟩
  have hmem : cell ∈ cellsOf cells agentKind phase := mem_cellsOf.mpr hcell
  cases hcells : cellsOf cells agentKind phase with
  | nil =>
      rw [hcells] at hmem
      cases hmem
  | cons first rest =>
      have hfirst : first ∈ cellsOf cells agentKind phase := by
        rw [hcells]
        exact List.mem_cons_self
      rcases mem_cellsOf.mp hfirst with ⟨_, hkind, hphase⟩
      rw [cellRow, ← hkind, ← hphase]
      rfl

/-- The entries the pricing leaves: a key and the row of its cells. -/
theorem mem_pricedEntries (hstored : forall cell, cell ∈ cells -> StoredCell cell)
    {entry : String × LlmRollupCell} :
    entry ∈ foldByKey (fun cell : LlmCallMetricSummary => cellKey cell.toLlmRollupCell)
        (fun cell => mergeCell (priced rates cell)) cells <->
      entry.1 = cellKey entry.2 ∧ entry.2.toLlmCallRollupTotals =
        totalOfCells rates (cellsOf cells entry.2.agentKind entry.2.phase) ∧
      exists cell, cell ∈ cells ∧ cell.agentKind = entry.2.agentKind ∧
        cell.phase = entry.2.phase := by
  rw [mem_foldByKey_iff cellRow_singleton cellRow_snoc]
  constructor
  · intro h
    rcases h with ⟨hrow, cell, hcell, hkey⟩
    rw [← hkey, filter_cellKey hstored hcell, cellRow_cellsOf ⟨cell, hcell, rfl, rfl⟩] at hrow
    rw [hrow, ← hkey]
    exact ⟨rfl, rfl, cell, hcell, rfl, rfl⟩
  · intro h
    rcases h with ⟨hkey, htotal, cell, hcell, hkind, hphase⟩
    have hcellKey : cellKey cell.toLlmRollupCell = entry.1 := by
      rw [hkey, cellKey, cellKey, hkind, hphase]
    constructor
    · rw [← hcellKey, filter_cellKey hstored hcell, cellRow_cellsOf ⟨cell, hcell, rfl, rfl⟩, hkind,
        hphase, ← htotal]
    · exact ⟨cell, hcell, hcellKey⟩

/-- A priced row totals the cells of its agent kind and phase. -/
theorem mem_priceRollupCells (hstored : forall cell, cell ∈ cells -> StoredCell cell)
    {row : LlmRollupCell} :
    row ∈ priceRollupCells cells rates <->
      row.toLlmCallRollupTotals =
        totalOfCells rates (cellsOf cells row.agentKind row.phase) ∧
      exists cell, cell ∈ cells ∧ cell.agentKind = row.agentKind ∧ cell.phase = row.phase := by
  unfold priceRollupCells
  rw [List.mem_map]
  constructor
  · intro h
    rcases h with ⟨entry, hentry, heq⟩
    rw [← heq]
    exact ((mem_pricedEntries hstored).mp hentry).right
  · intro h
    exact ⟨(cellKey row, row), (mem_pricedEntries hstored).mpr ⟨rfl, h⟩, rfl⟩

theorem nodup_priceRollupCells (hstored : forall cell, cell ∈ cells -> StoredCell cell) :
    ((priceRollupCells cells rates).map fun row => (row.agentKind, row.phase)).Nodup := by
  have hkeys := @nodup_keys_foldByKey _ _ _ _
    (fun cell : LlmCallMetricSummary => cellKey cell.toLlmRollupCell) _ _
    (@cellRow_singleton rates) cellRow_snoc cells
  have hnamed : ((priceRollupCells cells rates).map fun row => (row.agentKind, row.phase)).map
      (fun names => names.1 ++ String.singleton NUL ++ names.2) =
        (foldByKey (fun cell : LlmCallMetricSummary => cellKey cell.toLlmRollupCell)
          (fun cell => mergeCell (priced rates cell)) cells).map Prod.fst := by
    unfold priceRollupCells
    rw [List.map_map, List.map_map]
    apply List.map_congr_left
    intro entry hentry
    exact ((mem_pricedEntries hstored).mp hentry).left.symm
  rw [← hnamed] at hkeys
  exact hkeys.of_map

/-- Totalling the priced cells is totalling the cells. -/
theorem foldRollupTotals_priceRollupCells :
    foldRollupTotals ((priceRollupCells cells rates).map LlmRollupCell.toLlmCallRollupTotals) =
      totalOfCells rates cells := by
  apply totalOf_foldByKey cellRow_singleton cellRow_snoc merge_EMPTY
  intro k part _ _
  rfl

/-- The priced cells of a view's name total the cells of that name. -/
theorem total_of_view {row : Type} (view : RollupView row)
    (hstored : forall cell, cell ∈ cells -> StoredCell cell) (name : String) :
    totalOf merge EMPTY (((priceRollupCells cells rates).filter fun cell =>
        view.keyOf cell = name).map LlmRollupCell.toLlmCallRollupTotals) =
      totalOfCells rates (cells.filter fun cell => view.keyOf cell.toLlmRollupCell = name) := by
  rw [totalOfCells, ← totalOf_filter merge_EMPTY, ← totalOf_filter merge_EMPTY]
  apply totalOf_foldByKey cellRow_singleton cellRow_snoc merge_EMPTY
  intro k part hne hpart
  rcases List.exists_cons_of_ne_nil hne with ⟨first, rest, hcons⟩
  have hkeys : forall cell, cell ∈ part -> view.keyOf cell.toLlmRollupCell =
      view.keyOf (cellRow rates part) := by
    intro cell hcell
    have hfirst : first ∈ part := by
      rw [hcons]
      exact List.mem_cons_self
    have hsame := (cellKey_eq_iff (hstored cell (hpart cell hcell).left).phase
      (hstored first (hpart first hfirst).left).phase).mp
        ((hpart cell hcell).right.trans (hpart first hfirst).right.symm)
    apply view.keyOf_congr
    · rw [hcons]
      exact hsame.left
    · rw [hcons]
      exact hsame.right
  have hmap : (part.map fun cell => if decide (view.keyOf cell.toLlmRollupCell = name) = true
      then pricedTotals rates cell else EMPTY) =
      part.map fun cell => if decide (view.keyOf (cellRow rates part) = name) = true
        then pricedTotals rates cell else EMPTY := by
    apply List.map_congr_left
    intro cell hcell
    rw [hkeys cell hcell]
  rw [hmap]
  by_cases hname : view.keyOf (cellRow rates part) = name
  · simp only [hname, decide_true, if_true]
    rfl
  · simp only [hname, decide_false, Bool.false_eq_true, if_false]
    have hnone := totalOf_filter merge_EMPTY (fun _ => false) (pricedTotals rates) part
    simp only [Bool.false_eq_true, if_false, List.filter_false, List.map_nil] at hnone
    exact hnone.symm

/-- The priced rows depend on the cells alone, not on their order. -/
theorem priceRollupCells_perm (hstored : forall cell, cell ∈ cells -> StoredCell cell)
    {cells' : List LlmCallMetricSummary} (hperm : cells.Perm cells') :
    (priceRollupCells cells rates).Perm (priceRollupCells cells' rates) := by
  have hstored' : forall cell, cell ∈ cells' -> StoredCell cell :=
    fun cell hcell => hstored cell (hperm.mem_iff.mpr hcell)
  apply List.Perm.map
  apply foldByKey_perm cellRow_singleton cellRow_snoc hperm
  intro k
  by_cases hkey : exists cell, cell ∈ cells ∧ cellKey cell.toLlmRollupCell = k
  · rcases hkey with ⟨cell, hcell, heq⟩
    have hcell' : cell ∈ cells' := hperm.mem_iff.mp hcell
    have hsame : (cellsOf cells cell.agentKind cell.phase).Perm
        (cellsOf cells' cell.agentKind cell.phase) := hperm.filter _
    rw [← heq, filter_cellKey hstored hcell, filter_cellKey hstored' hcell',
      cellRow_cellsOf ⟨cell, hcell, rfl, rfl⟩, cellRow_cellsOf ⟨cell, hcell', rfl, rfl⟩,
      totalOfCells, totalOfCells, totalOf_perm (hsame.map _)]
  · have hnone : forall others : List LlmCallMetricSummary, others.Perm cells ->
        (others.filter fun cell => cellKey cell.toLlmRollupCell = k) = [] := by
      intro others hothers
      apply List.filter_eq_nil_iff.mpr
      intro cell hcell hat
      exact hkey ⟨cell, hothers.mem_iff.mp hcell, of_decide_eq_true hat⟩
    rw [hnone cells (List.Perm.refl cells), hnone cells' hperm.symm]

end Priced

/-!
## Every grain
-/

section Grains

variable (rates : Option LlmRateResolver) (cells : List LlmCallMetricSummary)

/-- The rows that a fold makes of the priced cells, and that they agree with the cells. -/
structure ViewAgrees {row : Type} (view : RollupView row)
    (fold : List LlmRollupCell -> List row) : Prop where
  totals : foldRollupTotals ((fold (priceRollupCells cells rates)).map view.totalsOf) =
    foldRollupTotals ((priceRollupCells cells rates).map LlmRollupCell.toLlmCallRollupTotals)
  plain : forall r, r ∈ fold (priceRollupCells cells rates) -> PlainColumns rates
    (cells.filter fun cell => view.keyOf cell.toLlmRollupCell = view.nameOf r) (view.totalsOf r)
  covers : forall cell, cell ∈ cells -> exists r, r ∈ fold (priceRollupCells cells rates) ∧
    view.nameOf r = view.keyOf cell.toLlmRollupCell
  distinct : ((fold (priceRollupCells cells rates)).map view.nameOf).Nodup
  anyOrder : forall cells', cells.Perm cells' ->
    (fold (priceRollupCells cells rates)).Perm (fold (priceRollupCells cells' rates))

/-- The rollups of a run at its three grains. -/
structure RollupsAgree : Prop where
  priced : forall row, row ∈ priceRollupCells cells rates ->
    PlainColumns rates (cellsOf cells row.agentKind row.phase) row.toLlmCallRollupTotals
  covers : forall cell, cell ∈ cells -> exists row, row ∈ priceRollupCells cells rates ∧
    row.agentKind = cell.agentKind ∧ row.phase = cell.phase
  distinct : ((priceRollupCells cells rates).map fun row => (row.agentKind, row.phase)).Nodup
  anyOrder : forall cells', cells.Perm cells' ->
    (priceRollupCells cells rates).Perm (priceRollupCells cells' rates)
  byAgentKind : ViewAgrees rates cells kindView foldRollupsByAgentKind
  byPhase : ViewAgrees rates cells phaseView foldRollupsByPhase
  totals : PlainColumns rates cells
    (foldRollupTotals ((priceRollupCells cells rates).map LlmRollupCell.toLlmCallRollupTotals))
  totalsAnyOrder : forall cells', cells.Perm cells' ->
    foldRollupTotals ((priceRollupCells cells rates).map LlmRollupCell.toLlmCallRollupTotals) =
      foldRollupTotals ((priceRollupCells cells' rates).map LlmRollupCell.toLlmCallRollupTotals)

variable {rates cells}

theorem exists_priced (hstored : forall cell, cell ∈ cells -> StoredCell cell)
    {cell : LlmCallMetricSummary} (hcell : cell ∈ cells) :
    exists row, row ∈ priceRollupCells cells rates ∧
      row.agentKind = cell.agentKind ∧ row.phase = cell.phase := by
  exists { totalOfCells rates (cellsOf cells cell.agentKind cell.phase) with
    agentKind := cell.agentKind
    phase := cell.phase }
  constructor
  · exact (mem_priceRollupCells hstored).mpr ⟨rfl, cell, hcell, rfl, rfl⟩
  · exact ⟨rfl, rfl⟩

theorem view_agrees {row : Type} (view : RollupView row)
    (hstored : forall cell, cell ∈ cells -> StoredCell cell) :
    ViewAgrees rates cells view (foldRollupsBy view) := by
  constructor
  · exact foldRollupTotals_view view (priceRollupCells cells rates)
  · intro r hr
    rw [((mem_foldRollupsBy view).mp hr).left, total_of_view view hstored]
    apply plainColumns_totalOfCells
    intro cell hcell
    exact (hstored cell (List.mem_of_mem_filter hcell)).peak
  · intro cell hcell
    rcases @exists_priced rates cells hstored cell hcell with ⟨priced, hpriced, hkind, hphase⟩
    exists view.make (view.keyOf cell.toLlmRollupCell) (totalOf merge EMPTY
      (((priceRollupCells cells rates).filter fun other =>
        view.keyOf other = view.keyOf cell.toLlmRollupCell).map
          LlmRollupCell.toLlmCallRollupTotals))
    constructor
    · apply (mem_foldRollupsBy view).mpr
      rw [view.nameOf_make, view.totalsOf_make]
      exact ⟨rfl, priced, hpriced, view.keyOf_congr _ _ hkind hphase⟩
    · exact view.nameOf_make _ _
  · exact nodup_names view (priceRollupCells cells rates)
  · intro cells' hperm
    exact foldRollupsBy_perm view (priceRollupCells_perm hstored hperm)

/--
The rollups agree at every grain: a row, of a cell, an agent kind, a phase or a
whole run, is the plain sum of the cells it covers, the totals of the rows are
the run's, and none of it depends on the order of the cells.
-/
theorem rollups_agree (rates : Option LlmRateResolver) (cells : List LlmCallMetricSummary)
    (hstored : forall cell, cell ∈ cells -> StoredCell cell) : RollupsAgree rates cells := by
  constructor
  · intro row hrow
    rw [((mem_priceRollupCells hstored).mp hrow).left]
    apply plainColumns_totalOfCells
    intro cell hcell
    exact (hstored cell (mem_cellsOf.mp hcell).left).peak
  · intro cell hcell
    exact exists_priced hstored hcell
  · exact nodup_priceRollupCells hstored
  · intro cells' hperm
    exact priceRollupCells_perm hstored hperm
  · exact view_agrees kindView hstored
  · exact view_agrees phaseView hstored
  · rw [foldRollupTotals_priceRollupCells]
    apply plainColumns_totalOfCells
    intro cell hcell
    exact (hstored cell hcell).peak
  · intro cells' hperm
    rw [foldRollupTotals_priceRollupCells, foldRollupTotals_priceRollupCells, totalOfCells,
      totalOfCells, totalOf_perm (hperm.map _)]

def meteredCell (phase model : String) (tokens : Rat) : LlmCallMetricSummary :=
  { EMPTY with
    calls := 1
    completionTokens := tokens
    peakCompletionTokens := tokens
    agentKind := "coder"
    phase := phase
    provider := "anthropic"
    model := model }

def meteredCells : List LlmCallMetricSummary :=
  [meteredCell (normalizeCallPhase (some "agent")) "opus" 40,
    meteredCell (normalizeCallPhase (some "repair")) "local" 60,
    meteredCell (normalizeCallPhase (some "agent")) "opus" 20]

/-- One of the two models has rates. -/
def opusRates : LlmRateResolver :=
  fun _ model => if model = "opus" then some ⟨5, 1, 6, 25⟩ else none

theorem storedCell_metered {phase : String} (model : String) {tokens : Rat}
    (hphase : NUL ∉ phase.toList) (htokens : 0 ≤ tokens) :
    StoredCell (meteredCell phase model tokens) where
  phase := hphase
  peak := htokens

theorem rollups_agree_metered : RollupsAgree (some opusRates) meteredCells := by
  apply rollups_agree
  intro cell hcell
  rcases List.mem_cons.mp hcell with heq | hcell
  · rw [heq]
    exact storedCell_metered "opus" (normalizeCallPhase_plain _) (by norm_num)
  · rcases List.mem_cons.mp hcell with heq | hcell
    · rw [heq]
      exact storedCell_metered "local" (normalizeCallPhase_plain _) (by norm_num)
    · rw [List.mem_singleton.mp hcell]
      exact storedCell_metered "opus" (normalizeCallPhase_plain _) (by norm_num)

end Grains

end Spend
end CatFactory
