import CatFactory.Spend.Passes
import Mathlib.Algebra.Order.BigOperators.Group.List
import Mathlib.Algebra.Order.Ring.Nat

/-!
# The law of the spend rollup

On runs whose passes open after what was pruned, a day of a pass's window is
folded from every row it ever had.  So no total falls, and the days before the
newest complete one keep every row, but for spans that were reported.
-/

namespace CatFactory
namespace Spend

open Foundation

/-!
## Passes that open after what was pruned
-/

/-- A pass that succeeds opens its window after every pruned row. -/
def OpensAfterPruned (retention : Int) (s : Deployment) : Action -> Prop
  | .sweep now false _ =>
      forall row, row ∈ s.pruned -> row.createdAt < dayFloor (windowAt retention s now).from_
  | _ => True

instance (retention : Int) (s : Deployment) (a : Action) :
    Decidable (OpensAfterPruned retention s a) :=
  match a with
  | .record _ => inferInstanceAs (Decidable True)
  | .sweep _ true _ => inferInstanceAs (Decidable True)
  | .sweep now false _ =>
      inferInstanceAs (Decidable (forall row, row ∈ s.pruned ->
        row.createdAt < dayFloor (windowAt retention s now).from_))

def Contains (span : SpendFoldSpan) (row : LedgerRow) : Prop :=
  span.from_ ≤ row.createdAt ∧ row.createdAt < span.to_

/-- The row is in its day's total, or a pass that succeeded reported it as skipped. -/
def Kept (s : Deployment) (row : LedgerRow) : Prop :=
  row ∈ s.store.spendDays (rowDay row) ∨
    exists span, span ∈ s.reported ∧ Contains span row

structure Folded (s : Deployment) : Prop where
  within : forall day, (s.store.spendDays day).Subperm
    ((arrived s).filter fun row => rowDay row = day)
  opened : s.firstFrom = none <-> s.store.throughDay = none
  covered : forall day first, s.store.throughDay = some day -> s.firstFrom = some first ->
    forall row, row ∈ arrived s -> first ≤ row.createdAt -> row.createdAt < day + dayMs ->
      Kept s row

section Steps

variable {retention : Int} {s : Deployment} {now : Int}

theorem folded_record {row : LedgerRow} (hhistory : History retention s) (h : Folded s)
    (hclock : s.clock ≤ row.createdAt) :
    Folded
      { s with
        store := { s.store with tokenUsage := s.store.tokenUsage ++ [row] }
        clock := row.createdAt } := by
  constructor
  · intro day
    apply (h.within day).trans
    apply List.Sublist.subperm
    apply List.Sublist.filter
    exact List.Sublist.append (List.sublist_append_left _ _) (List.Sublist.refl _)
  · exact h.opened
  · intro day first hday hfirst r hr hlow hhigh
    simp only [arrived, List.append_assoc, List.mem_append, List.mem_singleton] at hr
    have hpast := (hhistory.complete day hday).1
    rcases hr with hr | rfl | hr
    · exact h.covered day first hday hfirst r (List.mem_append_left _ hr) hlow hhigh
    · omega
    · exact h.covered day first hday hfirst r (List.mem_append_right _ hr) hlow hhigh

theorem folded_afterPrune (h : Folded s) (pruneFails : Bool) :
    Folded (afterPrune retention s now pruneFails) := by
  have hperm := (@afterPrune_spec retention s now pruneFails).1
  have hstore := @spendDays_afterPrune retention s now pruneFails
  constructor
  · intro day
    rw [hstore.1]
    exact (h.within day).trans (hperm.symm.filter _).subperm
  · rw [hstore.2]
    exact h.opened
  · intro day first hday hfirst row hrow hlow hhigh
    rw [hstore.2] at hday
    have hkept := h.covered day first hday hfirst row (hperm.mem_iff.mp hrow) hlow hhigh
    unfold Kept at hkept ⊢
    rw [hstore.1]
    exact hkept

/-- A row at or after the window's first day that is before its last complete one is folded. -/
theorem mem_spendDays_afterRollup
    (hopens : forall row, row ∈ s.pruned ->
      row.createdAt < dayFloor (windowAt retention s now).from_)
    {row : LedgerRow} (hrow : row ∈ arrived s)
    (hlow : dayFloor (windowAt retention s now).from_ ≤ row.createdAt)
    (hhigh : rowDay row < dayCeil (windowAt retention s now).to_) :
    row ∈ (afterRollup retention s now false).store.spendDays (rowDay row) := by
  have hledger : row ∈ s.store.tokenUsage := by
    rcases List.mem_append.mp hrow with hrow | hrow
    · exact hrow
    · have hbefore := hopens row hrow
      omega
  have hday : dayFloor (windowAt retention s now).from_ ≤ rowDay row := by
    rw [← dayFloor_dayFloor]
    exact dayFloor_mono hlow
  rw [spendDays_afterRollup, if_pos ⟨hday, hhigh⟩, List.mem_filter]
  simp only [Bool.and_eq_true, decide_eq_true_eq]
  exact ⟨hledger, ⟨hlow, rowDay_lt_dayCeil hhigh⟩, trivial⟩

/-- A row whose day the window leaves alone stays kept. -/
theorem kept_afterRollup {row : LedgerRow}
    (hout : ¬ (dayFloor (windowAt retention s now).from_ ≤ rowDay row ∧
      rowDay row < dayCeil (windowAt retention s now).to_))
    (h : Kept s row) : Kept (afterRollup retention s now false) row := by
  rcases h with hin | ⟨span, hspan, hcontains⟩
  · apply Or.inl
    rw [spendDays_afterRollup, if_neg hout]
    exact hin
  · exact Or.inr ⟨span, mem_reported_afterRollup (Or.inl hspan), hcontains⟩

/-- Where the first pass opened stays where it was. -/
theorem firstFrom_afterRollup (h : Folded s) {day first : Int}
    (hday : s.store.throughDay = some day)
    (hfirst : (afterRollup retention s now false).firstFrom = some first) :
    s.firstFrom = some first := by
  have heq : (afterRollup retention s now false).firstFrom =
      some (s.firstFrom.getD (dayFloor (windowAt retention s now).from_)) := rfl
  cases hf : s.firstFrom with
  | none =>
      rw [h.opened.mp hf] at hday
      cases hday
  | some f =>
      rw [heq, hf] at hfirst
      exact hfirst

/-- A pruned row that the newest complete day does not reach is reported by the pass. -/
theorem reported_of_before_window {day : Int} (hday : s.store.throughDay = some day)
    {row : LedgerRow} (hhigh : day + dayMs ≤ row.createdAt)
    (hbefore : row.createdAt < dayFloor (windowAt retention s now).from_) :
    exists span, (windowAt retention s now).skipped = some span ∧ Contains span row := by
  have hfloor := dayFloor_le (windowAt retention s now).from_
  have hms : 0 < dayMs := by decide
  apply mem_skipped hday
  · omega
  · unfold windowAt at hbefore hfloor
    omega

theorem folded_afterRollup (h : Folded s)
    (hopens : forall row, row ∈ s.pruned ->
      row.createdAt < dayFloor (windowAt retention s now).from_) :
    Folded (afterRollup retention s now false) := by
  constructor
  · intro day
    rw [arrived_afterRollup, spendDays_afterRollup]
    split
    · apply List.Sublist.subperm
      apply List.Sublist.trans _ (List.sublist_append_left _ _ |>.filter _)
      apply List.monotone_filter_right
      intro row hrow
      simp only [Bool.and_eq_true, decide_eq_true_eq] at hrow ⊢
      exact hrow.2
    · exact h.within day
  · rw [throughDay_afterRollup]
    constructor
    · intro hnone
      cases hnone
    · intro hnone
      cases hnone
  · intro day first hday hfirst row hrow hlow hhigh
    rw [arrived_afterRollup] at hrow
    rw [throughDay_afterRollup] at hday
    cases hday
    have hfloor := dayFloor_le row.createdAt
    by_cases hbefore : row.createdAt < dayFloor (windowAt retention s now).from_
    · -- the window leaves the row where it was, or its pass reports it
      cases hthrough : s.store.throughDay with
      | none =>
          have heq : (afterRollup retention s now false).firstFrom =
              some (s.firstFrom.getD (dayFloor (windowAt retention s now).from_)) := rfl
          rw [heq, h.opened.mpr hthrough] at hfirst
          have hopen := Option.some.inj hfirst
          rw [Option.getD_none] at hopen
          omega
      | some w =>
          by_cases hold : row.createdAt < w + dayMs
          · apply kept_afterRollup
            · rintro ⟨hlow', _⟩
              unfold rowDay at hlow'
              omega
            · exact h.covered w first hthrough (firstFrom_afterRollup h hthrough hfirst) row
                hrow hlow hold
          · rcases reported_of_before_window hthrough (Int.not_lt.mp hold) hbefore with
              ⟨span, hspan, hcontains⟩
            exact Or.inr ⟨span, mem_reported_afterRollup (Or.inr hspan), hcontains⟩
    · by_cases hday : rowDay row < dayCeil (windowAt retention s now).to_
      · exact Or.inl (mem_spendDays_afterRollup hopens hrow (Int.not_lt.mp hbefore) hday)
      · -- beyond the window only an earlier pass can have made the row's day complete
        have hbeyond : lastCompleteRollupDay (windowAt retention s now).to_ + dayMs ≤
            row.createdAt := by
          have hto := dayFloor_le (windowAt retention s now).to_
          have hceil := le_dayCeil (windowAt retention s now).to_
          unfold lastCompleteRollupDay
          unfold rowDay at hday
          omega
        cases hthrough : s.store.throughDay with
        | none =>
            rw [hthrough] at hhigh
            simp only [nextThroughDay] at hhigh
            omega
        | some w =>
            rw [hthrough] at hhigh
            simp only [nextThroughDay] at hhigh
            apply kept_afterRollup
            · rintro ⟨_, hhigh'⟩
              exact hday hhigh'
            · apply h.covered w first hthrough (firstFrom_afterRollup h hthrough hfirst) row
                hrow hlow
              omega

/-- A pass that opens after what was pruned folds all a day ever had. -/
theorem dayTotal_afterRollup (h : Folded s)
    (hopens : forall row, row ∈ s.pruned ->
      row.createdAt < dayFloor (windowAt retention s now).from_) (day : Int) :
    dayTotal s.store day ≤ dayTotal (afterRollup retention s now false).store day := by
  unfold dayTotal
  rw [spendDays_afterRollup]
  split
  · rename_i hday
    have hall : (arrived s).filter (fun row => rowDay row = day) =
        s.store.tokenUsage.filter fun row =>
          dayFloor (windowAt retention s now).from_ ≤ row.createdAt &&
            row.createdAt < dayCeil (windowAt retention s now).to_ && rowDay row = day := by
      have hnone : s.pruned.filter (fun row => rowDay row = day) = [] := by
        rw [List.filter_eq_nil_iff]
        intro row hrow
        have hbefore := hopens row hrow
        have hfloor := dayFloor_le row.createdAt
        rw [decide_eq_true_iff]
        unfold rowDay
        omega
      unfold arrived
      rw [List.filter_append, hnone, List.append_nil]
      apply List.filter_congr
      intro row _
      rw [Bool.eq_iff_iff]
      simp only [Bool.and_eq_true, decide_eq_true_eq]
      constructor
      · intro hrow
        have hfloor := dayFloor_le row.createdAt
        have hlow : dayFloor (windowAt retention s now).from_ ≤ row.createdAt := by
          unfold rowDay at hrow
          omega
        have hhigh : rowDay row < dayCeil (windowAt retention s now).to_ := hrow ▸ hday.2
        exact ⟨⟨hlow, rowDay_lt_dayCeil hhigh⟩, hrow⟩
      · exact And.right
    rw [← hall]
    rcases h.within day with ⟨part, hperm, hsublist⟩
    rw [← (hperm.map LedgerRow.cost).sum_eq]
    exact (hsublist.map LedgerRow.cost).sum_le_sum fun _ _ => Nat.zero_le _
  · exact Nat.le_refl _

/-- A pass that succeeds never moves the watermark back, and moves one that is behind. -/
theorem throughDay_advances (h : History retention s) {day : Int}
    (hday : s.store.throughDay = some day) :
    day ≤ nextThroughDay s.store.throughDay (windowAt retention s now).to_ ∧
      (day < lastCompleteRollupDay now ->
        day < nextThroughDay s.store.throughDay (windowAt retention s now).to_) := by
  have hmidnight := (h.complete day hday).2
  have hfrom := window_from s.store.throughDay now retention
  have hto := window_to s.store.throughDay now retention
  have hhorizon := foldHorizon_le now retention
  unfold windowAt
  rw [hday] at hfrom hto ⊢
  simp only [nextThroughDay, resumePoint, lastCompleteRollupDay, spendDayRollupBackfillMs,
    spendDayRollupLookbackMs, spendDayRollupMaxSpanMs, dayFloor, dayMs] at *
  constructor
  · exact Int.le_max_left _ _
  · intro hbehind
    omega

end Steps

/-!
## Runs
-/

section Runs

variable {retention : Int} {s t : Deployment} {a : Action}

theorem folded_step (hhistory : History retention s) (h : Folded s)
    (hok : OpensAfterPruned retention s a) (hact : act retention s a = some t) : Folded t := by
  cases a with
  | record row =>
      simp only [act] at hact
      split at hact
      · rename_i henabled
        cases hact
        exact folded_record hhistory h henabled.1
      · cases hact
  | sweep now rollupFails pruneFails =>
      simp only [act] at hact
      split at hact
      · cases hact
        apply folded_afterPrune
        cases rollupFails with
        | true => exact ⟨h.within, h.opened, h.covered⟩
        | false => exact folded_afterRollup h hok
      · cases hact

theorem folded_of_run {trace : List Action}
    (hrun : RunWhere (act retention) (OpensAfterPruned retention) init trace s) : Folded s := by
  have hboth : History retention s ∧ Folded s := by
    apply @RunWhere.invariant _ _ _ _ _ (fun s => History retention s ∧ Folded s) _ _ _ _ hrun
    · constructor
      · exact history_of_run (@RunWhere.nil _ _ (act retention)
          (OpensAfterPruned retention) init)
      · constructor
        · intro day
          exact List.nil_subperm
        · exact Iff.rfl
        · intro day first hday
          cases hday
    · intro s a t h hok hact
      exact ⟨history_step h.1 hact, folded_step h.1 h.2 hok hact⟩
  exact hboth.2

theorem dayTotal_step (h : Folded s) (hok : OpensAfterPruned retention s a)
    (hact : act retention s a = some t) (day : Int) :
    dayTotal s.store day ≤ dayTotal t.store day := by
  cases a with
  | record row =>
      simp only [act] at hact
      split at hact
      · cases hact
        exact Nat.le_refl _
      · cases hact
  | sweep now rollupFails pruneFails =>
      simp only [act] at hact
      split at hact
      · cases hact
        unfold dayTotal
        rw [(spendDays_afterPrune pruneFails).1]
        cases rollupFails with
        | true => exact Nat.le_refl _
        | false => exact dayTotal_afterRollup h hok day
      · cases hact

/-- Where a pruned row is accounted for: in its day's total, in a reported span, before the
first pass, or by the next pass, which reports it or is the first. -/
def AccountedFor (retention : Int) (s : Deployment) (row : LedgerRow) : Prop :=
  Kept s row ∨
  (exists first, s.firstFrom = some first ∧ row.createdAt < first) ∨
  forall now pruneFails, s.clock ≤ now ->
    OpensAfterPruned retention s (.sweep now false pruneFails) ->
    (exists span, (windowAt retention s now).skipped = some span ∧ Contains span row) ∨
      s.store.throughDay = none ∧
        row.createdAt < dayFloor (windowAt retention s now).from_

theorem accountedFor_of_pruned (h : Folded s) {row : LedgerRow} (hrow : row ∈ s.pruned) :
    AccountedFor retention s row := by
  unfold AccountedFor
  cases hday : s.store.throughDay with
  | none =>
      apply Or.inr
      apply Or.inr
      intro now pruneFails _ hopens
      exact Or.inr ⟨rfl, hopens row hrow⟩
  | some day =>
      cases hfirst : s.firstFrom with
      | none =>
          rw [h.opened.mp hfirst] at hday
          cases hday
      | some first =>
          by_cases hlow : row.createdAt < first
          · exact Or.inr (Or.inl ⟨first, rfl, hlow⟩)
          · by_cases hhigh : row.createdAt < day + dayMs
            · exact Or.inl (h.covered day first hday hfirst row
                (List.mem_append_right _ hrow) (Int.not_lt.mp hlow) hhigh)
            · apply Or.inr
              apply Or.inr
              intro now pruneFails _ hopens
              exact Or.inl (reported_of_before_window hday (Int.not_lt.mp hhigh)
                (hopens row hrow))

/-- A retention of at least 91 days is longer than a window that skips nothing reaches. -/
theorem opensAfterPruned_of_long (hlong : 91 * dayMs ≤ retention) (h : History retention s)
    {now : Int} (hclock : s.clock ≤ now)
    (hskipped : (windowAt retention s now).skipped = none) (pruneFails : Bool) :
    OpensAfterPruned retention s (.sweep now false pruneFails) := by
  intro row hrow
  have hexpired := (h.expired row hrow).2
  have hfrom := window_from s.store.throughDay now retention
  unfold windowAt at hskipped ⊢
  cases hday : s.store.throughDay with
  | none =>
      rw [hday] at hfrom
      simp only [resumePoint, foldHorizon, spendDayRollupBackfillMs, dayFloor, dayMs] at *
      omega
  | some day =>
      have hmidnight := (h.complete day hday).2
      have hresume := window_from_of_skipped hday hskipped
      rw [hday] at hfrom hresume
      simp only [resumePoint, foldHorizon, spendDayRollupBackfillMs, spendDayRollupLookbackMs,
        dayFloor, dayMs] at *
      omega

/-- So is one of four days, as long as the watermark is a day that was not pruned. -/
theorem opensAfterPruned_of_young (hfour : 4 * dayMs ≤ retention) (h : History retention s)
    {day : Int} (hday : s.store.throughDay = some day) (hyoung : s.clock - retention ≤ day)
    {now : Int} (hclock : s.clock ≤ now) (pruneFails : Bool) :
    OpensAfterPruned retention s (.sweep now false pruneFails) := by
  intro row hrow
  have hexpired := (h.expired row hrow).2
  have hmidnight := (h.complete day hday).2
  have hfrom := window_from s.store.throughDay now retention
  unfold windowAt
  rw [hday] at hfrom ⊢
  simp only [resumePoint, foldHorizon, spendDayRollupBackfillMs, spendDayRollupLookbackMs,
    dayFloor, dayMs] at *
  omega

/-- Without a retention nothing is pruned. -/
theorem opensAfterPruned_of_unpruned (hretention : retention ≤ 0) (h : History retention s)
    (a : Action) : OpensAfterPruned retention s a := by
  cases a with
  | record row => trivial
  | sweep now rollupFails pruneFails =>
      cases rollupFails with
      | true => trivial
      | false =>
          intro row hrow
          have hpos := (h.expired row hrow).1
          omega

end Runs

/-!
## The law
-/

structure SpendRollupLaw (retention : Int) : Prop where
  /-- A pass that succeeds advances a watermark that is behind and takes none back. -/
  advances : forall trace s now pruneFails t, Run (act retention) init trace s ->
    act retention s (.sweep now false pruneFails) = some t ->
    exists day, t.store.throughDay = some day ∧
      forall old, s.store.throughDay = some old ->
        old ≤ day ∧ (old < lastCompleteRollupDay now -> old < day)
  /-- A pass that fails leaves the totals and the watermark as they were. -/
  failed : forall s now pruneFails t,
    act retention s (.sweep now true pruneFails) = some t ->
    t.store.spendDays = s.store.spendDays ∧ t.store.throughDay = s.store.throughDay
  /-- No total falls. -/
  keeps : forall trace s a t,
    RunWhere (act retention) (OpensAfterPruned retention) init trace s ->
    OpensAfterPruned retention s a -> act retention s a = some t ->
    forall day, dayTotal s.store day ≤ dayTotal t.store day
  /-- Every pruned row is accounted for. -/
  accounts : forall trace s row,
    RunWhere (act retention) (OpensAfterPruned retention) init trace s ->
    row ∈ s.pruned -> AccountedFor retention s row
  /-- Every pass is good where nothing is pruned, with a long retention every pass
  that skips nothing, and with one of four days every pass after a young watermark. -/
  good : forall trace s, Run (act retention) init trace s ->
    (retention ≤ 0 -> forall a, OpensAfterPruned retention s a) ∧
    (91 * dayMs ≤ retention -> forall now pruneFails, s.clock ≤ now ->
      (windowAt retention s now).skipped = none ->
      OpensAfterPruned retention s (.sweep now false pruneFails)) ∧
    (4 * dayMs ≤ retention -> forall day, s.store.throughDay = some day ->
      s.clock - retention ≤ day -> forall now pruneFails, s.clock ≤ now ->
      OpensAfterPruned retention s (.sweep now false pruneFails))

theorem spendRollup_law (retention : Int) : SpendRollupLaw retention := by
  constructor
  · intro trace s now pruneFails t hrun hact
    have hhistory := history_of_run hrun
    simp only [act] at hact
    split at hact
    · cases hact
      refine ⟨_, (spendDays_afterPrune pruneFails).2.trans throughDay_afterRollup, ?_⟩
      intro old hold
      exact throughDay_advances hhistory hold
    · cases hact
  · intro s now pruneFails t hact
    simp only [act] at hact
    split at hact
    · cases hact
      exact spendDays_afterPrune pruneFails
    · cases hact
  · intro trace s a t hrun hok hact day
    exact dayTotal_step (folded_of_run hrun) hok hact day
  · intro trace s row hrun hrow
    exact accountedFor_of_pruned (folded_of_run hrun) hrow
  · intro trace s hrun
    have hhistory := history_of_run hrun
    refine ⟨fun hretention a => opensAfterPruned_of_unpruned hretention hhistory a, ?_, ?_⟩
    · intro hlong now pruneFails hclock hskipped
      exact opensAfterPruned_of_long hlong hhistory hclock hskipped pruneFails
    · intro hfour day hday hyoung now pruneFails hclock
      exact opensAfterPruned_of_young hfour hhistory hday hyoung hclock pruneFails

/-!
## Runs of a deployment
-/

def testOpens (retention : Int) (s : Deployment) (a : Action) : Bool :=
  OpensAfterPruned retention s a

/-- A call on day 50, folded by the second pass and pruned 101 days on. -/
def foldedCall : LedgerRow := { id := "call", createdAt := 50 * dayMs, cost := 5 }

def foldedTrace : List Action :=
  [.record foldedCall, .sweep (100 * dayMs) false false, .sweep (101 * dayMs) false false,
    .sweep (151 * dayMs) false false]

theorem spendRollup_law_pruned :
    foldedCall ∈ (endOf (act (100 * dayMs)) init foldedTrace).pruned ∧
      AccountedFor (100 * dayMs) (endOf (act (100 * dayMs)) init foldedTrace) foldedCall := by
  have hrun : RunWhere (act (100 * dayMs)) (OpensAfterPruned (100 * dayMs)) init foldedTrace
      (endOf (act (100 * dayMs)) init foldedTrace) :=
    @runWhere_endOf _ _ _ _ (testOpens (100 * dayMs)) (fun _ _ h => of_decide_eq_true h) _ _
      (by decide +kernel)
  have hpruned : foldedCall ∈ (endOf (act (100 * dayMs)) init foldedTrace).pruned := by
    decide +kernel
  exact ⟨hpruned, (spendRollup_law (100 * dayMs)).accounts _ _ _ hrun hpruned⟩

/-- Every pruned row is in its day's total or reported as skipped by the next pass. -/
def NextPassReports (retention : Int) : Prop :=
  forall trace s t row now pruneFails, Run (act retention) init trace s ->
    row ∈ s.pruned -> act retention s (.sweep now false pruneFails) = some t ->
    row ∈ s.store.spendDays (rowDay row) ∨
      exists span, (windowAt retention s now).skipped = some span ∧ Contains span row

/-- No step lowers a day's total. -/
def KeepsTotals (retention : Int) : Prop :=
  forall trace s a t, Run (act retention) init trace s -> act retention s a = some t ->
    forall day, dayTotal s.store day ≤ dayTotal t.store day

/-- A call older than the history the first pass adopts. -/
def oldCall : LedgerRow := { id := "call", createdAt := dayMs, cost := 5 }

/-- A call of the newest complete day, pruned while the rollup was down. -/
def lastCall : LedgerRow := { id := "call", createdAt := 97 * dayMs, cost := 5 }

def downTrace : List Action :=
  [.record lastCall, .sweep (100 * dayMs) false false, .sweep (101 * dayMs) false false,
    .sweep (102 * dayMs) false false, .sweep (130 * dayMs) true false]

theorem not_spendRollup_law :
    ¬ NextPassReports (100 * dayMs) ∧ ¬ KeepsTotals (30 * dayMs) := by
  constructor
  · intro h
    have hrun : Run (act (100 * dayMs)) init [.record oldCall, .sweep (200 * dayMs) false false]
        (endOf (act (100 * dayMs)) init [.record oldCall, .sweep (200 * dayMs) false false]) :=
      run_endOf (by decide +kernel)
    have hnext := h _ _
      (endOf (act (100 * dayMs)) init
        [.record oldCall, .sweep (200 * dayMs) false false, .sweep (201 * dayMs) false false])
      oldCall (201 * dayMs) false hrun (by decide +kernel) rfl
    rcases hnext with hfolded | ⟨span, hspan, _⟩
    · revert hfolded
      decide +kernel
    · have hnone : (windowAt (100 * dayMs) (endOf (act (100 * dayMs)) init
          [.record oldCall, .sweep (200 * dayMs) false false]) (201 * dayMs)).skipped = none := by
        decide +kernel
      rw [hnone] at hspan
      cases hspan
  · intro h
    have hrun : Run (act (30 * dayMs)) init downTrace
        (endOf (act (30 * dayMs)) init downTrace) :=
      run_endOf (by decide +kernel)
    have hkept := h _ _ (.sweep (131 * dayMs) false false)
      (endOf (act (30 * dayMs)) init (downTrace ++ [.sweep (131 * dayMs) false false]))
      hrun rfl (97 * dayMs)
    revert hkept
    decide +kernel

end Spend
end CatFactory
