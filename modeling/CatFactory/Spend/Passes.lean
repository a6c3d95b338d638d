import CatFactory.Spend.Rollup
import Mathlib.Data.List.Perm.Subperm

/-!
# What the spend rollup keeps

A pass folds its days from the rows the ledger still has, so it is right as
long as no pruned row stands at or after the day its window opens on.  On runs
whose passes all open after what was pruned, no total falls, and every pruned
row is folded, reported as skipped, or older than the first pass reached.
-/

namespace CatFactory
namespace Spend

open Foundation

/-!
## Days and windows
-/

theorem dayFloor_le (t : Int) : dayFloor t ≤ t := by
  simp only [dayFloor, dayMs]
  omega

theorem le_dayCeil (t : Int) : t ≤ dayCeil t := by
  simp only [dayCeil, dayMs]
  omega

theorem dayFloor_dayFloor (t : Int) : dayFloor (dayFloor t) = dayFloor t := by
  simp only [dayFloor, dayMs]
  omega

theorem dayFloor_mono {t u : Int} (h : t ≤ u) : dayFloor t ≤ dayFloor u := by
  simp only [dayFloor, dayMs]
  omega

theorem dayFloor_lastComplete (t : Int) :
    dayFloor (lastCompleteRollupDay t) = lastCompleteRollupDay t := by
  simp only [lastCompleteRollupDay, dayFloor, dayMs]
  omega

/-- A day of a window holds no row beyond the window's last midnight. -/
theorem rowDay_lt_dayCeil {t stop : Int} (h : dayFloor t < dayCeil stop) : t < dayCeil stop := by
  simp only [dayFloor, dayCeil, dayMs] at h ⊢
  omega

section Window

variable (throughDay : Option Int) (now retention : Int)

theorem resumePoint_le :
    resumePoint throughDay now ≤ now - spendDayRollupLookbackMs := by
  unfold resumePoint
  split
  · simp only [spendDayRollupBackfillMs, spendDayRollupLookbackMs, dayMs]
    omega
  · exact Int.min_le_right _ _

theorem foldHorizon_le : foldHorizon now retention ≤ now - spendDayRollupBackfillMs :=
  Int.sub_le_sub_left (Int.le_max_right _ _) now

theorem window_from : (spendRollupWindow throughDay now retention).from_ =
    max (resumePoint throughDay now) (foldHorizon now retention) :=
  rfl

theorem window_to : (spendRollupWindow throughDay now retention).to_ =
    min now ((spendRollupWindow throughDay now retention).from_ + spendDayRollupMaxSpanMs) :=
  rfl

theorem window_from_le : (spendRollupWindow throughDay now retention).from_ ≤
    now - spendDayRollupLookbackMs := by
  have hresume := resumePoint_le throughDay now
  have hhorizon := foldHorizon_le now retention
  rw [window_from]
  simp only [spendDayRollupBackfillMs, spendDayRollupLookbackMs, dayMs] at hresume hhorizon ⊢
  omega

theorem window_lt : dayFloor (spendRollupWindow throughDay now retention).from_ <
    dayCeil (spendRollupWindow throughDay now retention).to_ := by
  have hfrom := window_from_le throughDay now retention
  have hto := window_to throughDay now retention
  have hfloor := dayFloor_le (spendRollupWindow throughDay now retention).from_
  have hceil := le_dayCeil (spendRollupWindow throughDay now retention).to_
  simp only [spendDayRollupLookbackMs, spendDayRollupMaxSpanMs, dayMs] at hfrom hto
  omega

variable {throughDay now retention}

/-- What lies between the newest complete day and the window is reported as skipped. -/
theorem mem_skipped {day t : Int} (hday : throughDay = some day) (ht : day ≤ t)
    (hfrom : t < (spendRollupWindow throughDay now retention).from_) :
    exists span, (spendRollupWindow throughDay now retention).skipped = some span ∧
      span.from_ ≤ t ∧ t < span.to_ := by
  have hresume : resumePoint throughDay now ≤ day := by
    rw [hday]
    exact Int.min_le_left _ _
  rw [window_from] at hfrom
  have hcut : resumePoint throughDay now < foldHorizon now retention := by omega
  refine ⟨{ from_ := resumePoint throughDay now, to_ := foldHorizon now retention }, ?_, ?_, ?_⟩
  · unfold spendRollupWindow foldStart
    rw [hday] at hcut ⊢
    simp only [hcut, decide_true, Bool.and_true, Option.isSome_some, if_true]
  · exact Int.le_trans hresume ht
  · show t < foldHorizon now retention
    omega

/-- A window that skips nothing opens at the resume point. -/
theorem window_from_of_skipped {day : Int} (hday : throughDay = some day)
    (hskipped : (spendRollupWindow throughDay now retention).skipped = none) :
    (spendRollupWindow throughDay now retention).from_ = resumePoint throughDay now := by
  rw [window_from]
  apply Int.max_eq_left
  by_contra hcut
  have hlt : resumePoint throughDay now < foldHorizon now retention := Int.not_le.mp hcut
  unfold spendRollupWindow foldStart at hskipped
  rw [hday] at hlt hskipped
  simp [hlt] at hskipped

end Window

/-!
## One pass
-/

def nextThroughDay (throughDay : Option Int) (toEpochMs : Int) : Int :=
  match throughDay with
  | none => lastCompleteRollupDay toEpochMs
  | some day => max day (lastCompleteRollupDay toEpochMs)

section Pass

variable {retention : Int} {s : Deployment} {now : Int}

theorem tokenUsage_afterRollup (rollupFails : Bool) :
    (afterRollup retention s now rollupFails).store.tokenUsage = s.store.tokenUsage := by
  cases rollupFails with
  | true => rfl
  | false =>
      unfold afterRollup materializeSpendRollup isolate rollupSpendDays
      simp only [Bool.false_eq_true, if_false]
      split
      · rfl
      · rfl

theorem arrived_afterRollup (rollupFails : Bool) :
    arrived (afterRollup retention s now rollupFails) = arrived s := by
  unfold arrived
  rw [tokenUsage_afterRollup]
  rfl

theorem throughDay_afterRollup :
    (afterRollup retention s now false).store.throughDay =
      some (nextThroughDay s.store.throughDay (windowAt retention s now).to_) := by
  have hlt := window_lt s.store.throughDay now retention
  unfold afterRollup materializeSpendRollup isolate rollupSpendDays
  simp only [Bool.false_eq_true, if_false, Int.not_le.mpr hlt]
  rfl

theorem spendDays_afterRollup (day : Int) :
    (afterRollup retention s now false).store.spendDays day =
      if dayFloor (windowAt retention s now).from_ ≤ day ∧
          day < dayCeil (windowAt retention s now).to_ then
        s.store.tokenUsage.filter fun row =>
          dayFloor (windowAt retention s now).from_ ≤ row.createdAt &&
            row.createdAt < dayCeil (windowAt retention s now).to_ && rowDay row = day
      else s.store.spendDays day := by
  have hlt := window_lt s.store.throughDay now retention
  unfold afterRollup materializeSpendRollup isolate rollupSpendDays
  simp only [Bool.false_eq_true, if_false, Int.not_le.mpr hlt]
  rfl

theorem mem_reported_afterRollup {span : SpendFoldSpan}
    (h : span ∈ s.reported ∨ (windowAt retention s now).skipped = some span) :
    span ∈ (afterRollup retention s now false).reported := by
  show span ∈ s.reported ++ (windowAt retention s now).skipped.toList
  rw [List.mem_append, Option.mem_toList]
  exact h

/-- A prune takes out rows past the retention, and no row is lost track of. -/
theorem afterPrune_spec (pruneFails : Bool) :
    (arrived (afterPrune retention s now pruneFails)).Perm (arrived s) ∧
      forall row, row ∈ (afterPrune retention s now pruneFails).pruned ->
        row ∈ s.pruned ∨ 0 < retention ∧ row.createdAt < now - retention := by
  have hkept : (prune "token_usage" retention now pruneFails (s.store, [])).1 = s.store ∨
      0 < retention ∧ (prune "token_usage" retention now pruneFails (s.store, [])).1 =
        deleteOlderThan s.store (now - retention) := by
    unfold prune isolate
    split
    · exact Or.inl rfl
    · rename_i hpos
      cases pruneFails with
      | true => exact Or.inl rfl
      | false => exact Or.inr ⟨Int.not_le.mp hpos, rfl⟩
  unfold arrived afterPrune
  rcases hkept with hsame | ⟨hpos, hcut⟩
  · have hnone : s.store.tokenUsage.filter (fun row => row ∉ s.store.tokenUsage) = [] := by
      rw [List.filter_eq_nil_iff]
      intro row hrow
      simp [hrow]
    simp only [hsame, hnone, List.append_nil]
    exact ⟨List.Perm.refl _, fun row hrow => Or.inl hrow⟩
  · have hold : s.store.tokenUsage.filter
          (fun row => row ∉ (deleteOlderThan s.store (now - retention)).tokenUsage) =
        s.store.tokenUsage.filter fun row => !decide (now - retention ≤ row.createdAt) := by
      apply List.filter_congr
      intro row hrow
      rw [Bool.eq_iff_iff]
      simp [deleteOlderThan, hrow]
    simp only [hcut, hold]
    constructor
    · have hsplit := @List.filter_append_perm _
        (fun row : LedgerRow => decide (now - retention ≤ row.createdAt)) s.store.tokenUsage
      apply List.Perm.trans _ (hsplit.append_right s.pruned)
      rw [List.append_assoc]
      exact List.perm_append_comm.append_left _
    · intro row hrow
      rcases List.mem_append.mp hrow with hrow | hrow
      · exact Or.inl hrow
      · have htest := (List.mem_filter.mp hrow).2
        simp only [Bool.not_eq_true', decide_eq_false_iff_not, Int.not_le] at htest
        exact Or.inr ⟨hpos, htest⟩

/-- A prune leaves the days and the watermark alone. -/
theorem spendDays_afterPrune (pruneFails : Bool) :
    (afterPrune retention s now pruneFails).store.spendDays = s.store.spendDays ∧
      (afterPrune retention s now pruneFails).store.throughDay = s.store.throughDay := by
  show (prune "token_usage" retention now pruneFails (s.store, [])).1.spendDays = _ ∧
    (prune "token_usage" retention now pruneFails (s.store, [])).1.throughDay = _
  unfold prune isolate
  split
  · exact ⟨rfl, rfl⟩
  · cases pruneFails with
    | true => exact ⟨rfl, rfl⟩
    | false => exact ⟨rfl, rfl⟩

end Pass

/-!
## What every run keeps
-/

structure History (retention : Int) (s : Deployment) : Prop where
  past : forall row, row ∈ arrived s -> row.createdAt ≤ s.clock
  complete : forall day, s.store.throughDay = some day ->
    day + dayMs ≤ s.clock ∧ dayFloor day = day
  expired : forall row, row ∈ s.pruned ->
    0 < retention ∧ row.createdAt < s.clock - retention

theorem history_record {retention : Int} {s : Deployment} {row : LedgerRow}
    (h : History retention s) (hclock : s.clock ≤ row.createdAt) :
    History retention
      { s with
        store := { s.store with tokenUsage := s.store.tokenUsage ++ [row] }
        clock := row.createdAt } := by
  constructor
  · intro r hr
    simp only [arrived, List.append_assoc, List.mem_append, List.mem_singleton] at hr
    rcases hr with hr | rfl | hr
    · exact Int.le_trans (h.past r (List.mem_append_left _ hr)) hclock
    · exact Int.le_refl _
    · exact Int.le_trans (h.past r (List.mem_append_right _ hr)) hclock
  · intro day hday
    have hold := h.complete day hday
    exact ⟨Int.le_trans hold.1 hclock, hold.2⟩
  · intro r hr
    have hold := h.expired r hr
    have hle : s.clock - retention ≤ row.createdAt - retention :=
      Int.sub_le_sub_right hclock _
    exact ⟨hold.1, Int.lt_of_lt_of_le hold.2 hle⟩

theorem history_afterRollup {retention : Int} {s : Deployment} {now : Int}
    (h : History retention s) (hclock : s.clock ≤ now) (rollupFails : Bool) :
    History retention (afterRollup retention s now rollupFails) := by
  constructor
  · intro row hrow
    rw [arrived_afterRollup] at hrow
    exact Int.le_trans (h.past row hrow) hclock
  · intro day hday
    cases rollupFails with
    | true =>
        have hold := h.complete day hday
        exact ⟨Int.le_trans hold.1 hclock, hold.2⟩
    | false =>
        rw [throughDay_afterRollup] at hday
        cases hday
        have hto := window_to s.store.throughDay now retention
        have hlast : lastCompleteRollupDay (windowAt retention s now).to_ + dayMs ≤ now := by
          have hfloor := dayFloor_le (windowAt retention s now).to_
          unfold windowAt at hfloor ⊢
          unfold lastCompleteRollupDay
          omega
        have hday := dayFloor_lastComplete (windowAt retention s now).to_
        unfold nextThroughDay
        split
        · exact ⟨hlast, hday⟩
        · rename_i w hw
          have hold := h.complete w hw
          rcases Int.le_total w (lastCompleteRollupDay (windowAt retention s now).to_) with
            hle | hle
          · rw [Int.max_eq_right hle]
            exact ⟨hlast, hday⟩
          · rw [Int.max_eq_left hle]
            exact ⟨Int.le_trans hold.1 hclock, hold.2⟩
  · intro row hrow
    have hold := h.expired row hrow
    have hle : s.clock - retention ≤ now - retention := Int.sub_le_sub_right hclock _
    exact ⟨hold.1, Int.lt_of_lt_of_le hold.2 hle⟩

theorem history_afterPrune {retention : Int} {s : Deployment} {now : Int}
    (h : History retention s) (hclock : s.clock = now) (pruneFails : Bool) :
    History retention (afterPrune retention s now pruneFails) := by
  have hspec := @afterPrune_spec retention s now pruneFails
  constructor
  · intro row hrow
    exact h.past row (hspec.1.mem_iff.mp hrow)
  · intro day hday
    rw [(spendDays_afterPrune pruneFails).2] at hday
    exact h.complete day hday
  · intro row hrow
    rcases hspec.2 row hrow with hold | hnew
    · exact h.expired row hold
    · show 0 < retention ∧ row.createdAt < s.clock - retention
      rw [hclock]
      exact hnew

theorem history_step {retention : Int} {s t : Deployment} {a : Action}
    (h : History retention s) (hact : act retention s a = some t) : History retention t := by
  cases a with
  | record row =>
      simp only [act] at hact
      split at hact
      · rename_i henabled
        cases hact
        exact history_record h henabled.1
      · cases hact
  | sweep now rollupFails pruneFails =>
      simp only [act] at hact
      split at hact
      · rename_i hclock
        cases hact
        exact history_afterPrune (history_afterRollup h hclock rollupFails) rfl pruneFails
      · cases hact

theorem history_of_run {retention : Int} {ok : Deployment -> Action -> Prop}
    {trace : List Action} {s : Deployment}
    (hrun : RunWhere (act retention) ok init trace s) : History retention s := by
  apply @RunWhere.invariant _ _ _ _ _ (fun s => History retention s) _ _ _ _ hrun
  · constructor
    · intro row hrow
      cases hrow
    · intro day hday
      cases hday
    · intro row hrow
      cases hrow
  · intro s a t h _ hact
    exact history_step h hact

end Spend
end CatFactory
