import CatFactory.Foundation.BoundedSearch
import Mathlib.Order.Bounds.Basic
import Mathlib.Order.ConditionallyCompleteLattice.Basic
import Mathlib.Data.Int.ConditionallyCompleteOrder

/-!
# The cadence of a recurring pipeline

A schedule fires every `intervalHours`, at a whole hour inside its window of
weekdays and hours.  The local time of an instant comes from the platform; here
it is any function, and a zone is one that leaves out no hour of the week in
eight days but those a clock change skips.
-/

namespace CatFactory
namespace Recurring

open Foundation

structure LocalParts where
  weekday : Fin 7
  hour : Fin 24
deriving DecidableEq

/-- A recurrence that the wire schema accepts. -/
structure Recurrence where
  intervalHours : Nat
  weekdays : List (Fin 7)
  windowStartHour : Option (Fin 24)
  windowEndHour : Option (Fin 24)
  timezone : String
  interval_accepted : 1 ≤ intervalHours ∧ intervalHours ≤ 24 * 365

def HOUR_MS : Int := 60 * 60 * 1000

def weekdayAllowed (recurrence : Recurrence) (weekday : Fin 7) : Bool :=
  recurrence.weekdays.isEmpty || weekday ∈ recurrence.weekdays

def hourAllowed (recurrence : Recurrence) (hour : Fin 24) : Bool :=
  if recurrence.windowStartHour.isNone && recurrence.windowEndHour.isNone then true
  else
    let lo := (recurrence.windowStartHour.map Fin.val).getD 0
    let hi := (recurrence.windowEndHour.map Fin.val).getD 24
    if lo < hi then decide (lo ≤ hour.val) && decide (hour.val < hi)
    else decide (lo ≤ hour.val) || decide (hour.val < hi)

section Zone

variable (localParts : Int -> String -> LocalParts)

def isWithinWindow (ms : Int) (recurrence : Recurrence) : Bool :=
  weekdayAllowed recurrence (localParts ms recurrence.timezone).weekday &&
    hourAllowed recurrence (localParts ms recurrence.timezone).hour

/-- `Math.ceil(fromMs / HOUR_MS)` -/
def ceilHour (fromMs : Int) : Int :=
  -(-fromMs / HOUR_MS)

def nextEligible (fromMs : Int) (recurrence : Recurrence) : Int :=
  stepUntil (fun candidate => isWithinWindow localParts candidate recurrence)
    (fun candidate => candidate + HOUR_MS) (24 * 366) (ceilHour fromMs * HOUR_MS)

def computeNextRun (fromMs : Int) (recurrence : Recurrence) : Int :=
  nextEligible localParts (fromMs + recurrence.intervalHours * HOUR_MS) recurrence

/-- The instant after so many fires. -/
def nthRun (recurrence : Recurrence) (fromMs : Int) : Nat -> Int
  | 0 => fromMs
  | count + 1 => computeNextRun localParts (nthRun recurrence fromMs count) recurrence

end Zone

/-!
## The window of a recurrence
-/

/-- The hours of a window that starts at its end, or past it, wrap: none is empty. -/
theorem hourAllowed_start (recurrence : Recurrence) :
    hourAllowed recurrence (recurrence.windowStartHour.getD 0) = true := by
  unfold hourAllowed
  cases recurrence.windowStartHour with
  | none =>
      cases recurrence.windowEndHour with
      | none => rfl
      | some last => simp
  | some first =>
      cases recurrence.windowEndHour with
      | none => simp
      | some last => simp

/-- Every accepted recurrence allows some hour of the week. -/
theorem exists_allowed (recurrence : Recurrence) :
    exists parts : LocalParts, weekdayAllowed recurrence parts.weekday = true ∧
      hourAllowed recurrence parts.hour = true := by
  unfold weekdayAllowed
  cases recurrence.weekdays with
  | nil => exact ⟨⟨0, _⟩, rfl, hourAllowed_start recurrence⟩
  | cons weekday rest =>
      exact ⟨⟨weekday, _⟩, by simp, hourAllowed_start recurrence⟩

/-!
## Whole hours
-/

theorem hour_pos : 0 < HOUR_MS := by
  decide

/-- An hour is at or after an instant exactly when it is at or after its rounded hour. -/
theorem ceilHour_le_iff (fromMs hour : Int) :
    ceilHour fromMs ≤ hour <-> fromMs ≤ hour * HOUR_MS := by
  unfold ceilHour
  constructor
  · intro h
    have hquotient := (Int.le_ediv_iff_mul_le hour_pos).mp (Int.neg_le_of_neg_le h)
    rw [Int.neg_mul] at hquotient
    exact Int.neg_le_neg_iff.mp hquotient
  · intro h
    apply Int.neg_le_of_neg_le
    apply (Int.le_ediv_iff_mul_le hour_pos).mpr
    rw [Int.neg_mul]
    exact Int.neg_le_neg h

theorem iterate_hour (hour : Int) (k : Nat) :
    (fun candidate => candidate + HOUR_MS)^[k] (hour * HOUR_MS) = (hour + k) * HOUR_MS := by
  induction k with
  | zero => simp
  | succ k ih =>
      rw [Function.iterate_succ_apply', ih, Int.natCast_succ, ← Int.add_assoc,
        Int.add_mul (hour + k), Int.one_mul]

/-!
## Clock changes
-/

/-- What is known of a zone, on whole hours: in eight days it visits each hour of the week but
those that a clock change skips, and in no year are there 45 hours with such a change. -/
structure ClockZone (zone : Int -> LocalParts) (skips : Int -> LocalParts -> Prop) : Prop where
  visits : forall start parts,
    (exists hour, start ≤ hour ∧ hour < start + 8 * 24 ∧ zone hour = parts) ∨
      (exists hour, start ≤ hour ∧ hour < start + 8 * 24 ∧ skips hour parts)
  changes : forall start, exists hours : Finset Int, hours.card < 45 ∧
    forall hour parts, start ≤ hour -> hour < start + 24 * 366 -> skips hour parts -> hour ∈ hours

/-- A year visits every hour of the week: one of its 45 stretches of eight days is free of
clock changes. -/
theorem ClockZone.visits_year {zone : Int -> LocalParts} {skips : Int -> LocalParts -> Prop}
    (hzone : ClockZone zone skips) (start : Int) (parts : LocalParts) :
    exists k : Nat, k < 24 * 366 ∧ zone (start + k) = parts := by
  rcases hzone.changes start with ⟨hours, hfew, hchanges⟩
  have hwidth : 0 < 8 * 24 := by decide
  rcases exists_unmarked_window hwidth hours hfew start with ⟨window, hwindow, hfree⟩
  rcases hzone.visits (start + window * (8 * 24)) parts with
    ⟨hour, hfrom, hto, hparts⟩ | ⟨hour, hfrom, hto, hskips⟩
  · refine ⟨(hour - start).toNat, by omega, ?_⟩
    have hoffset : start + ((hour - start).toNat : Int) = hour := by omega
    rw [hoffset]
    exact hparts
  · have hmark := hchanges hour parts (by omega) (by omega) hskips
    exact absurd ⟨by omega, by omega⟩ (hfree hour hmark)

/-!
## The next run
-/

section Zone

variable {localParts : Int -> String -> LocalParts} {recurrence : Recurrence}

/-- The whole hours a run may be put on. -/
def eligibleHours (localParts : Int -> String -> LocalParts) (recurrence : Recurrence)
    (fromMs : Int) : Set Int :=
  { hour | fromMs ≤ hour * HOUR_MS ∧
    isWithinWindow localParts (hour * HOUR_MS) recurrence = true }

theorem isWithinWindow_of_parts {parts : LocalParts} {ms : Int}
    (hday : weekdayAllowed recurrence parts.weekday = true)
    (hhour : hourAllowed recurrence parts.hour = true)
    (hparts : localParts ms recurrence.timezone = parts) :
    isWithinWindow localParts ms recurrence = true := by
  rw [isWithinWindow, hparts, hday, hhour]
  rfl

/-- The search ends at the first eligible hour, inside its bound. -/
theorem nextEligible_isLeast {skips : Int -> LocalParts -> Prop}
    (hzone : ClockZone (fun hour => localParts (hour * HOUR_MS) recurrence.timezone) skips)
    (fromMs : Int) :
    exists hour, nextEligible localParts fromMs recurrence = hour * HOUR_MS ∧
      IsLeast (eligibleHours localParts recurrence fromMs) hour ∧
      hour < ceilHour fromMs + 24 * 366 := by
  rcases exists_allowed recurrence with ⟨parts, hday, hhour⟩
  rcases hzone.visits_year (ceilHour fromMs) parts with ⟨visit, hvisit, hparts⟩
  have hhit : exists k, k < 24 * 366 ∧ isWithinWindow localParts
      ((fun candidate => candidate + HOUR_MS)^[k] (ceilHour fromMs * HOUR_MS)) recurrence = true := by
    refine ⟨visit, hvisit, ?_⟩
    rw [iterate_hour]
    exact isWithinWindow_of_parts hday hhour hparts
  rcases @stepUntil_first _ (fun candidate => isWithinWindow localParts candidate recurrence)
    _ _ _ hhit with ⟨k, hk, hresult, hwithin, hfirst⟩
  simp only [iterate_hour] at hresult hwithin hfirst
  refine ⟨ceilHour fromMs + k, hresult, ⟨⟨?_, hwithin⟩, ?_⟩, by omega⟩
  · apply (ceilHour_le_iff fromMs _).mp
    omega
  · intro other hother
    have hfrom := (ceilHour_le_iff fromMs other).mpr hother.left
    by_contra hless
    have hearlier := hfirst (other - ceilHour fromMs).toNat (by omega)
    have hoffset : ceilHour fromMs + ((other - ceilHour fromMs).toNat : Int) = other := by omega
    rw [hoffset] at hearlier
    exact Bool.false_ne_true (hearlier.symm.trans hother.right)

theorem interval_pos (recurrence : Recurrence) : 0 < recurrence.intervalHours * HOUR_MS :=
  Int.mul_pos (Int.natCast_pos.mpr recurrence.interval_accepted.left) hour_pos

/-- The next run is the first eligible whole hour an interval later, found inside the bound of
the search; and the runs of a schedule go forward, each eligible and an interval from the last. -/
theorem computeNextRun_law (localParts : Int -> String -> LocalParts) (recurrence : Recurrence)
    (skips : Int -> LocalParts -> Prop)
    (hzone : ClockZone (fun hour => localParts (hour * HOUR_MS) recurrence.timezone) skips) :
    (forall fromMs, exists hour, computeNextRun localParts fromMs recurrence = hour * HOUR_MS ∧
      IsLeast (eligibleHours localParts recurrence (fromMs + recurrence.intervalHours * HOUR_MS))
        hour ∧
      hour < ceilHour (fromMs + recurrence.intervalHours * HOUR_MS) + 24 * 366) ∧
    (forall fromMs, StrictMono (nthRun localParts recurrence fromMs) ∧
      forall count,
        isWithinWindow localParts (nthRun localParts recurrence fromMs (count + 1))
          recurrence = true ∧
        nthRun localParts recurrence fromMs count + recurrence.intervalHours * HOUR_MS ≤
          nthRun localParts recurrence fromMs (count + 1)) := by
  have hnext : forall fromMs,
      isWithinWindow localParts (computeNextRun localParts fromMs recurrence) recurrence = true ∧
        fromMs + recurrence.intervalHours * HOUR_MS ≤
          computeNextRun localParts fromMs recurrence := by
    intro fromMs
    rcases nextEligible_isLeast hzone (fromMs + recurrence.intervalHours * HOUR_MS) with
      ⟨hour, hresult, hleast, _⟩
    rw [computeNextRun, hresult]
    exact ⟨hleast.left.right, hleast.left.left⟩
  constructor
  · intro fromMs
    exact nextEligible_isLeast hzone _
  · intro fromMs
    constructor
    · apply strictMono_nat_of_lt_succ
      intro count
      exact (Int.lt_add_of_pos_right _ (interval_pos recurrence)).trans_le (hnext _).right
    · intro count
      exact hnext _

end Zone

/-- The hour of the week that a whole hour is in `UTC`: the first was on a Thursday. -/
def utcHour (hour : Int) : LocalParts :=
  { weekday := ⟨((hour / 24 + 4) % 7).toNat, by omega⟩
    hour := ⟨(hour % 24).toNat, by omega⟩ }

theorem utcHour_visits (start : Int) (parts : LocalParts) :
    exists hour, start ≤ hour ∧ hour < start + 168 ∧ utcHour hour = parts := by
  have hday := parts.weekday.isLt
  have hhour := parts.hour.isLt
  refine ⟨start + ((parts.weekday * 24 + parts.hour - 96 - start) % 168), by omega, by omega, ?_⟩
  have hweekday : (((start + ((parts.weekday * 24 + parts.hour - 96 - start) % 168)) / 24 + 4) %
      7).toNat = parts.weekday.val := by
    omega
  have hhours : ((start + ((parts.weekday * 24 + parts.hour - 96 - start) % 168)) % 24).toNat =
      parts.hour.val := by
    omega
  simp only [utcHour, hweekday, hhours]

/-- The clocks go forward on the morning of 29 March 2026. -/
def summerTime : Int := 492985

/-- An hour of a zone that goes over to summer time and stays there. -/
def londonHour (hour : Int) : LocalParts :=
  if hour < summerTime then utcHour hour else utcHour (hour + 1)

def londonParts (ms : Int) (_timezone : String) : LocalParts :=
  londonHour (ms / HOUR_MS)

/-- One hour of the week is left out, by the change of the clock. -/
theorem london_clockZone (timezone : String) :
    ClockZone (fun hour => londonParts (hour * HOUR_MS) timezone)
      (fun hour parts => hour = summerTime ∧ parts = utcHour summerTime) := by
  have hhour : forall hour : Int, londonParts (hour * HOUR_MS) timezone = londonHour hour := by
    intro hour
    rw [londonParts, Int.mul_ediv_cancel _ (Int.ne_of_gt hour_pos)]
  constructor
  · intro start parts
    by_cases hlate : summerTime ≤ start
    · rcases utcHour_visits (start + 1) parts with ⟨hour, hfrom, hto, hparts⟩
      refine Or.inl ⟨hour - 1, by omega, by omega, ?_⟩
      rw [hhour, londonHour, if_neg (by omega), Int.sub_add_cancel, hparts]
    · rcases utcHour_visits start parts with ⟨hour, hfrom, hto, hparts⟩
      rcases Int.lt_trichotomy hour summerTime with hbefore | hchange | hafter
      · refine Or.inl ⟨hour, hfrom, by omega, ?_⟩
        rw [hhour, londonHour, if_pos hbefore, hparts]
      · exact Or.inr ⟨hour, hfrom, by omega, hchange, hchange ▸ hparts.symm⟩
      · refine Or.inl ⟨hour - 1, by omega, by omega, ?_⟩
        rw [hhour, londonHour, if_neg (by omega), Int.sub_add_cancel, hparts]
  · intro start
    refine ⟨{summerTime}, by decide, ?_⟩
    intro hour parts _ _ hskips
    exact Finset.mem_singleton.mpr hskips.left

/-- Saturdays and Sundays, from ten at night to six in the morning. -/
def weekendNights : Recurrence :=
  { intervalHours := 6
    weekdays := [6, 0]
    windowStartHour := some 22
    windowEndHour := some 6
    timezone := "Europe/London"
    interval_accepted := by decide }

theorem computeNextRun_law_nights :
    (exists hour, computeNextRun londonParts (summerTime * HOUR_MS) weekendNights =
        hour * HOUR_MS ∧
      IsLeast (eligibleHours londonParts weekendNights
        (summerTime * HOUR_MS + weekendNights.intervalHours * HOUR_MS)) hour ∧
      hour < ceilHour (summerTime * HOUR_MS + weekendNights.intervalHours * HOUR_MS) +
        24 * 366) ∧
    StrictMono (nthRun londonParts weekendNights (summerTime * HOUR_MS)) ∧
      forall count,
        isWithinWindow londonParts
          (nthRun londonParts weekendNights (summerTime * HOUR_MS) (count + 1)) weekendNights =
            true ∧
        nthRun londonParts weekendNights (summerTime * HOUR_MS) count +
            weekendNights.intervalHours * HOUR_MS ≤
          nthRun londonParts weekendNights (summerTime * HOUR_MS) (count + 1) :=
  have hlaw := computeNextRun_law londonParts weekendNights _
    (london_clockZone weekendNights.timezone)
  ⟨hlaw.left (summerTime * HOUR_MS), hlaw.right (summerTime * HOUR_MS)⟩

end Recurring
end CatFactory
