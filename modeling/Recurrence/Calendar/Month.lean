import Recurrence.Calendar.Year

/-!
# Months

Months are numbered from 1 to 12. A number outside that range names no month: it has no days.
-/

namespace Recurrence

/-- The number of days in month `month` of `year`; none if there is no such month. -/
def monthLength (year : Int) : Nat → Nat
  | 1 | 3 | 5 | 7 | 8 | 10 | 12 => 31
  | 4 | 6 | 9 | 11 => 30
  | 2 => if IsLeapYear year then 29 else 28
  | _ => 0

/-- The number of days of `year` before its month `month`. -/
def daysBeforeMonth (year : Int) (month : Nat) : Nat :=
  let leapDay := if IsLeapYear year then 1 else 0
  match month with
  | 0 | 1 => 0
  | 2 => 31
  | 3 => 59 + leapDay
  | 4 => 90 + leapDay
  | 5 => 120 + leapDay
  | 6 => 151 + leapDay
  | 7 => 181 + leapDay
  | 8 => 212 + leapDay
  | 9 => 243 + leapDay
  | 10 => 273 + leapDay
  | 11 => 304 + leapDay
  | 12 => 334 + leapDay
  | _ => 365 + leapDay

/-- The month that holds the day numbered `n` of `year`, counted from 1: the first month that
    does not end before that day. -/
def monthOfYearDay (year : Int) (n : Nat) : Nat :=
  ((List.range' 1 12).find? fun month => n ≤ daysBeforeMonth year (month + 1)).getD 12

theorem monthLength_le (year : Int) (month : Nat) : monthLength year month ≤ 31 := by
  simp only [monthLength]
  split <;> (try split) <;> omega

theorem month_of_monthLength_pos {year : Int} {month : Nat} (h : 0 < monthLength year month) :
    1 ≤ month ∧ month ≤ 12 := by
  simp only [monthLength] at h
  split at h <;> omega

theorem daysBeforeMonth_add_one (year : Int) (month : Nat) :
    daysBeforeMonth year (month + 1) =
      daysBeforeMonth year month + monthLength year month := by
  by_cases leap : IsLeapYear year
  all_goals
    match month with
    | 0 | 1 | 2 | 3 | 4 | 5 | 6 | 7 | 8 | 9 | 10 | 11 | 12 =>
      simp [daysBeforeMonth, monthLength, leap]
    | n + 13 => simp [daysBeforeMonth, monthLength, leap]

theorem daysBeforeMonth_mono (year : Int) {a b : Nat} (h : a ≤ b) :
    daysBeforeMonth year a ≤ daysBeforeMonth year b := by
  induction h with
  | refl => exact Nat.le_refl _
  | step _ ih =>
    rw [Nat.succ_eq_add_one, daysBeforeMonth_add_one]
    omega

/-- A year has the days of its twelve months. -/
theorem daysBeforeMonth_thirteen (year : Int) :
    (daysBeforeMonth year 13 : Int) = yearLength year := by
  by_cases leap : IsLeapYear year <;> simp [daysBeforeMonth, yearLength, leap]

theorem monthOfYearDay_bounds (year : Int) (n : Nat) :
    1 ≤ monthOfYearDay year n ∧ monthOfYearDay year n ≤ 12 := by
  simp only [monthOfYearDay]
  cases h : (List.range' 1 12).find? fun month => n ≤ daysBeforeMonth year (month + 1) with
  | none => simp
  | some month =>
    have := List.mem_of_find?_eq_some h
    simp at this ⊢
    omega

/-- A day of the year comes after the days before its month. -/
theorem daysBeforeMonth_lt (year : Int) {n : Nat} (h : 0 < n) :
    daysBeforeMonth year (monthOfYearDay year n) < n := by
  simp only [monthOfYearDay]
  cases found : (List.range' 1 12).find? fun month => n ≤ daysBeforeMonth year (month + 1) with
  | none =>
    have := List.find?_eq_none.1 found 11 (by simp)
    simpa using this
  | some month =>
    obtain ⟨-, -, earlier⟩ := List.find?_range'_eq_some.1 found
    match month with
    | 0 | 1 => simpa [daysBeforeMonth] using h
    | m + 2 => simpa using earlier (m + 1) (by omega) (by omega)

/-- A day of the year comes no later than the last day of its month. -/
theorem le_daysBeforeMonth {year : Int} {n : Nat} (h : (n : Int) ≤ yearLength year) :
    n ≤ daysBeforeMonth year (monthOfYearDay year n + 1) := by
  simp only [monthOfYearDay]
  cases found : (List.range' 1 12).find? fun month => n ≤ daysBeforeMonth year (month + 1) with
  | none =>
    rw [← daysBeforeMonth_thirteen] at h
    exact Int.ofNat_le.1 h
  | some month => simpa using List.find?_some found

/-- A month that holds a day of the year is the one that `monthOfYearDay` gives. -/
theorem monthOfYearDay_eq {year : Int} {n month : Nat} (bounds : 1 ≤ month ∧ month ≤ 12)
    (lower : daysBeforeMonth year month < n) (upper : n ≤ daysBeforeMonth year (month + 1)) :
    monthOfYearDay year n = month := by
  have found : (List.range' 1 12).find? (fun m => n ≤ daysBeforeMonth year (m + 1)) =
      some month := by
    refine List.find?_range'_eq_some.2 ⟨by simpa using upper, by simp; omega, ?_⟩
    intro earlier _ before
    have := daysBeforeMonth_mono year (show earlier + 1 ≤ month from before)
    simp
    omega
  simp [monthOfYearDay, found]

end Recurrence
