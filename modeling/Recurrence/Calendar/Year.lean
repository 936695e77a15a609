/-!
# Years of the proleptic Gregorian calendar

Days are numbered through all of time: day 1 is 1 January of year 1, day 0 the day before it.
This file fixes where each year begins in that numbering and finds the year that holds a day.
-/

namespace Recurrence

/-- A leap year is divisible by four, and by four hundred if it closes a century. -/
def IsLeapYear (year : Int) : Prop :=
  year % 4 = 0 ∧ (year % 100 ≠ 0 ∨ year % 400 = 0)

instance (year : Int) : Decidable (IsLeapYear year) :=
  inferInstanceAs (Decidable (_ ∧ _))

/-- The number of days in a year. -/
def yearLength (year : Int) : Int :=
  if IsLeapYear year then 366 else 365

/-- The number of the last day before `year`; negative for the years before year 1. -/
def daysBeforeYear (year : Int) : Int :=
  365 * (year - 1) + (year - 1) / 4 - (year - 1) / 100 + (year - 1) / 400

/-- Consecutive years begin one year length apart. -/
theorem daysBeforeYear_add_one (year : Int) :
    daysBeforeYear (year + 1) = daysBeforeYear year + yearLength year := by
  by_cases h : IsLeapYear year
  · simp only [yearLength, h, if_true]
    simp only [IsLeapYear] at h
    simp only [daysBeforeYear]
    omega
  · simp only [yearLength, h, if_false]
    simp only [IsLeapYear] at h
    simp only [daysBeforeYear]
    omega

theorem daysBeforeYear_mono {a b : Int} (h : a ≤ b) : daysBeforeYear a ≤ daysBeforeYear b := by
  simp only [daysBeforeYear]
  omega

/-- The year that holds the day numbered `n`. Four hundred years have 146097 days, which puts
    the mean year at most one year away from the true one. -/
def yearOfDay (n : Int) : Int :=
  let mean := (n - 1) * 400 / 146097 + 1
  if n ≤ daysBeforeYear mean then mean - 1
  else if daysBeforeYear (mean + 1) < n then mean + 1
  else mean

theorem daysBeforeYear_lt (n : Int) : daysBeforeYear (yearOfDay n) < n := by
  simp only [yearOfDay]
  split
  · simp only [daysBeforeYear]
    omega
  · split <;> omega

theorem le_daysBeforeYear (n : Int) : n ≤ daysBeforeYear (yearOfDay n + 1) := by
  simp only [yearOfDay]
  split
  · simp only [daysBeforeYear] at *
    omega
  · split
    · simp only [daysBeforeYear] at *
      omega
    · omega

/-- A year that holds a day is the one that `yearOfDay` gives. -/
theorem yearOfDay_eq {n year : Int} (lower : daysBeforeYear year < n)
    (upper : n ≤ daysBeforeYear (year + 1)) : yearOfDay n = year := by
  have lower' := daysBeforeYear_lt n
  have upper' := le_daysBeforeYear n
  by_cases before : yearOfDay n + 1 ≤ year
  · have := daysBeforeYear_mono before
    omega
  · by_cases after : year + 1 ≤ yearOfDay n
    · have := daysBeforeYear_mono after
      omega
    · omega

end Recurrence
