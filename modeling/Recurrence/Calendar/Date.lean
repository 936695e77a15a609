import Recurrence.Calendar.Month
import Recurrence.Calendar.Weekday

/-!
# Dates

A date is the number of a day, kept inside the range of years that the library covers. All
arithmetic on dates is arithmetic on these numbers; year, month and day of the month are
computed from them.
-/

namespace Recurrence

/-- The first year of the calendar. -/
def firstYear : Int := -262143

/-- The last year of the calendar. -/
def lastYear : Int := 262142

/-- The number of 1 January of the first year. -/
def firstDayNumber : Int := daysBeforeYear firstYear + 1

/-- The number of 31 December of the last year. -/
def lastDayNumber : Int := daysBeforeYear (lastYear + 1)

/-- A day of the calendar, given by its number. Day 1 is 1 January of year 1. -/
structure Date where
  number : Int
  first_le : firstDayNumber ≤ number
  le_last : number ≤ lastDayNumber
  deriving DecidableEq

namespace Date

theorem ext {a b : Date} (h : a.number = b.number) : a = b := by
  cases a
  cases b
  cases h
  rfl

instance : LE Date := ⟨fun a b => a.number ≤ b.number⟩

instance : LT Date := ⟨fun a b => a.number < b.number⟩

instance (a b : Date) : Decidable (a ≤ b) :=
  inferInstanceAs (Decidable (a.number ≤ b.number))

instance (a b : Date) : Decidable (a < b) :=
  inferInstanceAs (Decidable (a.number < b.number))

theorem le_iff {a b : Date} : a ≤ b ↔ a.number ≤ b.number := Iff.rfl

theorem lt_iff {a b : Date} : a < b ↔ a.number < b.number := Iff.rfl

/-- The date numbered `n`, if the calendar holds that day. -/
def ofNumber? (n : Int) : Option Date :=
  if h : firstDayNumber ≤ n ∧ n ≤ lastDayNumber then some ⟨n, h.1, h.2⟩ else none

theorem ofNumber?_eq_some_iff {n : Int} {date : Date} :
    ofNumber? n = some date ↔ date.number = n := by
  simp only [ofNumber?]
  constructor
  · intro h
    split at h
    · cases h
      rfl
    · cases h
  · rintro rfl
    simp [date.first_le, date.le_last]

/-- The date of day `day` of month `month` of `year`, if there is one and the calendar holds it. -/
def ofYmd? (year : Int) (month day : Nat) : Option Date :=
  if 1 ≤ day ∧ day ≤ monthLength year month then
    ofNumber? (daysBeforeYear year + daysBeforeMonth year month + day)
  else none

/-- The year of a date. -/
def year (date : Date) : Int :=
  yearOfDay date.number

/-- The place of a date in its year, counted from 1. -/
def yearDay (date : Date) : Nat :=
  (date.number - daysBeforeYear date.year).toNat

/-- The month of a date, from 1 to 12. -/
def month (date : Date) : Nat :=
  monthOfYearDay date.year date.yearDay

/-- The day of the month of a date, counted from 1. -/
def day (date : Date) : Nat :=
  date.yearDay - daysBeforeMonth date.year date.month

/-- The day of the week of a date. Day 7 is a Sunday. -/
def weekday (date : Date) : Weekday :=
  .ofIndex (date.number % 7).toNat

/-- The date `n` days later, or earlier for negative `n`, if the calendar holds it. -/
def addDays? (date : Date) (n : Int) : Option Date :=
  ofNumber? (date.number + n)

/-- The first day of the week of a date, where weeks begin on `weekStart`. -/
def weekStart? (date : Date) (weekStart : Weekday) : Option Date :=
  date.addDays? (-(weekStart.daysUntil date.weekday))

theorem addDays?_eq_some_iff {date later : Date} {n : Int} :
    date.addDays? n = some later ↔ later.number = date.number + n :=
  ofNumber?_eq_some_iff

theorem yearDay_bounds (date : Date) :
    daysBeforeYear date.year + date.yearDay = date.number ∧
      1 ≤ date.yearDay ∧ (date.yearDay : Int) ≤ yearLength date.year := by
  have lower := daysBeforeYear_lt date.number
  have upper := le_daysBeforeYear date.number
  rw [daysBeforeYear_add_one] at upper
  simp only [yearDay, year]
  omega

theorem day_bounds (date : Date) :
    daysBeforeMonth date.year date.month + date.day = date.yearDay ∧
      1 ≤ date.day ∧ date.day ≤ monthLength date.year date.month := by
  obtain ⟨-, positive, le_length⟩ := date.yearDay_bounds
  have lower := daysBeforeMonth_lt date.year positive
  have upper := le_daysBeforeMonth le_length
  rw [daysBeforeMonth_add_one] at upper
  simp only [day, month]
  omega

/-- Year, month and day of the month determine the number of a date. -/
theorem number_eq (date : Date) :
    date.number =
      daysBeforeYear date.year + daysBeforeMonth date.year date.month + date.day := by
  have := date.yearDay_bounds
  have := date.day_bounds
  omega

/-- The date with a given year, month and day of the month is the one that shows them. -/
theorem ofYmd?_eq_some_iff {year : Int} {month day : Nat} {date : Date} :
    ofYmd? year month day = some date ↔
      date.year = year ∧ date.month = month ∧ date.day = day := by
  simp only [ofYmd?]
  constructor
  · intro h
    split at h
    case isFalse => cases h
    case isTrue inMonth =>
      rw [ofNumber?_eq_some_iff] at h
      have monthBounds : 1 ≤ month ∧ month ≤ 12 :=
        month_of_monthLength_pos (Nat.lt_of_lt_of_le inMonth.1 inMonth.2)
      have monthEnd := daysBeforeMonth_add_one year month
      have inYear := daysBeforeMonth_mono year (show month + 1 ≤ 13 by omega)
      have yearEnd := daysBeforeYear_add_one year
      have twelve := daysBeforeMonth_thirteen year
      have year_eq : date.year = year := yearOfDay_eq (by omega) (by omega)
      have bounds := date.yearDay_bounds
      rw [year_eq] at bounds
      have month_eq : date.month = month := by
        simp only [Date.month]
        rw [year_eq]
        exact monthOfYearDay_eq monthBounds (by omega) (by omega)
      refine ⟨year_eq, month_eq, ?_⟩
      have := date.day_bounds
      rw [year_eq, month_eq] at this
      omega
  · rintro ⟨rfl, rfl, rfl⟩
    rw [if_pos date.day_bounds.2, ofNumber?_eq_some_iff]
    exact date.number_eq

end Date

end Recurrence
