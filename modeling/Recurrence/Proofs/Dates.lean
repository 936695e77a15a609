import Mathlib.Algebra.Ring.Divisibility.Basic
import Mathlib.Data.Set.Card
import Recurrence.Calendar.Date
import Recurrence.Occurrence.Months
import Recurrence.Proofs.Places

/-!
# The dates of the calendar as an ordered set

Dates are ordered by their numbers. The calendar covers whole years, so every day of every month
of these years is a date, and the days of a month can be counted by counting numbers.

## Main definitions

- `Date.weekNumber` — the number of the week that holds a date, counted through all years
- `Date.monthDates` — the dates that share a month with a given one
- `Date.monthWeekdays` — those of them that also share the weekday

## Main statements

- `Date.exists_ofYmd?` — every day of the years that the calendar covers is a date
- `Date.weekday_eq_iff` — dates share their weekday exactly if they are whole weeks apart
- `Date.ncard_before_of_step`, `Date.ncard_after_of_step` — counting the dates of a month that
  lie a multiple of some days before or after a date
-/

namespace Recurrence

theorem daysBeforeMonth_add_monthLength_le (year : Int) (month : Nat) :
    (daysBeforeMonth year month + monthLength year month : Nat) ≤ yearLength year := by
  by_cases inYear : month ≤ 12
  · rw [← daysBeforeMonth_add_one, ← daysBeforeMonth_thirteen]
    exact_mod_cast daysBeforeMonth_mono year (show month + 1 ≤ 13 by omega)
  · match month, inYear with
    | month + 13, _ =>
      rw [← daysBeforeMonth_thirteen]
      simp [daysBeforeMonth, monthLength]

namespace Date

instance : LinearOrder Date where
  le_refl a := le_refl a.number
  le_trans _ _ _ first second := le_trans (le_iff.1 first) (le_iff.1 second)
  le_antisymm _ _ first second := ext (le_antisymm (le_iff.1 first) (le_iff.1 second))
  le_total a b := le_total a.number b.number
  lt_iff_le_not_ge a b := lt_iff_le_not_ge (a := a.number) (b := b.number)
  toDecidableLE := inferInstance

theorem number_injective : Function.Injective number := fun _ _ => ext

theorem exists_of_between {a b : Date} {n : Int} (lower : a.number ≤ n) (upper : n ≤ b.number) :
    ∃ date : Date, date.number = n :=
  ⟨⟨n, le_trans a.first_le lower, le_trans upper b.le_last⟩, rfl⟩

theorem year_bounds (date : Date) : firstYear ≤ date.year ∧ date.year ≤ lastYear := by
  have lower := date.first_le
  have upper := date.le_last
  have after := daysBeforeYear_lt date.number
  have before := le_daysBeforeYear date.number
  change daysBeforeYear date.year < _ at after
  change _ ≤ daysBeforeYear (date.year + 1) at before
  simp only [firstDayNumber] at lower
  simp only [lastDayNumber] at upper
  -- a year outside would put the date outside, as years do not overlap
  constructor
  · by_contra less
    have := daysBeforeYear_mono (show date.year + 1 ≤ firstYear by omega)
    omega
  · by_contra greater
    have := daysBeforeYear_mono (show lastYear + 1 ≤ date.year by omega)
    omega

/-- Every day of the years that the calendar covers is a date. -/
theorem exists_ofYmd? {year : Int} {month day : Nat} (years : firstYear ≤ year ∧ year ≤ lastYear)
    (days : 1 ≤ day ∧ day ≤ monthLength year month) :
    ∃ date, ofYmd? year month day = some date := by
  have yearStart := daysBeforeYear_mono years.1
  have yearEnd := daysBeforeYear_mono (show year + 1 ≤ lastYear + 1 by omega)
  rw [daysBeforeYear_add_one year] at yearEnd
  have monthEnd := daysBeforeMonth_add_monthLength_le year month
  have lower : firstDayNumber ≤ daysBeforeYear year + daysBeforeMonth year month + day := by
    simp only [firstDayNumber]
    omega
  have upper : daysBeforeYear year + daysBeforeMonth year month + day ≤ lastDayNumber := by
    simp only [lastDayNumber]
    omega
  refine ⟨⟨_, lower, upper⟩, ?_⟩
  rw [ofYmd?, if_pos days, ofNumber?_eq_some_iff]

theorem year_mono {a b : Date} (le : a ≤ b) : a.year ≤ b.year := by
  by_contra less
  have before := le_daysBeforeYear b.number
  have after := daysBeforeYear_lt a.number
  change _ ≤ daysBeforeYear (b.year + 1) at before
  change daysBeforeYear a.year < _ at after
  have := daysBeforeYear_mono (show b.year + 1 ≤ a.year by omega)
  rw [le_iff] at le
  omega

theorem month_bounds (date : Date) : 1 ≤ date.month ∧ date.month ≤ 12 :=
  monthOfYearDay_bounds _ _

theorem monthNumber_mono {a b : Date} (le : a ≤ b) : a.monthNumber ≤ b.monthNumber := by
  have years := year_mono le
  have monthOfA := a.month_bounds
  have monthOfB := b.month_bounds
  simp only [Date.monthNumber, Recurrence.monthNumber]
  by_cases sameYear : a.year = b.year
  · -- within one year a later month would begin after the end of an earlier one
    by_contra less
    have ordered := daysBeforeMonth_mono b.year (show b.month + 1 ≤ a.month by omega)
    rw [daysBeforeMonth_add_one] at ordered
    have numberOfA := a.number_eq
    have numberOfB := b.number_eq
    rw [sameYear] at numberOfA
    have dayOfA := a.day_bounds
    have dayOfB := b.day_bounds
    rw [le_iff] at le
    omega
  · omega

theorem weekday_index (date : Date) : (date.weekday.index : Int) = date.number % 7 := by
  rw [weekday, Weekday.index_ofIndex]
  omega

/-- Two dates have the same weekday exactly if they are whole weeks apart. -/
theorem weekday_eq_iff {a b : Date} : a.weekday = b.weekday ↔ (7 : Int) ∣ b.number - a.number := by
  have indexOfA := a.weekday_index
  have indexOfB := b.weekday_index
  rw [← Weekday.index_inj]
  omega

theorem daysUntil_weekday (a b : Date) :
    (a.weekday.daysUntil b.weekday : Int) = (b.number - a.number) % 7 := by
  have indexOfA := a.weekday_index
  have indexOfB := b.weekday_index
  simp only [Weekday.daysUntil]
  omega

/-- The number of the week that holds a date, counted through all years, where weeks begin on
    `weekStart`. -/
def weekNumber (weekStart : Weekday) (date : Date) : Int :=
  (date.number - weekStart.index) / 7

theorem weekNumber_mono (weekStart : Weekday) {a b : Date} (le : a ≤ b) :
    a.weekNumber weekStart ≤ b.weekNumber weekStart := by
  rw [le_iff] at le
  simp only [weekNumber]
  omega

/-- The week of a date begins on the day that its number gives. -/
theorem weekStart?_eq_some_iff {date first : Date} {weekStart : Weekday} :
    date.weekStart? weekStart = some first ↔
      first.number = 7 * date.weekNumber weekStart + weekStart.index := by
  have indexOfDate := date.weekday_index
  have indexOfStart := weekStart.index_lt
  rw [weekStart?, addDays?_eq_some_iff, weekNumber, Weekday.daysUntil]
  omega

/-- The dates of the month that holds `date`. -/
def monthDates (date : Date) : Set Date :=
  {other | other.year = date.year ∧ other.month = date.month}

/-- The dates of the month that holds `date` which have its weekday. -/
def monthWeekdays (date : Date) : Set Date :=
  {other ∈ date.monthDates | other.weekday = date.weekday}

/-- The dates of a month have the numbers from its first to its last day. -/
theorem exists_mem_monthDates_iff (date : Date) (n : Int) :
    (∃ other ∈ date.monthDates, other.number = n) ↔
      date.number - date.day < n ∧
        n ≤ date.number - date.day + monthLength date.year date.month := by
  have number := date.number_eq
  constructor
  · rintro ⟨other, ⟨sameYear, sameMonth⟩, rfl⟩
    have otherNumber := other.number_eq
    have otherDay := other.day_bounds
    rw [sameYear, sameMonth] at otherNumber otherDay
    omega
  · rintro ⟨lower, upper⟩
    obtain ⟨other, found⟩ :
        ∃ other, ofYmd? date.year date.month (n - (date.number - date.day)).toNat = some other :=
      exists_ofYmd? date.year_bounds (by omega)
    obtain ⟨sameYear, sameMonth, sameDay⟩ := ofYmd?_eq_some_iff.1 found
    refine ⟨other, ⟨sameYear, sameMonth⟩, ?_⟩
    have otherNumber := other.number_eq
    rw [sameYear, sameMonth, sameDay] at otherNumber
    omega

/-- A set of dates whose numbers are the first `n` values of an injective sequence has `n`
    elements. -/
theorem ncard_of_numbers {dates : Set Date} {n : Nat} {f : Nat → Int}
    (injective : Function.Injective f)
    (numbers : ∀ m, (∃ date ∈ dates, date.number = m) ↔ ∃ i < n, f i = m) : dates.ncard = n := by
  have image : number '' dates = f '' (Finset.range n : Set Nat) := by
    ext m
    simpa using numbers m
  rw [← Set.ncard_image_of_injective dates number_injective, image,
    Set.ncard_image_of_injective _ injective, Set.ncard_coe_finset, Finset.card_range]

/-- The positive multiples of `step` up to `limit`, listed from the least one on. -/
theorem exists_mul_eq_iff {step : Nat} (positive : 0 < step) (limit : Nat) (m : Int) :
    (∃ i < limit / step, (step * (i + 1 : Nat) : Int) = m) ↔
      (step : Int) ∣ m ∧ 0 < m ∧ m ≤ limit := by
  constructor
  · rintro ⟨i, less, rfl⟩
    have bound : step * (i + 1) ≤ limit := by
      rw [mul_comm]
      exact (Nat.le_div_iff_mul_le positive).1 less
    have above : 0 < step * (i + 1) := Nat.mul_pos positive i.succ_pos
    exact ⟨Int.dvd_mul_right _ _, by exact_mod_cast above, by exact_mod_cast bound⟩
  · rintro ⟨⟨quotient, rfl⟩, above, below⟩
    have quotient_pos : 0 < quotient := Int.pos_of_mul_pos_right above (by omega)
    obtain ⟨i, rfl⟩ : ∃ i : Nat, quotient = (i + 1 : Nat) := ⟨(quotient - 1).toNat, by omega⟩
    refine ⟨i, ?_, rfl⟩
    rw [Nat.lt_iff_add_one_le, Nat.le_div_iff_mul_le positive, mul_comm]
    exact_mod_cast below

/-- Dates at the distances that are multiples of `step` and at most `limit`, in one direction. -/
theorem ncard_of_distances {dates : Set Date} {step limit : Nat} (positive : 0 < step)
    {f : Int → Int} (injective : Function.Injective f)
    (distances : ∀ n, (∃ date ∈ dates, date.number = n) ↔
      ∃ m, ((step : Int) ∣ m ∧ 0 < m ∧ m ≤ limit) ∧ f m = n) : dates.ncard = limit / step := by
  refine ncard_of_numbers (f := fun i => f (step * (i + 1 : Nat))) ?_ fun n => ?_
  · intro i j same
    simpa [positive.ne'] using injective same
  · rw [distances]
    simp only [← exists_mul_eq_iff positive]
    constructor
    · rintro ⟨m, ⟨i, less, rfl⟩, same⟩
      exact ⟨i, less, same⟩
    · rintro ⟨i, less, same⟩
      exact ⟨_, ⟨i, less, rfl⟩, same⟩

/-- The dates of a month that lie a multiple of `step` days before a date. -/
theorem ncard_before_of_step (date : Date) {step : Nat} (positive : 0 < step) :
    {other ∈ date.monthDates | (step : Int) ∣ other.number - date.number ∧ other < date}.ncard =
      (date.day - 1) / step := by
  have dayBounds := date.day_bounds
  refine ncard_of_distances positive (f := fun m => date.number - m) ?_ fun n => ?_
  · intro i j same
    exact (Int.sub_right_inj _).1 same
  · have inMonth := exists_mem_monthDates_iff date n
    constructor
    · rintro ⟨other, ⟨member, divides, before⟩, rfl⟩
      rw [lt_iff] at before
      have bounds := inMonth.1 ⟨other, member, rfl⟩
      exact ⟨date.number - other.number, ⟨dvd_sub_comm.1 divides, by omega, by omega⟩, by omega⟩
    · rintro ⟨m, ⟨divides, above, below⟩, rfl⟩
      obtain ⟨other, member, number⟩ := inMonth.2 ⟨by omega, by omega⟩
      refine ⟨other, ⟨member, ?_, lt_iff.2 (by omega)⟩, number⟩
      rw [number, sub_sub_cancel_left]
      exact (dvd_neg).2 divides

/-- The dates of a month that lie a multiple of `step` days after a date. -/
theorem ncard_after_of_step (date : Date) {step : Nat} (positive : 0 < step) :
    {other ∈ date.monthDates | (step : Int) ∣ other.number - date.number ∧ date < other}.ncard =
      (monthLength date.year date.month - date.day) / step := by
  have dayBounds := date.day_bounds
  refine ncard_of_distances positive (f := fun m => date.number + m) ?_ fun n => ?_
  · intro i j same
    exact Int.add_left_cancel same
  · have inMonth := exists_mem_monthDates_iff date n
    constructor
    · rintro ⟨other, ⟨member, divides, after⟩, rfl⟩
      rw [lt_iff] at after
      have bounds := inMonth.1 ⟨other, member, rfl⟩
      exact ⟨other.number - date.number, ⟨divides, by omega, by omega⟩, by omega⟩
    · rintro ⟨m, ⟨divides, above, below⟩, rfl⟩
      obtain ⟨other, member, number⟩ := inMonth.2 ⟨by omega, by omega⟩
      refine ⟨other, ⟨member, ?_, lt_iff.2 (by omega)⟩, number⟩
      rw [number, add_sub_cancel_left]
      exact divides

/-- A number names a date among those of its month exactly if it names its day. -/
theorem namesIn_monthDates_iff {n : Int} {date : Date} :
    Position.NamesIn n date.monthDates date ↔
      Position.Names n (date.day - 1) (monthLength date.year date.month - date.day) := by
  have before := date.ncard_before_of_step Nat.one_pos
  have after := date.ncard_after_of_step Nat.one_pos
  simp only [Nat.cast_one, one_dvd, true_and, Nat.div_one] at before after
  rw [Position.NamesIn, before, after]

/-- A number names a date among those of its month with its weekday exactly if it names the
    number of whole weeks in front of it or behind it. -/
theorem namesIn_monthWeekdays_iff {n : Int} {date : Date} :
    Position.NamesIn n date.monthWeekdays date ↔
      Position.Names n ((date.day - 1) / 7)
        ((monthLength date.year date.month - date.day) / 7) := by
  have same (other : Date) :
      other.weekday = date.weekday ↔ ((7 : Nat) : Int) ∣ other.number - date.number := by
    rw [eq_comm, weekday_eq_iff]
    rfl
  have before := date.ncard_before_of_step (show 0 < 7 by decide)
  have after := date.ncard_after_of_step (show 0 < 7 by decide)
  simp only [← same, ← and_assoc] at before after
  rw [Position.NamesIn, ← before, ← after]
  rfl

end Date

end Recurrence
