import Recurrence.Proofs.NextDate

/-!
# The cycle of the calendar

Leap years follow a rule that repeats after four hundred years, and four hundred years have 146097
days, which is a whole number of weeks. So the dates of a rule repeat as well: moving a date by
whole cycles keeps its month, its day and its weekday, and with them all that a rule asks for.
-/

namespace Recurrence

/-- The number of days in four hundred years. -/
def daysPerCycle : Int := 146097

theorem daysBeforeYear_add_cycles (year n : Int) :
    daysBeforeYear (year + 400 * n) = daysBeforeYear year + daysPerCycle * n := by
  simp only [daysBeforeYear, daysPerCycle]
  omega

theorem isLeapYear_add_cycles (year n : Int) : IsLeapYear (year + 400 * n) ↔ IsLeapYear year := by
  simp only [IsLeapYear]
  omega

theorem monthLength_add_cycles (year n : Int) (month : Nat) :
    monthLength (year + 400 * n) month = monthLength year month := by
  simp only [monthLength, isLeapYear_add_cycles]

theorem daysBeforeMonth_add_cycles (year n : Int) (month : Nat) :
    daysBeforeMonth (year + 400 * n) month = daysBeforeMonth year month := by
  simp only [daysBeforeMonth, isLeapYear_add_cycles]

namespace Date

variable {a b : Date} {n : Int}

theorem ofYmd?_of_cycles (apart : b.number = a.number + daysPerCycle * n) :
    ofYmd? (a.year + 400 * n) a.month a.day = some b := by
  have days := a.day_bounds.2
  rw [ofYmd?, monthLength_add_cycles, if_pos days, ofNumber?_eq_some_iff,
    daysBeforeYear_add_cycles, daysBeforeMonth_add_cycles, apart, a.number_eq]
  omega

/-- Dates that are whole cycles apart differ in their year only. -/
theorem parts_of_cycles (apart : b.number = a.number + daysPerCycle * n) :
    b.year = a.year + 400 * n ∧ b.month = a.month ∧ b.day = a.day ∧ b.weekday = a.weekday := by
  obtain ⟨year, month, day⟩ := ofYmd?_eq_some_iff.1 (ofYmd?_of_cycles apart)
  refine ⟨year, month, day, weekday_eq_iff.2 ?_⟩
  simp only [apart, daysPerCycle]
  omega

/-- The calendar covers whole years, so a date can be moved by cycles to any year that it has. -/
theorem exists_of_cycles (date : Date) (n : Int)
    (years : firstYear ≤ date.year + 400 * n ∧ date.year + 400 * n ≤ lastYear) :
    ∃ other : Date, other.number = date.number + daysPerCycle * n := by
  have days := date.day_bounds.2
  rw [← monthLength_add_cycles date.year n] at days
  obtain ⟨other, found⟩ := exists_ofYmd? years days
  refine ⟨other, ?_⟩
  rw [ofYmd?, if_pos days, ofNumber?_eq_some_iff, daysBeforeYear_add_cycles,
    daysBeforeMonth_add_cycles] at found
  rw [found, date.number_eq]
  omega

/-- Two sets of dates have equally many elements if each one becomes the other by moving all dates
    by the same number of days. -/
theorem ncard_eq_of_shift {s t : Set Date} (shift : Int)
    (forth : ∀ date ∈ s, ∃ moved ∈ t, moved.number = date.number + shift)
    (back : ∀ moved ∈ t, ∃ date ∈ s, moved.number = date.number + shift) :
    s.ncard = t.ncard := by
  have injective : Function.Injective fun date : Date => date.number + shift := by
    intro a b same
    exact number_injective ((Int.add_left_inj _).1 same)
  have image : (fun date : Date => date.number + shift) '' s = number '' t := by
    ext m
    constructor
    · rintro ⟨date, member, rfl⟩
      exact forth date member
    · rintro ⟨moved, member, rfl⟩
      obtain ⟨date, inSet, number⟩ := back moved member
      exact ⟨date, inSet, number.symm⟩
  rw [← Set.ncard_image_of_injective s injective, image,
    Set.ncard_image_of_injective t number_injective]

end Date

namespace Rule

variable {rule : Rule} {start a b : Date} {n : Int}

/-- The number of weeks, months or years in four hundred years. -/
def cycle (rule : Rule) : Nat :=
  match rule.frequency with
  | .weekly => 20871
  | .monthly => 4800
  | .yearly => 400
  | _ => 0

theorem distance_of_cycles (rule : Rule) (start : Date)
    (apart : b.number = a.number + daysPerCycle * n) :
    rule.distance start b = rule.distance start a + rule.cycle * n := by
  obtain ⟨year, month, -⟩ := Date.parts_of_cycles apart
  simp only [daysPerCycle] at apart
  cases frequency : rule.frequency
  all_goals
    simp only [distance, cycle, frequency, Date.weekNumber, Date.monthNumber, monthNumber]
    omega

theorem picks_of_cycles (start : Date) (apart : b.number = a.number + daysPerCycle * n) :
    rule.Picks start b ↔ rule.Picks start a := by
  obtain ⟨year, month, day, weekday⟩ := Date.parts_of_cycles apart
  simp only [Picks, AllowsMonth, picksInMonth_iff, year, month, day, weekday,
    monthLength_add_cycles]

/-- A month or a year does not reach beyond one year of the calendar. -/
theorem year_eq_of_distance_eq (wholeMonths : rule.frequency = .monthly ∨ rule.frequency = .yearly)
    (samePeriod : rule.distance start a = rule.distance start b) : a.year = b.year := by
  have monthOfA := a.month_bounds
  have monthOfB := b.month_bounds
  rcases wholeMonths with monthly | yearly
  · simp only [distance_of_monthly _ _ monthly, Date.monthNumber, monthNumber] at samePeriod
    omega
  · simp only [distance_of_yearly _ _ yearly] at samePeriod
    omega

/-- The dates that are picked in one month or year, moved by whole cycles, are picked in another
    one. -/
theorem exists_pickedWith_of_cycles
    (wholeMonths : rule.frequency = .monthly ∨ rule.frequency = .yearly)
    (apart : b.number = a.number + daysPerCycle * n) {date : Date}
    (picked : date ∈ rule.pickedWith start a) :
    ∃ moved ∈ rule.pickedWith start b, moved.number = date.number + daysPerCycle * n := by
  obtain ⟨picks, samePeriod⟩ := picked
  have years := b.year_bounds
  rw [(Date.parts_of_cycles apart).1, ← year_eq_of_distance_eq wholeMonths samePeriod] at years
  obtain ⟨moved, number⟩ := Date.exists_of_cycles date n years
  refine ⟨moved, ⟨(picks_of_cycles start number).2 picks, ?_⟩, number⟩
  rw [rule.distance_of_cycles start number, rule.distance_of_cycles start apart, samePeriod]

/-- Among the dates that are picked in one period, as many lie in some direction from a date as
    do so whole cycles away. -/
theorem ncard_pickedWith_of_cycles (start : Date)
    (wholeMonths : rule.frequency = .monthly ∨ rule.frequency = .yearly)
    (apart : b.number = a.number + daysPerCycle * n) (direction : Int → Prop) :
    {date ∈ rule.pickedWith start a | direction (date.number - a.number)}.ncard =
      {date ∈ rule.pickedWith start b | direction (date.number - b.number)}.ncard := by
  have returns : a.number = b.number + daysPerCycle * (-n) := by
    rw [apart, mul_neg]
    omega
  refine Date.ncard_eq_of_shift (daysPerCycle * n) ?_ ?_
  · rintro date ⟨picked, holds⟩
    obtain ⟨moved, movedPicked, number⟩ := exists_pickedWith_of_cycles wholeMonths apart picked
    refine ⟨moved, ⟨movedPicked, ?_⟩, number⟩
    rwa [number, apart, add_sub_add_right_eq_sub]
  · rintro moved ⟨picked, holds⟩
    obtain ⟨date, datePicked, number⟩ := exists_pickedWith_of_cycles wholeMonths returns picked
    have back : moved.number = date.number + daysPerCycle * n := by
      rw [number, mul_neg]
      omega
    refine ⟨date, ⟨datePicked, ?_⟩, back⟩
    rwa [back, apart, add_sub_add_right_eq_sub] at holds

theorem namesIn_pickedWith_of_cycles {k : Int}
    (wholeMonths : rule.frequency = .monthly ∨ rule.frequency = .yearly)
    (apart : b.number = a.number + daysPerCycle * n) :
    Position.NamesIn k (rule.pickedWith start b) b ↔
      Position.NamesIn k (rule.pickedWith start a) a := by
  have before := ncard_pickedWith_of_cycles start wholeMonths apart (· < 0)
  have after := ncard_pickedWith_of_cycles start wholeMonths apart (0 < ·)
  simp only [sub_neg, sub_pos, ← Date.lt_iff] at before after
  rw [Position.NamesIn, Position.NamesIn, before, after]

/-- Of two dates that are whole cycles apart, a rule selects both or none. -/
theorem selects_of_cycles (resolved : rule.unsupported? = none) (start : Date)
    (apart : b.number = a.number + daysPerCycle * n) :
    rule.Selects start b ↔ rule.Selects start a := by
  rw [Selects, Selects, picks_of_cycles start apart]
  by_cases noPositions : rule.byPosition = []
  · simp only [noPositions, true_or]
  · have wholeMonths : rule.frequency = .monthly ∨ rule.frequency = .yearly := by
      cases frequency : rule.frequency with
      | weekly => exact absurd (byPosition_of_weekly frequency resolved) noPositions
      | monthly => exact Or.inl rfl
      | yearly => exact Or.inr rfl
      | _ => simp [unsupported?_eq_none_iff, frequency] at resolved
    simp only [namesIn_pickedWith_of_cycles wholeMonths apart]

/-- An event recurs whole cycles away too, if it has started by then and the cycles span whole
    intervals. -/
theorem occurs_of_cycles (resolved : rule.unsupported? = none)
    (apart : b.number = a.number + daysPerCycle * n)
    (whole : (rule.interval : Int) ∣ rule.cycle * n) (started : start ≤ b)
    (occurs : rule.Occurs start a) : rule.Occurs start b where
  start_le := started
  interval_dvd := by
    rw [rule.distance_of_cycles start apart]
    exact dvd_add occurs.interval_dvd whole
  selects := (selects_of_cycles resolved start apart).2 occurs.selects

end Rule

end Recurrence
