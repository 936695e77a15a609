import Recurrence.Proofs.Occurs

/-!
# Months and years list what a rule selects

The days that a rule picks in one month are listed exactly and in ascending order, at the ends of
the calendar too. Months and years put these lists together and select positions from them.
-/

namespace Recurrence

/-- Where a month has a first day, its other days come after it. -/
theorem Date.addDays?_of_first {year : Int} {month day : Nat} {first : Date}
    (found : Date.ofYmd? year month 1 = some first)
    (days : 1 ≤ day ∧ day ≤ monthLength year month) :
    first.addDays? (day - 1) = Date.ofYmd? year month day := by
  obtain ⟨sameYear, sameMonth, firstDay⟩ := Date.ofYmd?_eq_some_iff.1 found
  have number := first.number_eq
  rw [sameYear, sameMonth, firstDay] at number
  rw [Date.ofYmd?, if_pos days, Date.addDays?, number]
  congr 1
  omega

/-- A month without a first day has no days at all. -/
theorem Date.ofYmd?_first_ne_none {date : Date} :
    Date.ofYmd? date.year date.month 1 ≠ none := by
  have dayBounds := date.day_bounds
  obtain ⟨first, found⟩ := Date.exists_ofYmd? date.year_bounds
    (show 1 ≤ 1 ∧ 1 ≤ monthLength date.year date.month by omega)
  simp [found]

/-- A month that has a first day has a last one. -/
theorem Date.exists_last_of_first {year : Int} {month : Nat} {first : Date}
    (found : Date.ofYmd? year month 1 = some first) :
    ∃ last, Date.ofYmd? year month (monthLength year month) = some last := by
  obtain ⟨rfl, rfl, -⟩ := Date.ofYmd?_eq_some_iff.1 found
  have dayBounds := first.day_bounds
  exact Date.exists_ofYmd? first.year_bounds (by omega)

/-- A date has the year and the month into which the number of its month divides. -/
theorem Date.eq_div_iff_monthNumber_eq (date : Date) (number : Int) :
    date.year = number / 12 ∧ date.month = (number % 12).toNat + 1 ↔
      date.monthNumber = number := by
  have monthBounds := date.month_bounds
  simp only [Date.monthNumber, Recurrence.monthNumber]
  omega

namespace Rule

variable {rule : Rule} {startDay month : Nat} {year : Int} {start date : Date}

/-- The two conditions on a day of a month say which dates are picked. -/
theorem picksInMonth_iff :
    rule.PicksInMonth startDay date ↔
      rule.PicksDay startDay (monthLength date.year date.month) date.day ∧
        rule.PicksWeekday (monthLength date.year date.month) date.day date.weekday := by
  simp only [PicksInMonth, PicksDay, PicksWeekday]
  simp only [Date.namesIn_monthDates_iff, Date.namesIn_monthWeekdays_iff]
  by_cases noDay : rule.byMonthDay = []
  · simp only [noDay, if_true]
    tauto
  · simp only [noDay, if_false]
    tauto

/-- The days of a month that are listed are the dates that the rule picks in it. -/
theorem mem_monthDays_iff :
    date ∈ rule.monthDays startDay year month ↔
      (date.year = year ∧ date.month = month) ∧ rule.PicksInMonth startDay date := by
  simp only [monthDays]
  cases found : Date.ofYmd? year month 1 with
  | none =>
    -- the calendar begins and ends with whole months
    simp only [List.not_mem_nil, false_iff, not_and]
    rintro ⟨rfl, rfl⟩
    exact absurd found Date.ofYmd?_first_ne_none
  | some first =>
    simp only [List.mem_filterMap, List.mem_range'_1, Option.ite_none_right_eq_some,
      Option.filter_eq_some_iff, decide_eq_true_eq]
    constructor
    · rintro ⟨day, days, picksDay, later, picksWeekday⟩
      rw [Date.addDays?_of_first found (by omega), Date.ofYmd?_eq_some_iff] at later
      obtain ⟨rfl, rfl, rfl⟩ := later
      exact ⟨⟨rfl, rfl⟩, picksInMonth_iff.2 ⟨picksDay, picksWeekday⟩⟩
    · rintro ⟨⟨rfl, rfl⟩, picks⟩
      obtain ⟨picksDay, picksWeekday⟩ := picksInMonth_iff.1 picks
      have dayBounds := date.day_bounds
      refine ⟨date.day, by omega, picksDay, ?_, picksWeekday⟩
      rw [Date.addDays?_of_first found dayBounds.2, Date.ofYmd?_eq_some_iff]
      exact ⟨rfl, rfl, rfl⟩

theorem monthDays_ascending : (rule.monthDays startDay year month).Pairwise (· < ·) := by
  simp only [monthDays]
  cases found : Date.ofYmd? year month 1 with
  | none => exact List.Pairwise.nil
  | some first =>
    refine List.pairwise_filterMap.2 (List.Pairwise.imp ?_ List.pairwise_lt_range')
    simp only [Option.ite_none_right_eq_some, Option.filter_eq_some_iff,
      Date.addDays?_eq_some_iff]
    rintro i j less a ⟨-, numberOfA, -⟩ b ⟨-, numberOfB, -⟩
    exact Date.lt_iff.2 (by omega)

/-- Selecting positions of the dates that are picked in a period gives the dates that the rule
    selects in it. -/
theorem mem_select_picked_iff {days : List Date} (start : Date) (index : Int)
    (ascending : days.Pairwise (· < ·))
    (picked : ∀ other, other ∈ days ↔ rule.Picks start other ∧ rule.distance start other = index) :
    date ∈ Position.select rule.byPosition days ↔
      rule.Selects start date ∧ rule.distance start date = index := by
  have samePeriod (inPeriod : rule.distance start date = index) :
      {other | other ∈ days} = rule.pickedWith start date := by
    ext other
    rw [Set.mem_ofPred_eq, picked, ← inPeriod]
    rfl
  rw [Position.mem_select_iff ascending, picked]
  constructor
  · rintro ⟨⟨picks, inPeriod⟩, named⟩
    rw [samePeriod inPeriod] at named
    exact ⟨⟨picks, named⟩, inPeriod⟩
  · rintro ⟨⟨picks, named⟩, inPeriod⟩
    rw [samePeriod inPeriod]
    exact ⟨⟨picks, inPeriod⟩, named⟩

theorem mem_months_candidates_iff (monthly : rule.frequency = .monthly) {index : Int} :
    date ∈ (Periods.months rule start).candidates index ↔
      rule.Selects start date ∧ (Periods.months rule start).indexOf date = index := by
  have inMonth (other : Date) :=
    Date.eq_div_iff_monthNumber_eq other (start.monthNumber + index)
  simp only [Periods.months]
  split
  case isTrue allowed =>
    rw [mem_select_picked_iff start index monthDays_ascending,
      distance_of_monthly _ _ monthly]
    intro other
    rw [mem_monthDays_iff, inMonth, picks_of_monthly _ _ monthly, distance_of_monthly _ _ monthly]
    constructor
    · rintro ⟨inPeriod, picks⟩
      rw [← ((inMonth other).2 inPeriod).2] at allowed
      exact ⟨⟨allowed, picks⟩, by omega⟩
    · rintro ⟨⟨-, picks⟩, inPeriod⟩
      exact ⟨by omega, picks⟩
  case isFalse excluded =>
    simp only [List.not_mem_nil, false_iff, not_and]
    intro selects inPeriod
    have month := ((inMonth date).2 (by omega)).2
    rw [← month] at excluded
    exact excluded ((picks_of_monthly _ _ monthly).1 selects.1).1

theorem months_ascending {index : Int} :
    ((Periods.months rule start).candidates index).Pairwise (· < ·) := by
  simp only [Periods.months]
  split
  · exact monthDays_ascending.sublist (Position.select_sublist _ _)
  · exact List.Pairwise.nil

/-- The months of a monthly rule list exactly the dates that it selects. -/
theorem months_enumerates (monthly : rule.frequency = .monthly) :
    (Periods.months rule start).Enumerates {date | rule.Selects start date} where
  indexOf_mono := fun le => Int.sub_le_sub_right (Date.monthNumber_mono le) _
  indexOf_lt := by
    intro date
    have yearOfDate := date.year_bounds
    have yearOfStart := start.year_bounds
    have monthOfDate := date.month_bounds
    have monthOfStart := start.month_bounds
    simp only [Periods.months, Date.monthNumber, monthNumber, maxIndex]
    simp only [firstYear, lastYear] at yearOfDate yearOfStart
    omega
  ascending := fun _ => months_ascending
  mem_candidates_iff := fun _ => mem_months_candidates_iff monthly

theorem flatMap_monthDays_ascending {months : List Nat} (ascending : months.Pairwise (· < ·)) :
    (months.flatMap (rule.monthDays startDay year)).Pairwise (· < ·) := by
  refine List.pairwise_flatMap.2 ⟨fun month _ => monthDays_ascending, ascending.imp ?_⟩
  intro month later less a inMonth b inLater
  obtain ⟨⟨yearOfA, monthOfA⟩, -⟩ := mem_monthDays_iff.1 inMonth
  obtain ⟨⟨yearOfB, monthOfB⟩, -⟩ := mem_monthDays_iff.1 inLater
  -- a later month would not hold an earlier date
  by_contra notLess
  have le := Date.monthNumber_mono (not_lt.1 notLess)
  simp only [Date.monthNumber, monthNumber] at le
  omega

theorem mem_years_candidates_iff (yearly : rule.frequency = .yearly)
    (resolved : rule.unsupported? = none) {index : Int} :
    date ∈ (Periods.years rule start).candidates index ↔
      rule.Selects start date ∧ (Periods.years rule start).indexOf date = index := by
  simp only [Periods.years]
  split
  case isTrue noMonths =>
    rw [unsupported?_eq_none_iff, yearly] at resolved
    -- positions need months, so the anniversary is all that a year contributes
    have noPositions : rule.byPosition = [] := by
      by_contra given
      exact resolved.2 ⟨noMonths, Or.inr (Or.inr given)⟩
    rw [Option.mem_toList, Date.ofYmd?_eq_some_iff, Selects, picks_of_yearly _ _ yearly,
      if_pos noMonths]
    simp only [noPositions, true_or, and_true]
    omega
  case isFalse months =>
    rw [mem_select_picked_iff start index
      (flatMap_monthDays_ascending (List.Pairwise.filter _ List.pairwise_lt_range')),
      distance_of_yearly _ _ yearly]
    intro other
    have monthBounds := other.month_bounds
    simp only [List.mem_flatMap, List.mem_filter, List.mem_range'_1, decide_eq_true_eq,
      mem_monthDays_iff, picks_of_yearly _ _ yearly, distance_of_yearly _ _ yearly, months,
      if_false, AllowsMonth, false_or]
    constructor
    · rintro ⟨month, ⟨-, listed⟩, ⟨inYear, rfl⟩, picks⟩
      exact ⟨⟨listed, picks⟩, by omega⟩
    · rintro ⟨⟨listed, picks⟩, inYear⟩
      exact ⟨other.month, ⟨by omega, listed⟩, ⟨by omega, rfl⟩, picks⟩

theorem years_ascending {index : Int} :
    ((Periods.years rule start).candidates index).Pairwise (· < ·) := by
  simp only [Periods.years]
  split
  · cases Date.ofYmd? (start.year + index) start.month start.day <;> simp
  · exact (flatMap_monthDays_ascending (List.Pairwise.filter _ List.pairwise_lt_range')).sublist
      (Position.select_sublist _ _)

/-- The years of a yearly rule list exactly the dates that it selects. -/
theorem years_enumerates (yearly : rule.frequency = .yearly)
    (resolved : rule.unsupported? = none) :
    (Periods.years rule start).Enumerates {date | rule.Selects start date} where
  indexOf_mono := fun le => Int.sub_le_sub_right (Date.year_mono le) _
  indexOf_lt := by
    intro date
    have yearOfDate := date.year_bounds
    have yearOfStart := start.year_bounds
    simp only [Periods.years, maxIndex]
    simp only [firstYear, lastYear] at yearOfDate yearOfStart
    omega
  ascending := fun _ => years_ascending
  mem_candidates_iff := fun _ => mem_years_candidates_iff yearly resolved

end Rule

end Recurrence
