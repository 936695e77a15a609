import Recurrence.Proofs.WeekPeriods

/-!
# Weekly rules that leave out no week

A weekly rule without an interval recurs on every date with one of its weekdays, or on those of its
months. Its next date is never far away, which bounds the weeks that have to be searched: two weeks
are enough for a rule without months, and a year and a few days for one with months.
-/

namespace Recurrence

variable {start anchor date origin : Date} {days : List Weekday}

/-- A search through all weeks, from the one of the event start on, finds the nearest date with one
    of the weekdays: it lies in the week of the anchor or in the one after it. -/
theorem Periods.firstOnOrAfter?_weeks_eq_nearest? {weekStart : Weekday} {limit : Nat}
    (began : start.weekStart? weekStart = some origin) (le : start ≤ anchor) (enough : 2 ≤ limit) :
    (Periods.weeks origin days []).firstOnOrAfter? start anchor 1 limit none =
      anchor.nearest? days := by
  have weekOfStart : (Periods.weeks origin days []).indexOf start = 0 := by
    rw [Date.weekStart?_eq_some_iff] at began
    simp only [Periods.weeks, began, Date.weekNumber]
    omega
  apply Option.ext
  intro found
  rw [Periods.weeks_enumerates.firstOnOrAfter?_eq_some_iff Nat.one_pos weekOfStart le
    {other | start ≤ other ∧ other.weekday ∈ days} (by simp), Set.sep_ofPred,
    ← Date.nearest?_eq_some_iff_of_le le]
  constructor
  · exact And.left
  · intro nearest
    refine ⟨nearest, by simp, ?_⟩
    have near := Date.number_lt_of_nearest? nearest
    have notBefore := Date.le_iff.1 (Date.nearest?_eq_some_iff.1 nearest).1.2
    simp only [Periods.weeks]
    rw [visits_one_iff none (by omega)]
    simp only [Option.isSome_none, Bool.false_eq_true, if_false]
    omega

/-- For a rule for every week, the date that is computed without a search is the one that a search
    through two weeks or more finds, and where the calendar ends neither finds any. -/
theorem Rule.search?_eq_firstOnOrAfter?_of_everyWeek (rule : Rule) (context : Context)
    (settings : Settings) (everyWeek : rule.EveryWeek)
    (began : context.start.date.weekStart? rule.weekStart = some origin)
    (enough : 2 ≤ settings.maxPeriods) :
    rule.search? context.start.date context.anchor.date settings =
        context.anchor.date.nearest? (rule.weekdays context.start.date) ∧
      context.anchor.date.nearest? (rule.weekdays context.start.date) =
        (Periods.weeks origin (rule.weekdays context.start.date) rule.byMonth).firstOnOrAfter?
          context.start.date context.anchor.date rule.interval settings.maxPeriods.toNat
          (rule.count?.map UInt32.toNat) := by
  have twoWeeks : 2 ≤ settings.maxPeriods.toNat := UInt32.le_iff_toNat_le.1 enough
  have le := DateTime.date_le_of_le context.start_le_anchor
  refine ⟨if_pos everyWeek, ?_⟩
  obtain ⟨-, everyInterval, uncounted, anyMonth⟩ := everyWeek
  rw [everyInterval, uncounted, anyMonth, Option.map_none,
    Periods.firstOnOrAfter?_weeks_eq_nearest? began le twoWeeks]

/-- On the last day of the calendar, a Monday, no Saturday and no Sunday is left, and a search
    through weeks that begin on Wednesday finds none either. -/
theorem Rule.firstOnOrAfter?_last_monday :
    ∃ start ∈ (Date.ofYmd? 262142 12 20).map DateTime.atMidnight,
      ∃ now ∈ (Date.ofYmd? 262142 12 31).map DateTime.atMidnight,
        ∃ origin ∈ start.date.weekStart? .wednesday,
          (Periods.weeks origin [.saturday, .sunday, .saturday] []).firstOnOrAfter? start.date
            (Context.mk start now).anchor.date 1 2 none = none := by
  refine ⟨_, rfl, _, rfl, _, rfl, ?_⟩
  refine Eq.trans (search?_eq_firstOnOrAfter?_of_everyWeek
    { frequency := .weekly
      byDay := [⟨none, .saturday⟩, ⟨some 2, .sunday⟩, ⟨none, .saturday⟩]
      weekStart? := some .wednesday }
    ⟨_, _⟩ { maxPeriods := 2 } (by decide) ?began (by decide)).2.symm ?none
  all_goals rfl

theorem daysBeforeMonth_le_of_year (year other : Int) (month : Nat) :
    daysBeforeMonth year month ≤
      daysBeforeMonth other month + if IsLeapYear year then 1 else 0 := by
  match month with
  | 0 | 1 | 2 => simp [daysBeforeMonth]
  | 3 | 4 | 5 | 6 | 7 | 8 | 9 | 10 | 11 | 12 | n + 13 =>
    simp only [daysBeforeMonth]
    omega

/-- A month begins 365 or 366 days later in the next year. -/
theorem daysBeforeMonth_next_year (year : Int) (month : Nat) :
    daysBeforeYear year + daysBeforeMonth year month + 365 ≤
        daysBeforeYear (year + 1) + daysBeforeMonth (year + 1) month ∧
      daysBeforeYear (year + 1) + daysBeforeMonth (year + 1) month ≤
        daysBeforeYear year + daysBeforeMonth year month + 366 := by
  have earlier := daysBeforeMonth_le_of_year year (year + 1) month
  have later := daysBeforeMonth_le_of_year (year + 1) year month
  rw [daysBeforeYear_add_one, yearLength]
  by_cases leap : IsLeapYear year
  · have notNext : ¬IsLeapYear (year + 1) := by
      simp only [IsLeapYear] at *
      omega
    simp only [leap, notNext, if_true, if_false] at *
    omega
  · simp only [leap, if_false] at *
    split at later <;> omega

theorem le_monthLength (year : Int) {month : Nat} (bounds : 1 ≤ month ∧ month ≤ 12) :
    28 ≤ monthLength year month := by
  match month with
  | 2 =>
    simp only [monthLength]
    split <;> omega
  | 1 | 3 | 4 | 5 | 6 | 7 | 8 | 9 | 10 | 11 | 12 => simp [monthLength]
  | 0 | n + 13 => omega

/-- In the year before, 52 or 53 weeks before a date, lies one of the same month with the same
    weekday. -/
theorem Date.exists_same_month_before (far : anchor.number + 371 ≤ date.number) :
    ∃ earlier : Date, (anchor ≤ earlier ∧ earlier < date) ∧ earlier.month = date.month ∧
      earlier.weekday = date.weekday := by
  have monthBounds := date.month_bounds
  have dayBounds := date.day_bounds.2
  have number := date.number_eq
  have monthEnd := monthLength_le date.year date.month
  have enough := le_monthLength (date.year - 1) monthBounds
  have yearLater := daysBeforeMonth_next_year (date.year - 1) date.month
  rw [sub_add_cancel] at yearLater
  generalize begins : daysBeforeYear (date.year - 1) + daysBeforeMonth (date.year - 1) date.month =
    first at yearLater
  -- after 52 weeks back the day is one or two higher, so near the end of the month it takes 53
  obtain ⟨day, days, weeks⟩ : ∃ day : Nat, (1 ≤ day ∧ day ≤ 28) ∧
      (first + day = date.number - 364 ∨ first + day = date.number - 371) := by
    by_cases early : date.day ≤ 26
    · exact ⟨(date.number - 364 - first).toNat, by omega, by omega⟩
    · exact ⟨(date.number - 371 - first).toNat, by omega, by omega⟩
  obtain ⟨earlier, earlierNumber⟩ := exists_of_between (a := anchor) (b := date)
    (n := first + day) (by omega) (by omega)
  have found : ofYmd? (date.year - 1) date.month day = some earlier := by
    rw [ofYmd?, if_pos ⟨days.1, le_trans days.2 enough⟩, ofNumber?_eq_some_iff, begins,
      earlierNumber]
  refine ⟨earlier, ⟨le_iff.2 (by omega), lt_iff.2 (by omega)⟩, (ofYmd?_eq_some_iff.1 found).2.1,
    weekday_eq_iff.2 ?_⟩
  omega

/-- A weekly rule without an interval has an occurrence in any 53 weeks from its event start on in
    which there is one of its months. -/
theorem Rule.number_lt_of_weekly (rule : Rule) (weekly : rule.frequency = .weekly)
    (everyInterval : rule.interval = 1) (noPositions : rule.byPosition = []) (le : start ≤ anchor)
    (least : IsLeast {other | rule.Occurs start other ∧ anchor ≤ other} date) :
    date.number < anchor.number + 371 := by
  by_contra far
  obtain ⟨earlier, ⟨notBefore, before⟩, month, weekday⟩ :=
    Date.exists_same_month_before (not_lt.1 far)
  obtain ⟨allowed, wanted⟩ := (picks_of_weekly _ _ weekly).1 least.1.1.selects.1
  have occurs : rule.Occurs start earlier := by
    refine occurs_of_selects everyInterval (le_trans le notBefore)
      ⟨(picks_of_weekly _ _ weekly).2 ⟨?_, ?_⟩, Or.inl noPositions⟩
    · rwa [AllowsMonth, month]
    · rwa [weekday]
  exact absurd before (not_lt.2 (least.2 ⟨occurs, notBefore⟩))

end Recurrence
