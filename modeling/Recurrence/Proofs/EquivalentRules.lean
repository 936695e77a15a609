import Recurrence.Proofs.SameDates

/-!
# Rules that say the same

A rule can be written in several ways. Its lists are sets: neither the order of their elements nor
a repetition matters, also where occurrences are counted and where positions select among dates.
Without an interval, the first day of the week does not matter either, although it decides which
dates share a week. The second Tuesday of a month is also the second one of its Tuesdays.

## Main definitions

- `Rule.SameSets` — two rules differ at most in how their lists are written down
- `Rule.setWeekStart` — the rule with another first day of the week
- `Rule.setOrdinal`, `Rule.setPosition` — the rule for the `n`-th of a weekday, by an ordinal and by
  a position
- `Rule.OneMonthEach` — the rules with one month in every period

## Main statements

- `Rule.next_eq_of_sameSets` — the next occurrence depends on the sets only
- `Rule.next_setWeekStart` — weeks of which none is left out may begin on any day
- `Rule.next_setOrdinal_eq_next_setPosition` — within one month, an ordinal counts what a position
  counts
-/

namespace Recurrence.Rule

variable {rule other : Rule} {settings : Settings} {start anchor date : Date} {context : Context}

/-- Rules that are refused for the same reason, if at all, have the same next occurrence if each of
    them finds what the other one finds. -/
theorem next_eq_of_found_iff {otherContext : Context}
    (sameReason : rule.unsupported? = other.unsupported?)
    (same : ∀ date, rule.next context settings = .ok (some date) ↔
      other.next otherContext settings = .ok (some date)) :
    rule.next context settings = other.next otherContext settings := by
  cases unsupported : rule.unsupported? with
  | some reason => rw [next, next, ← sameReason, unsupported]
  | none =>
    have otherResolved : other.unsupported? = none := by rw [← sameReason, unsupported]
    exact next_congr unsupported otherResolved same

/-- The rules differ at most in the order of the elements of their lists, and in how often these are
    repeated. -/
structure SameSets (rule other : Rule) : Prop where
  frequency : rule.frequency = other.frequency
  interval? : rule.interval? = other.interval?
  until? : rule.until? = other.until?
  count? : rule.count? = other.count?
  weekStart? : rule.weekStart? = other.weekStart?
  mem_numbers : ∀ field n, n ∈ rule.numbers field ↔ n ∈ other.numbers field
  mem_byDay : ∀ entry, entry ∈ rule.byDay ↔ entry ∈ other.byDay

namespace SameSets

theorem symm (same : rule.SameSets other) : other.SameSets rule where
  frequency := same.frequency.symm
  interval? := same.interval?.symm
  until? := same.until?.symm
  count? := same.count?.symm
  weekStart? := same.weekStart?.symm
  mem_numbers field n := (same.mem_numbers field n).symm
  mem_byDay entry := (same.mem_byDay entry).symm

theorem numbers_eq_nil_iff (same : rule.SameSets other) (field : NumberField) :
    rule.numbers field = [] ↔ other.numbers field = [] := by
  simp only [List.eq_nil_iff_forall_not_mem, same.mem_numbers]

theorem byMonth_eq_nil_iff (same : rule.SameSets other) :
    rule.byMonth = [] ↔ other.byMonth = [] :=
  same.numbers_eq_nil_iff .month

theorem byDay_eq_nil_iff (same : rule.SameSets other) : rule.byDay = [] ↔ other.byDay = [] := by
  simp only [List.eq_nil_iff_forall_not_mem, same.mem_byDay]

theorem interval_eq (same : rule.SameSets other) : rule.interval = other.interval := by
  rw [interval, interval, same.interval?]

theorem weekStart_eq (same : rule.SameSets other) : rule.weekStart = other.weekStart := by
  rw [weekStart, weekStart, same.weekStart?]

/-- Whether a rule is resolved, and why not, depends on which of its lists are empty. -/
theorem unsupported?_eq (same : rule.SameSets other) :
    rule.unsupported? = other.unsupported? := by
  have first (fields : List NumberField) :
      rule.firstNumbers? fields = other.firstNumbers? fields := by
    simp only [firstNumbers?, ne_eq, same.numbers_eq_nil_iff]
  have dayParts : rule.HasDayParts ↔ other.HasDayParts :=
    or_congr (not_congr same.byDay_eq_nil_iff) <|
      or_congr (not_congr (same.numbers_eq_nil_iff .monthDay))
        (not_congr (same.numbers_eq_nil_iff .position))
  simp only [unsupported?, same.frequency, first, same.byMonth_eq_nil_iff, dayParts]

theorem distance_eq (same : rule.SameSets other) (start date : Date) :
    rule.distance start date = other.distance start date := by
  simp only [distance, same.frequency, same.weekStart_eq]

theorem allowsMonth_iff (same : rule.SameSets other) :
    rule.AllowsMonth date ↔ other.AllowsMonth date :=
  or_congr same.byMonth_eq_nil_iff (same.mem_numbers .month _)

theorem mem_weekdays_iff (same : rule.SameSets other) {day : Weekday} :
    day ∈ rule.weekdays start ↔ day ∈ other.weekdays start := by
  by_cases without : rule.byDay = []
  · rw [weekdays, weekdays, if_pos without, if_pos (same.byDay_eq_nil_iff.1 without)]
  · rw [weekdays, weekdays, if_neg without, if_neg (mt same.byDay_eq_nil_iff.2 without)]
    simp only [List.mem_map, same.mem_byDay]

theorem picksInMonth_iff (same : rule.SameSets other) {startDay : Nat} :
    rule.PicksInMonth startDay date ↔ other.PicksInMonth startDay date := by
  have mem (n : Int) : n ∈ rule.byMonthDay ↔ n ∈ other.byMonthDay := same.mem_numbers .monthDay n
  have noMonthDay : rule.byMonthDay = [] ↔ other.byMonthDay = [] :=
    same.numbers_eq_nil_iff .monthDay
  simp only [PicksInMonth, mem, noMonthDay, same.mem_byDay, same.byDay_eq_nil_iff]

theorem picks_iff (same : rule.SameSets other) :
    rule.Picks start date ↔ other.Picks start date := by
  simp only [Picks, same.frequency, same.allowsMonth_iff, same.mem_weekdays_iff,
    same.picksInMonth_iff, same.byMonth_eq_nil_iff]

/-- Positions count among the same dates, and the same positions are listed. -/
theorem selects_iff (same : rule.SameSets other) :
    rule.Selects start date ↔ other.Selects start date := by
  have mem (n : Int) : n ∈ rule.byPosition ↔ n ∈ other.byPosition := same.mem_numbers .position n
  have noPosition : rule.byPosition = [] ↔ other.byPosition = [] :=
    same.numbers_eq_nil_iff .position
  have picked : rule.pickedWith start date = other.pickedWith start date := by
    simp only [pickedWith, same.picks_iff, same.distance_eq]
  simp only [Selects, same.picks_iff, noPosition, mem, picked]

theorem occurs_of_occurs (same : rule.SameSets other) (occurs : rule.Occurs start date) :
    other.Occurs start date where
  start_le := occurs.start_le
  interval_dvd := by
    rw [← same.interval_eq, ← same.distance_eq]
    exact occurs.interval_dvd
  selects := same.selects_iff.1 occurs.selects

theorem everyWeek_iff (same : rule.SameSets other) : rule.EveryWeek ↔ other.EveryWeek := by
  rw [EveryWeek, EveryWeek, same.frequency, same.interval_eq, same.count?,
    same.byMonth_eq_nil_iff]

theorem reaches_of_reaches (same : rule.SameSets other)
    (reaches : rule.Reaches settings start anchor date) :
    other.Reaches settings start anchor date := by
  refine reaches.imp same.everyWeek_iff.1 fun visits => ?_
  rwa [← same.interval_eq, ← same.count?, ← same.distance_eq, ← same.distance_eq]

theorem periods?_eq_none_iff (same : rule.SameSets other) :
    rule.periods? start = none ↔ other.periods? start = none := by
  simp only [periods?, same.frequency, same.weekStart_eq]
  cases other.frequency with
  | weekly => simp only [Option.map_eq_none_iff]
  | _ => simp only [reduceCtorEq]

theorem begins_iff (same : rule.SameSets other) : rule.Begins start ↔ other.Begins start :=
  or_congr same.everyWeek_iff (not_congr same.periods?_eq_none_iff)

/-- What is next for a rule is next for every other way of writing its lists down. -/
theorem next_of_next (same : rule.SameSets other)
    (found : rule.next context settings = .ok (some date)) :
    other.next context settings = .ok (some date) := by
  have resolved := resolved_of_next found
  have begins := ((next_eq_some_iff resolved).1 found).1
  refine next_of_same_dates resolved ?_ (same.begins_iff.1 begins) (fun date => ?_)
    same.until?.symm same.count?.symm rfl (fun next => same.reaches_of_reaches next.reaches) found
  · rw [← same.unsupported?_eq, resolved]
  · exact ⟨same.symm.occurs_of_occurs, same.occurs_of_occurs⟩

end SameSets

/-- Lists are read as sets: the next occurrence, or the reason for not resolving the rule, depends
    neither on the order of their elements nor on repetitions. -/
theorem next_eq_of_sameSets (same : rule.SameSets other) (context : Context)
    (settings : Settings) : rule.next context settings = other.next context settings := by
  apply next_eq_of_found_iff same.unsupported?_eq
  intro date
  exact ⟨same.next_of_next, same.symm.next_of_next⟩

/-- Two occurrences, each on the last one of some days of the month. The 31st, which is listed twice
    and is the last day of January anyway, is counted once. -/
theorem next_last_day_of_february :
    ∃ start ∈ Date.ofYmd? 2018 1 30, ∃ now ∈ Date.ofYmd? 2018 2 1, ∃ date ∈ Date.ofYmd? 2018 2 28,
      Rule.next
          { frequency := .monthly
            count? := some 2
            byMonthDay := [31, -1, 30, 31]
            byPosition := [-1, -1] }
          ⟨.atMidnight start, .atMidnight now⟩ {} = .ok (some date) := by
  have same : Rule.SameSets
      { frequency := .monthly
        count? := some 2
        byMonthDay := [31, -1, 30, 31]
        byPosition := [-1, -1] }
      { frequency := .monthly
        count? := some 2
        byMonthDay := [-1, 30, 31]
        byPosition := [-1] } :=
    { frequency := rfl
      interval? := rfl
      until? := rfl
      count? := rfl
      weekStart? := rfl
      mem_numbers := by
        intro field n
        cases field with
        | monthDay =>
          simp only [numbers, List.mem_cons, List.not_mem_nil, or_false]
          omega
        | position => simp [numbers]
        | _ => rfl
      mem_byDay := fun _ => Iff.rfl }
  refine ⟨_, rfl, _, rfl, _, rfl, ?_⟩
  rw [next_eq_of_sameSets same]
  rfl

section WeekStart

/-- The rule with another first day of the week, or without one. -/
def setWeekStart (rule : Rule) (weekStart? : Option Weekday) : Rule :=
  { rule with weekStart? }

variable {day? another? : Option Weekday}

/-- If no week is left out, the dates of a weekly rule do not depend on which of them share a
    week. -/
theorem occurs_setWeekStart (weekly : rule.frequency = .weekly)
    (everyInterval : rule.interval = 1) (noPositions : rule.byPosition = [])
    (occurs : (rule.setWeekStart day?).Occurs start date) :
    (rule.setWeekStart another?).Occurs start date := by
  have every (day? : Option Weekday) : (rule.setWeekStart day?).interval = 1 := everyInterval
  have picks_iff (day? : Option Weekday) : (rule.setWeekStart day?).Picks start date ↔
      rule.AllowsMonth date ∧ date.weekday ∈ rule.weekdays start :=
    picks_of_weekly start date weekly
  have picks := (picks_iff day?).1 occurs.selects.1
  exact occurs_of_selects (every another?) occurs.start_le
    ⟨(picks_iff another?).2 picks, Or.inl noPositions⟩

/-- What is next for one first day of the week is next for another one: the weeks that are searched
    are other ones, but 54 of them hold the next date wherever they begin. -/
theorem next_setWeekStart_of_next (weekly : rule.frequency = .weekly)
    (everyInterval : rule.interval = 1) (enough : 54 ≤ settings.maxPeriods)
    (weekBegins : ∃ first,
      context.start.date.weekStart? (rule.setWeekStart another?).weekStart = some first)
    (found : (rule.setWeekStart day?).next context settings = .ok (some date)) :
    (rule.setWeekStart another?).next context settings = .ok (some date) := by
  have resolved : (rule.setWeekStart day?).unsupported? = none := resolved_of_next found
  have anotherResolved : (rule.setWeekStart another?).unsupported? = none := resolved
  have noPositions : rule.byPosition = [] := byPosition_of_weekly weekly resolved
  have same (date : Date) : (rule.setWeekStart another?).Occurs context.start.date date ↔
      (rule.setWeekStart day?).Occurs context.start.date date :=
    ⟨occurs_setWeekStart weekly everyInterval noPositions,
      occurs_setWeekStart weekly everyInterval noPositions⟩
  have le := DateTime.date_le_of_le context.start_le_anchor
  refine next_of_same_dates resolved anotherResolved
    (begins_of_weekStart? anotherResolved weekBegins) same rfl rfl rfl (fun next => ?_) found
  have least := next.isLeast
  simp only [← same] at least
  have anotherInterval : (rule.setWeekStart another?).interval = 1 := everyInterval
  have anotherWeekly : (rule.setWeekStart another?).setFrequency .weekly =
      rule.setWeekStart another? := setFrequency_eq_self weekly
  rw [← anotherWeekly] at least ⊢
  exact reaches_of_isLeast_weekly anotherInterval noPositions (Or.inl rfl) enough le least

/-- Where no week is left out, weeks may begin on any day that the calendar holds for the event
    start. -/
theorem next_setWeekStart (weekly : rule.frequency = .weekly) (everyInterval : rule.interval = 1)
    (context : Context) (settings : Settings) (enough : 54 ≤ settings.maxPeriods)
    (day? another? : Option Weekday)
    (weekBegins : ∃ first,
      context.start.date.weekStart? (rule.setWeekStart day?).weekStart = some first)
    (anotherBegins : ∃ first,
      context.start.date.weekStart? (rule.setWeekStart another?).weekStart = some first) :
    (rule.setWeekStart day?).next context settings =
      (rule.setWeekStart another?).next context settings := by
  have sameReason : (rule.setWeekStart day?).unsupported? =
      (rule.setWeekStart another?).unsupported? := rfl
  apply next_eq_of_found_iff sameReason
  intro date
  exact ⟨next_setWeekStart_of_next weekly everyInterval enough anotherBegins,
    next_setWeekStart_of_next weekly everyInterval enough weekBegins⟩

/-- The fourth of some Sundays and Mondays in February. The last Sunday and the Monday after it
    share a week that begins on Wednesday, but not one that begins on Monday. -/
theorem next_sunday_in_february :
    ∃ start ∈ Date.ofYmd? 2018 2 25, ∃ now ∈ Date.ofYmd? 2019 2 4, ∃ date ∈ Date.ofYmd? 2019 2 4,
      (Rule.setWeekStart
        { frequency := .weekly
          count? := some 4
          byDay := [⟨none, .sunday⟩, ⟨none, .monday⟩]
          byMonth := [2] } (some .wednesday)).next
        ⟨.atMidnight start, .atMidnight now⟩ { maxPeriods := 54 } = .ok (some date) := by
  refine ⟨_, rfl, _, rfl, _, rfl, ?_⟩
  rw [next_setWeekStart ?weekly ?interval _ _ ?enough _ none ?weekBegins ?anotherBegins]
  · decide +kernel
  case enough => decide
  case weekBegins => exact ⟨_, rfl⟩
  case anotherBegins => exact ⟨_, rfl⟩
  all_goals rfl

end WeekStart

section Ordinals

/-- The rule that picks the `n`-th of some weekday in each month, and selects no positions. -/
def setOrdinal (rule : Rule) (n : Int) (weekday : Weekday) : Rule :=
  { rule with
    byDay := [⟨some n, weekday⟩]
    byPosition := [] }

/-- The rule that picks every one of some weekday, and selects the `n`-th of them. -/
def setPosition (rule : Rule) (n : Int) (weekday : Weekday) : Rule :=
  { rule with
    byDay := [.every weekday]
    byPosition := [n] }

/-- Every period of the rule has one month: it is a month, or a year with a single listed month. -/
def OneMonthEach (rule : Rule) : Prop :=
  rule.frequency = .monthly ∨
    rule.frequency = .yearly ∧ rule.byMonth ≠ [] ∧
      ∃ month, ∀ listed ∈ rule.byMonth, listed = month

namespace OneMonthEach

variable (months : rule.OneMonthEach)

include months

theorem begins : rule.Begins start := by
  apply Or.inr
  rcases months with monthly | ⟨yearly, -⟩
  · simp [periods?, monthly]
  · simp [periods?, yearly]

theorem picks_iff :
    rule.Picks start date ↔ rule.AllowsMonth date ∧ rule.PicksInMonth start.day date := by
  rcases months with monthly | ⟨yearly, listed, -⟩
  · exact picks_of_monthly _ _ monthly
  · rw [picks_of_yearly _ _ yearly, if_neg listed]

/-- Of the dates in allowed months, those of one period are those of one month. -/
theorem distance_eq_iff {other : Date} (allowed : rule.AllowsMonth date) :
    rule.AllowsMonth other ∧ rule.distance start other = rule.distance start date ↔
      other ∈ date.monthDates := by
  have monthOfDate := date.month_bounds
  have monthOfOther := other.month_bounds
  have same_month (sameMonth : other.month = date.month) : rule.AllowsMonth other := by
    rwa [AllowsMonth, sameMonth]
  simp only [Date.monthDates, Set.mem_ofPred_eq]
  rcases months with monthly | ⟨yearly, listed, month, single⟩
  · rw [distance_of_monthly _ _ monthly, distance_of_monthly _ _ monthly]
    simp only [Date.monthNumber, monthNumber]
    constructor
    · rintro ⟨-, samePeriod⟩
      omega
    · rintro ⟨sameYear, sameMonth⟩
      exact ⟨same_month sameMonth, by omega⟩
  · rw [distance_of_yearly _ _ yearly, distance_of_yearly _ _ yearly]
    constructor
    · rintro ⟨otherAllowed, samePeriod⟩
      -- both months are the one that is listed
      have := single _ (allowed.resolve_left listed)
      have := single _ (otherAllowed.resolve_left listed)
      omega
    · rintro ⟨sameYear, sameMonth⟩
      exact ⟨same_month sameMonth, by omega⟩

end OneMonthEach

variable {n : Int} {weekday : Weekday}

theorem unsupported?_setOrdinal (months : rule.OneMonthEach) :
    (rule.setOrdinal n weekday).unsupported? = (rule.setPosition n weekday).unsupported? := by
  rcases months with monthly | ⟨yearly, listed, -⟩
  · simp only [unsupported?, setOrdinal, setPosition, monthly]
    rfl
  · simp only [unsupported?, setOrdinal, setPosition, yearly, listed, false_and, if_false]
    rfl

/-- An ordinal counts the dates of a month that have the weekday. -/
theorem selects_setOrdinal_iff (months : rule.OneMonthEach) (noMonthDays : rule.byMonthDay = []) :
    (rule.setOrdinal n weekday).Selects start date ↔
      (rule.AllowsMonth date ∧ weekday = date.weekday) ∧
        Position.NamesIn n date.monthWeekdays date := by
  have ordinalMonths : (rule.setOrdinal n weekday).OneMonthEach := months
  have picks : (rule.setOrdinal n weekday).PicksInMonth start.day date ↔
      weekday = date.weekday ∧ Position.NamesIn n date.monthWeekdays date := by
    simp [PicksInMonth, setOrdinal, noMonthDays]
  rw [Selects, ordinalMonths.picks_iff, picks, ← and_assoc]
  exact and_iff_left (Or.inl rfl)

theorem picks_setPosition_iff (months : rule.OneMonthEach) (noMonthDays : rule.byMonthDay = []) :
    (rule.setPosition n weekday).Picks start date ↔
      rule.AllowsMonth date ∧ weekday = date.weekday := by
  have positionMonths : (rule.setPosition n weekday).OneMonthEach := months
  have picks : (rule.setPosition n weekday).PicksInMonth start.day date ↔
      weekday = date.weekday := by
    simp [PicksInMonth, setPosition, ByDay.every, noMonthDays]
  rw [positionMonths.picks_iff, picks]
  rfl

/-- What a position counts in a period are the dates of a month that have the weekday. -/
theorem pickedWith_setPosition (months : rule.OneMonthEach) (noMonthDays : rule.byMonthDay = [])
    (allowed : rule.AllowsMonth date) :
    (rule.setPosition n date.weekday).pickedWith start date = date.monthWeekdays := by
  ext other
  rw [pickedWith, Set.mem_ofPred_eq, picks_setPosition_iff months noMonthDays, and_right_comm]
  exact and_congr (months.distance_eq_iff allowed) eq_comm

theorem selects_setPosition_iff (months : rule.OneMonthEach) (noMonthDays : rule.byMonthDay = []) :
    (rule.setPosition n weekday).Selects start date ↔
      (rule.AllowsMonth date ∧ weekday = date.weekday) ∧
        Position.NamesIn n date.monthWeekdays date := by
  have positions : (rule.setPosition n weekday).byPosition = [n] := rfl
  rw [Selects, picks_setPosition_iff months noMonthDays, positions]
  apply and_congr_right
  rintro ⟨allowed, rfl⟩
  rw [pickedWith_setPosition months noMonthDays allowed]
  simp

theorem occurs_setOrdinal_iff (months : rule.OneMonthEach) (noMonthDays : rule.byMonthDay = []) :
    (rule.setOrdinal n weekday).Occurs start date ↔
      (rule.setPosition n weekday).Occurs start date := by
  have selects : (rule.setOrdinal n weekday).Selects start date ↔
      (rule.setPosition n weekday).Selects start date :=
    (selects_setOrdinal_iff months noMonthDays).trans
      (selects_setPosition_iff months noMonthDays).symm
  constructor
  · intro occurs
    exact ⟨occurs.start_le, occurs.interval_dvd, selects.1 occurs.selects⟩
  · intro occurs
    exact ⟨occurs.start_le, occurs.interval_dvd, selects.2 occurs.selects⟩

/-- Where a period has one month only, it makes no difference whether an ordinal or a position picks
    the `n`-th of a weekday, counted from either end. If a month has no such day, or if `n` is zero,
    nothing is picked either way. -/
theorem next_setOrdinal_eq_next_setPosition (months : rule.OneMonthEach)
    (noMonthDays : rule.byMonthDay = []) (n : Int) (weekday : Weekday) (context : Context)
    (settings : Settings) :
    (rule.setOrdinal n weekday).next context settings =
      (rule.setPosition n weekday).next context settings := by
  have ordinalMonths : (rule.setOrdinal n weekday).OneMonthEach := months
  have positionMonths : (rule.setPosition n weekday).OneMonthEach := months
  have sameReason : (rule.setOrdinal n weekday).unsupported? =
      (rule.setPosition n weekday).unsupported? := unsupported?_setOrdinal months
  have same (date : Date) : (rule.setOrdinal n weekday).Occurs context.start.date date ↔
      (rule.setPosition n weekday).Occurs context.start.date date :=
    occurs_setOrdinal_iff months noMonthDays
  apply next_eq_of_found_iff sameReason
  intro date
  constructor
  · intro found
    have resolved := resolved_of_next found
    exact next_of_same_dates resolved (sameReason ▸ resolved) positionMonths.begins
      (fun date => (same date).symm) rfl rfl rfl (fun next => next.reaches) found
  · intro found
    have resolved := resolved_of_next found
    exact next_of_same_dates resolved (sameReason ▸ resolved) ordinalMonths.begins same rfl rfl rfl
      (fun next => next.reaches) found

/-- A February has a fifth Friday in leap years that begin with a Tuesday, and the one after 2008 is
    28 years later. -/
theorem next_fifth_friday_of_february :
    ∃ start ∈ Date.ofYmd? 2008 2 29, ∃ now ∈ Date.ofYmd? 2008 3 1, ∃ date ∈ Date.ofYmd? 2036 2 29,
      (Rule.setOrdinal
        { frequency := .yearly
          interval? := some 4
          count? := some 2
          byMonth := [2, 2] } 5 .friday).next
        ⟨.atMidnight start, .atMidnight now⟩ {} = .ok (some date) := by
  refine ⟨_, rfl, _, rfl, _, rfl, ?_⟩
  rw [next_setOrdinal_eq_next_setPosition ?months ?monthDays]
  · decide +kernel
  case months => exact Or.inr ⟨rfl, by decide, 2, by decide⟩
  case monthDays => rfl

end Ordinals

end Recurrence.Rule
