import Recurrence.Proofs.LaterStarts
import Recurrence.Proofs.ResolvedDays

/-!
# Periods divide time

A search visits periods in ascending order and takes the first candidate that it wants. That is
the earliest one because periods divide time: each lists its dates in ascending order, no date is
listed by another period than its own, and a later period has later dates. This holds of the weeks,
months and years of every rule, resolved or not.

The candidates of a period may also be put together one by one, out of the weekdays of a week, the
days of a month or the months of a year. That gives the same periods.

## Main definitions

- `Periods.DivideTime` — periods list their own dates in ascending order, and follow one another
- `Periods.resolvedWeeks`, `Periods.resolvedMonths`, `Periods.resolvedYears` — the periods of a
  rule, with candidates that are put together one by one
- `Rule.resolvedPeriods?` — those of them in which a rule repeats

## Main statements

- `Periods.DivideTime.lt_of_index_lt` — a later period has later dates
- `value_tracedAddMonths_eq_some_iff` — the month that lies some months later is the only one at
  that distance
- `Rule.periods_divide_time` — the periods in which a rule repeats divide time
-/

namespace Recurrence

namespace Periods

/-- Each period lists its own dates in ascending order, and a later date lies in no earlier
    period. -/
structure DivideTime (periods : Periods) : Prop where
  ascending : ∀ {index : Int}, (periods.candidates index).Pairwise (· < ·)
  indexOf_eq : ∀ {index : Int} {date : Date}, date ∈ periods.candidates index →
    periods.indexOf date = index
  indexOf_mono : ∀ {a b : Date}, a ≤ b → periods.indexOf a ≤ periods.indexOf b

namespace DivideTime

variable {periods : Periods} {i j : Int} {a b : Date}

/-- All dates of a period come before those of a later one. -/
theorem lt_of_index_lt (divide : periods.DivideTime) (less : i < j)
    (earlier : a ∈ periods.candidates i) (later : b ∈ periods.candidates j) : a < b := by
  by_contra notBefore
  have mono := divide.indexOf_mono (not_lt.1 notBefore)
  rw [divide.indexOf_eq earlier, divide.indexOf_eq later] at mono
  omega

/-- No date is listed by two periods. -/
theorem index_unique (divide : periods.DivideTime) (here : a ∈ periods.candidates i)
    (there : a ∈ periods.candidates j) : i = j :=
  (divide.indexOf_eq here).symm.trans (divide.indexOf_eq there)

end DivideTime

theorem weeks_divideTime (origin : Date) (days : List Weekday) (months : List Int) :
    (weeks origin days months).DivideTime where
  ascending := weeks_ascending
  indexOf_eq := by
    intro index date member
    simp only [weeks] at member ⊢
    cases found : origin.addDays? (7 * index) with
    | none => simp [found] at member
    | some first =>
      simp only [found, List.mem_filterMap, List.mem_range, Option.filter_eq_some_iff,
        Date.addDays?_eq_some_iff] at member
      obtain ⟨offset, less, number, -⟩ := member
      rw [Date.addDays?_eq_some_iff] at found
      omega
  indexOf_mono := weeks_enumerates.indexOf_mono

theorem months_divideTime (rule : Rule) (start : Date) : (months rule start).DivideTime where
  ascending := Rule.months_ascending
  indexOf_eq := by
    intro index date member
    simp only [months] at member ⊢
    obtain ⟨-, listed⟩ := List.mem_ite_nil_right.1 member
    have picked := (Position.select_sublist _ _).subset listed
    have number := (Date.eq_div_iff_monthNumber_eq _ _).1 (Rule.mem_monthDays_iff.1 picked).1
    omega
  indexOf_mono := fun le => Int.sub_le_sub_right (Date.monthNumber_mono le) _

theorem years_divideTime (rule : Rule) (start : Date) : (years rule start).DivideTime where
  ascending := Rule.years_ascending
  indexOf_eq := by
    intro index date member
    simp only [years] at member ⊢
    have inYear : date.year = start.year + index := by
      split at member
      · exact (Date.ofYmd?_eq_some_iff.1 (Option.mem_toList.1 member)).1
      · obtain ⟨month, -, listed⟩ :=
          List.mem_flatMap.1 ((Position.select_sublist _ _).subset member)
        exact (Rule.mem_monthDays_iff.1 listed).1.1
    omega
  indexOf_mono := fun le => Int.sub_le_sub_right (Date.year_mono le) _

end Periods

/-- Adding months leads to the only month that lies so many months later, if its year has 32
    bits. -/
theorem value_tracedAddMonths_eq_some_iff {year later months : Int} {month laterMonth : Nat} :
    (tracedAddMonths year month months).value = some (later, laterMonth) ↔
      Word.Fits ⟨.int32, later⟩ ∧ (1 ≤ laterMonth ∧ laterMonth ≤ 12) ∧
        monthNumber later laterMonth - monthNumber year month = months := by
  rw [value_tracedAddMonths, Option.ite_none_right_eq_some, Option.some.injEq, Prod.mk.injEq]
  have distance : 1 ≤ laterMonth ∧ laterMonth ≤ 12 →
      monthNumber later laterMonth - monthNumber year month = months →
        (monthNumber year month + months) / 12 = later ∧
          ((monthNumber year month + months) % 12).toNat + 1 = laterMonth := by
    simp only [monthNumber]
    omega
  constructor
  · rintro ⟨fits, rfl, rfl⟩
    refine ⟨fits, ?_⟩
    simp only [monthNumber]
    omega
  · rintro ⟨fits, inYear, apart⟩
    obtain ⟨sameYear, sameMonth⟩ := distance inYear apart
    exact ⟨sameYear ▸ fits, sameYear, sameMonth⟩

namespace Periods

/-- The weeks, of which number 0 begins on `origin`. Each lists its dates weekday by weekday, at
    their distance from the first day of the week; they are then sorted. The number of a week is
    found from its first day; a week that begins before the calendar does counts as number 0. -/
def resolvedWeeks (origin : Date) (weekStart : Weekday) (days : List Weekday)
    (months : List Int) : Periods where
  indexOf date :=
    (date.weekStart? weekStart).elim 0 fun first => (first.number - origin.number) / 7
  candidates index :=
    (origin.addDays? (7 * index)).elim [] fun first =>
      ((days.dedup.filterMap fun day => first.addDays? (weekStart.daysUntil day)).filter
        fun date => months = [] ∨ (date.month : Int) ∈ months).mergeSort (· ≤ ·)

/-- The months of `rule`, of which number 0 holds the date `start`. The month of a number is found
    by adding months, its days are resolved one by one, and positions are looked up among them. -/
def resolvedMonths (rule : Rule) (start : Date) : Periods where
  indexOf date := (date.year - start.year) * 12 + date.month - start.month
  candidates index :=
    (tracedAddMonths start.year start.month index).value.elim [] fun (year, month) =>
      if rule.byMonth = [] ∨ (month : Int) ∈ rule.byMonth then
        Position.gather rule.byPosition (rule.resolveDays start.day year month)
      else []

/-- The years of `rule`, of which number 0 holds the date `start`. The listed months are put in
    order, and positions are looked up among the days of all of them. -/
def resolvedYears (rule : Rule) (start : Date) : Periods where
  indexOf date := date.year - start.year
  candidates index :=
    (tracedAddYears start.year index).value.elim [] fun year =>
      if rule.byMonth = [] then (Date.ofYmd? year start.month start.day).toList
      else
        Position.gather rule.byPosition
          ((inOrder (rule.byMonth.map Int.toNat)).flatMap (rule.resolveDays start.day year))

end Periods

/-- The periods in which a rule repeats, with candidates that are put together one by one. -/
def Rule.resolvedPeriods? (rule : Rule) (start : Date) : Option Periods :=
  match rule.frequency with
  | .weekly =>
    (start.weekStart? rule.weekStart).map fun origin =>
      .resolvedWeeks origin rule.weekStart (rule.weekdays start) rule.byMonth
  | .monthly => some (.resolvedMonths rule start)
  | .yearly => some (.resolvedYears rule start)
  | _ => none

section Weeks

variable {origin first start date : Date} {weekStart day : Weekday} {days : List Weekday}
  {months : List Int} {index : Int}

/-- A week begins on its first weekday, however many weeks away it is. -/
theorem Date.weekday_of_weekStart? (began : start.weekStart? weekStart = some origin)
    (found : origin.addDays? (7 * index) = some first) : first.weekday = weekStart := by
  have number := weekStart?_eq_some_iff.1 began
  have later := addDays?_eq_some_iff.1 found
  have indexOfFirst := first.weekday_index
  have less := weekStart.index_lt
  rw [← Weekday.index_inj]
  omega

/-- The date at the distance of a weekday from the first day of a week has that weekday. -/
theorem Date.weekday_of_daysUntil (begins : first.weekday = weekStart)
    (found : first.addDays? (weekStart.daysUntil day) = some date) : date.weekday = day := by
  rw [weekday_eq_addDays (addDays?_eq_some_iff.1 found), begins, Weekday.addDays_daysUntil]

/-- The dates that are found weekday by weekday are those of the week with one of the weekdays. -/
theorem Date.exists_daysUntil_iff (begins : first.weekday = weekStart) :
    (∃ day ∈ days, first.addDays? (weekStart.daysUntil day) = some date) ↔
      date.weekday ∈ days ∧ ∃ offset : Nat, offset < 7 ∧ first.addDays? offset = some date := by
  constructor
  · rintro ⟨day, listed, found⟩
    rw [weekday_of_daysUntil begins found]
    exact ⟨listed, _, weekStart.daysUntil_lt day, found⟩
  · rintro ⟨listed, offset, less, found⟩
    have distance := daysUntil_weekday first date
    have number := addDays?_eq_some_iff.1 found
    rw [begins] at distance
    refine ⟨date.weekday, listed, addDays?_eq_some_iff.2 ?_⟩
    omega

/-- Weekdays that are listed once give dates that are listed once. -/
theorem Periods.resolvedWeeks_ascending (began : start.weekStart? weekStart = some origin) :
    ((resolvedWeeks origin weekStart days months).candidates index).Pairwise (· < ·) := by
  simp only [resolvedWeeks]
  cases found : origin.addDays? (7 * index) with
  | none => exact List.Pairwise.nil
  | some first =>
    have begins := Date.weekday_of_weekStart? began found
    refine ascending_of_sorted (List.pairwise_mergeSort' (· ≤ ·) _) (List.nodup_mergeSort.2 ?_)
    refine ((List.nodup_dedup days).filterMap fun day other date isDay isOther => ?_).filter _
    rw [← Date.weekday_of_daysUntil begins isDay, Date.weekday_of_daysUntil begins isOther]

/-- A week that is listed weekday by weekday has the same candidates. -/
theorem Periods.resolvedWeeks_candidates (began : start.weekStart? weekStart = some origin) :
    (resolvedWeeks origin weekStart days months).candidates =
      (weeks origin days months).candidates := by
  funext index
  refine List.Pairwise.eq_of_mem_iff (resolvedWeeks_ascending began) weeks_ascending fun date => ?_
  simp only [resolvedWeeks, weeks]
  cases found : origin.addDays? (7 * index) with
  | none => rfl
  | some first =>
    have begins := Date.weekday_of_weekStart? began found
    simp only [Option.elim_some, List.mem_mergeSort, List.mem_filter, List.mem_filterMap,
      List.mem_dedup, decide_eq_true_eq, List.mem_range, Option.filter_eq_some_iff,
      Date.exists_daysUntil_iff begins]
    constructor
    · rintro ⟨⟨isDay, offset, less, number⟩, allowed⟩
      exact ⟨offset, less, number, isDay, allowed⟩
    · rintro ⟨offset, less, number, isDay, allowed⟩
      exact ⟨⟨isDay, offset, less, number⟩, allowed⟩

/-- From the event start on, a week has the number that its first day has. -/
theorem Periods.resolvedWeeks_indexOf (began : start.weekStart? weekStart = some origin)
    (le : start ≤ date) :
    (resolvedWeeks origin weekStart days months).indexOf date =
      (weeks origin days months).indexOf date := by
  obtain ⟨first, found⟩ := Date.exists_weekStart?_of_le le ⟨origin, began⟩
  have number := Date.weekStart?_eq_some_iff.1 found
  have originNumber := Date.weekStart?_eq_some_iff.1 began
  simp only [resolvedWeeks, weeks, found, Option.elim_some, Date.weekNumber] at *
  omega

end Weeks

section MonthsAndYears

variable (rule : Rule) (start : Date)

/-- Months whose days are resolved one by one have the same candidates. -/
theorem Periods.resolvedMonths_eq : resolvedMonths rule start = months rule start := by
  have candidates (index : Int) : (resolvedMonths rule start).candidates index =
      (months rule start).candidates index := by
    rw [← TracedPeriods.periods_months]
    simp only [resolvedMonths, TracedPeriods.periods, TracedPeriods.months, Traced.value_bind]
    cases (tracedAddMonths start.year start.month index).value with
    | none => rfl
    | some later =>
      simp only [Option.elim_some, rule.resolveDays_eq_monthDays,
        Position.gather_eq_select Rule.monthDays_ascending]
      split
      · rw [Traced.value_map, value_tracedMonthDays]
      · rfl
  have indexOf (date : Date) : (resolvedMonths rule start).indexOf date =
      (months rule start).indexOf date := by
    simp only [resolvedMonths, months, Date.monthNumber, monthNumber]
    omega
  exact congrArg₂ Periods.mk (funext indexOf) (funext candidates)

variable {rule} {startDay : Nat} {year : Int}

/-- The listed months that are put in order have the same days as those found on a way through the
    year. A number that is no month has none. -/
theorem Rule.flatMap_monthDays_inOrder :
    (inOrder (rule.byMonth.map Int.toNat)).flatMap (rule.monthDays startDay year) =
      ((List.range' 1 12).filter fun (month : Nat) => (month : Int) ∈ rule.byMonth).flatMap
        (rule.monthDays startDay year) := by
  refine List.Pairwise.eq_of_mem_iff (flatMap_monthDays_ascending (inOrder_ascending _))
    (flatMap_monthDays_ascending (List.Pairwise.filter _ List.pairwise_lt_range')) fun date => ?_
  simp only [List.mem_flatMap, mem_inOrder, List.mem_map, List.mem_filter, List.mem_range'_1,
    decide_eq_true_eq, mem_monthDays_iff]
  have monthBounds := date.month_bounds
  constructor
  · rintro ⟨_, ⟨n, listed, rfl⟩, ⟨inYear, inMonth⟩, picks⟩
    have month : n = date.month := by omega
    exact ⟨date.month, ⟨by omega, month ▸ listed⟩, ⟨inYear, rfl⟩, picks⟩
  · rintro ⟨month, ⟨-, listed⟩, inMonth, picks⟩
    exact ⟨month, ⟨month, listed, Int.toNat_natCast month⟩, inMonth, picks⟩

variable (rule)

/-- Years whose months and days are put together one by one have the same candidates. -/
theorem Periods.resolvedYears_eq : resolvedYears rule start = years rule start := by
  have candidates (index : Int) : (resolvedYears rule start).candidates index =
      (years rule start).candidates index := by
    rw [← TracedPeriods.periods_years]
    simp only [resolvedYears, TracedPeriods.periods, TracedPeriods.years, Traced.value_bind]
    cases (tracedAddYears start.year index).value with
    | none => rfl
    | some year =>
      have resolved : rule.resolveDays start.day year = rule.monthDays start.day year :=
        funext fun month => rule.resolveDays_eq_monthDays start.day year month
      have ascending : ((inOrder (rule.byMonth.map Int.toNat)).flatMap
          (rule.monthDays start.day year)).Pairwise (· < ·) :=
        Rule.flatMap_monthDays_ascending (inOrder_ascending _)
      simp only [Option.elim_some, resolved, Position.gather_eq_select ascending]
      split
      · rfl
      · simp only [Traced.value_map, Traced.value_flatMap, value_tracedMonthDays]
        rw [Rule.flatMap_monthDays_inOrder, Rule.flatMap_monthDays_range]
  exact congrArg (Periods.mk _) (funext candidates)

end MonthsAndYears

namespace Rule

variable {rule : Rule} {start : Date} {periods : Periods}

theorem periods?_divideTime (repeats : rule.periods? start = some periods) :
    periods.DivideTime := by
  obtain ⟨-, origin, -, rfl⟩ | ⟨-, rfl⟩ | ⟨-, rfl⟩ := cases_of_periods? repeats
  · exact Periods.weeks_divideTime _ _ _
  · exact Periods.months_divideTime rule start
  · exact Periods.years_divideTime rule start

/-- Periods whose candidates are put together one by one have the same candidates, and the same
    number for every date from the event start on. -/
theorem exists_resolvedPeriods? (repeats : rule.periods? start = some periods) :
    ∃ resolved, rule.resolvedPeriods? start = some resolved ∧
      resolved.candidates = periods.candidates ∧
        ∀ date, start ≤ date → resolved.indexOf date = periods.indexOf date := by
  rw [resolvedPeriods?]
  obtain ⟨weekly, origin, began, rfl⟩ | ⟨monthly, rfl⟩ | ⟨yearly, rfl⟩ := cases_of_periods? repeats
  · rw [weekly, began]
    exact ⟨_, rfl, Periods.resolvedWeeks_candidates began,
      fun _ => Periods.resolvedWeeks_indexOf began⟩
  · rw [monthly, ← Periods.resolvedMonths_eq]
    exact ⟨_, rfl, rfl, fun _ _ => rfl⟩
  · rw [yearly, ← Periods.resolvedYears_eq]
    exact ⟨_, rfl, rfl, fun _ _ => rfl⟩

/-- The weeks, months or years in which a rule repeats divide time, be the rule resolved or not:
    each of them lists its own dates in ascending order, later dates lie in no earlier period, all
    dates of a period come before those of a later one, and no date belongs to two of them. The
    month that is some months later than the event start is the only one that has this number. It
    makes no difference if the candidates are put together one by one. -/
theorem periods_divide_time (repeats : rule.periods? start = some periods) :
    periods.DivideTime ∧
      (∀ i j, i < j → ∀ a ∈ periods.candidates i, ∀ b ∈ periods.candidates j, a < b) ∧
      (∀ i j date, date ∈ periods.candidates i → date ∈ periods.candidates j → i = j) ∧
      (∀ index year month,
        (tracedAddMonths start.year start.month index).value = some (year, month) ↔
          Word.Fits ⟨.int32, year⟩ ∧ (1 ≤ month ∧ month ≤ 12) ∧
            monthNumber year month - start.monthNumber = index) ∧
      ∃ resolved, rule.resolvedPeriods? start = some resolved ∧
        resolved.candidates = periods.candidates ∧
          ∀ date, start ≤ date → resolved.indexOf date = periods.indexOf date := by
  have divide := periods?_divideTime repeats
  exact ⟨divide, fun i j less a inEarlier b inLater => divide.lt_of_index_lt less inEarlier inLater,
    fun i j date here there => divide.index_unique here there,
    fun index year month => value_tracedAddMonths_eq_some_iff, exists_resolvedPeriods? repeats⟩

/-- Weeks that begin on Sunday: the Sunday after the Tuesday on which an event starts belongs to the
    next week, and so to a later period. -/
theorem periods_divide_time_sundays :
    ∃ start ∈ Date.ofYmd? 1997 8 5, ∃ sunday ∈ Date.ofYmd? 1997 8 10, ∃ periods ∈ Rule.periods?
        { frequency := .weekly
          weekStart? := some .sunday
          byDay := [.every .tuesday, .every .sunday] } start,
      start ∈ periods.candidates 0 ∧ sunday ∈ periods.candidates 1 ∧ start < sunday := by
  obtain ⟨start, isStart, sunday, isSunday, periods, repeats, first, second⟩ :
      ∃ start ∈ Date.ofYmd? 1997 8 5, ∃ sunday ∈ Date.ofYmd? 1997 8 10, ∃ periods ∈ Rule.periods?
          { frequency := .weekly
            weekStart? := some .sunday
            byDay := [.every .tuesday, .every .sunday] } start,
        start ∈ periods.candidates 0 ∧ sunday ∈ periods.candidates 1 :=
    ⟨_, rfl, _, rfl, _, rfl, by decide, by decide⟩
  exact ⟨start, isStart, sunday, isSunday, periods, repeats, first, second,
    (periods_divide_time repeats).2.1 0 1 (by decide) _ first _ second⟩

end Rule

end Recurrence
