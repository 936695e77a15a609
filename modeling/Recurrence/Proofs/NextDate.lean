import Recurrence.Proofs.MonthPeriods
import Recurrence.Proofs.WeekPeriods

/-!
# The next occurrence is the least one

What is computed for a rule that is resolved is the next occurrence as the calendar defines it:
the least date of the recurrence on or after the anchor, unless the recurrence is over by then
or the search ends before it. There is a result whenever there is such a date.
-/

namespace Recurrence.Rule

variable {rule : Rule} {settings : Settings} {start anchor date : Date} {context : Context}

/-- A search for the rule can begin: it needs no periods, or there are periods from the event
    start on. -/
def Begins (rule : Rule) (start : Date) : Prop :=
  rule.EveryWeek ∨ rule.periods? start ≠ none

/-- A rule repeats in weeks, if the week of the event start has a first day, in months or in
    years. -/
theorem cases_of_periods? {periods : Periods} (repeats : rule.periods? start = some periods) :
    (rule.frequency = .weekly ∧ ∃ origin, start.weekStart? rule.weekStart = some origin ∧
        periods = .weeks origin (rule.weekdays start) rule.byMonth) ∨
      (rule.frequency = .monthly ∧ periods = .months rule start) ∨
        (rule.frequency = .yearly ∧ periods = .years rule start) := by
  cases frequency : rule.frequency with
  | weekly =>
    rw [periods?, frequency] at repeats
    obtain ⟨origin, began, rfl⟩ := Option.map_eq_some_iff.1 repeats
    exact Or.inl ⟨rfl, origin, began, rfl⟩
  | monthly =>
    rw [periods?, frequency] at repeats
    exact Or.inr (Or.inl ⟨rfl, (Option.some.inj repeats).symm⟩)
  | yearly =>
    rw [periods?, frequency] at repeats
    exact Or.inr (Or.inr ⟨rfl, (Option.some.inj repeats).symm⟩)
  | _ =>
    rw [periods?, frequency] at repeats
    cases repeats

/-- The periods of a rule list exactly the dates that the rule selects, and their numbers are
    distances from the event start. -/
theorem enumerates_of_periods? {periods : Periods} (resolved : rule.unsupported? = none)
    (found : rule.periods? start = some periods) :
    periods.Enumerates {date | rule.Selects start date} ∧
      ∀ date, periods.indexOf date = rule.distance start date := by
  obtain ⟨weekly, origin, began, rfl⟩ | ⟨monthly, rfl⟩ | ⟨yearly, rfl⟩ := cases_of_periods? found
  · exact ⟨weeks_enumerates weekly (byPosition_of_weekly weekly resolved),
      fun date => weeks_indexOf_eq weekly began⟩
  · exact ⟨months_enumerates monthly, fun date => (distance_of_monthly _ _ monthly).symm⟩
  · exact ⟨years_enumerates yearly resolved, fun date => (distance_of_yearly _ _ yearly).symm⟩

/-- A rule for every week recurs on all dates with one of its weekdays. -/
theorem occurs_iff_of_everyWeek (everyWeek : rule.EveryWeek) (resolved : rule.unsupported? = none) :
    rule.Occurs start date ↔ start ≤ date ∧ date.weekday ∈ rule.weekdays start := by
  obtain ⟨weekly, everyInterval, -, anyMonth⟩ := everyWeek
  constructor
  · intro occurs
    exact ⟨occurs.start_le, ((picks_of_weekly _ _ weekly).1 occurs.selects.1).2⟩
  · rintro ⟨notBefore, wanted⟩
    have picks : rule.Picks start date := (picks_of_weekly _ _ weekly).2 ⟨Or.inl anyMonth, wanted⟩
    exact occurs_of_selects everyInterval notBefore
      ⟨picks, Or.inl (byPosition_of_weekly weekly resolved)⟩

/-- The search for a rule finds the least occurrence on or after the anchor, provided that it gets
    that far and that not too many occurrences come before the anchor. -/
theorem search?_eq_some_iff (resolved : rule.unsupported? = none) (begins : rule.Begins start)
    (le : start ≤ anchor) :
    rule.search? start anchor settings = some date ↔
      IsLeast {other | rule.Occurs start other ∧ anchor ≤ other} date ∧
        (∀ count ∈ rule.count?,
          {other | rule.Occurs start other ∧ other < anchor}.ncard < count.toNat) ∧
        rule.Reaches settings start anchor date := by
  simp only [search?]
  split
  case isTrue everyWeek =>
    simp only [occurs_iff_of_everyWeek everyWeek resolved]
    rw [Date.nearest?_eq_some_iff_of_le le, everyWeek.2.2.1]
    simp [Reaches, everyWeek]
  case isFalse notEveryWeek =>
    obtain ⟨periods, found⟩ :=
      Option.ne_none_iff_exists'.1 (begins.resolve_left notEveryWeek)
    obtain ⟨enumerates, indexOf_eq⟩ := enumerates_of_periods? resolved found
    rw [found, Option.bind_some, enumerates.firstOnOrAfter?_eq_some_iff rule.interval_pos
      (by rw [indexOf_eq, distance_self]) le {other | rule.Occurs start other} (fun other => ?_),
      indexOf_eq, indexOf_eq]
    · simp [Reaches, notEveryWeek]
    · rw [indexOf_eq]
      exact ⟨fun occurs => ⟨occurs.start_le, occurs.interval_dvd, occurs.selects⟩,
        fun ⟨notBefore, divides, selects⟩ => ⟨notBefore, divides, selects⟩⟩

/-- The end of the recurrence suppresses everything once it has passed, and a date after it if
    the settings ask for that. -/
theorem due?_eq_some_iff :
    rule.due? context settings = some date ↔
      (∀ bound ∈ rule.until?, ¬bound.IsBefore context.now) ∧
        (settings.clampToUntil → ∀ bound ∈ rule.until?, date ≤ bound.date) ∧
        rule.search? context.start.date context.anchor.date settings = some date := by
  simp only [due?]
  split
  case isTrue ended =>
    obtain ⟨bound, given, before⟩ := ended
    simp only [reduceCtorEq, false_iff]
    rintro ⟨notEnded, -⟩
    exact notEnded bound given before
  case isFalse notEnded =>
    simp only [Option.filter_eq_some_iff, decide_eq_true_eq, not_and, not_exists, not_lt]
    constructor
    · rintro ⟨found, clamped⟩
      exact ⟨fun bound given before => notEnded ⟨bound, given, before⟩, clamped, found⟩
    · rintro ⟨-, clamped, found⟩
      exact ⟨found, clamped⟩

theorem next_of_resolved (resolved : rule.unsupported? = none) (context : Context)
    (settings : Settings) : rule.next context settings = .ok (rule.due? context settings) := by
  rw [next, resolved]

theorem resolved_of_next {found : Option Date} (answer : rule.next context settings = .ok found) :
    rule.unsupported? = none := by
  cases unsupported : rule.unsupported? with
  | none => rfl
  | some reason =>
    rw [next, unsupported] at answer
    cases answer

theorem begins_of_search?_eq_some (found : rule.search? start anchor settings = some date) :
    rule.Begins start := by
  simp only [search?] at found
  split at found
  case isTrue everyWeek => exact Or.inl everyWeek
  case isFalse =>
    obtain ⟨periods, given, -⟩ := Option.bind_eq_some_iff.1 found
    exact Or.inr (by simp [given])

/-- What is computed for a rule that is resolved is the next occurrence. -/
theorem next_eq_some_iff (resolved : rule.unsupported? = none) :
    rule.next context settings = .ok (some date) ↔
      rule.Begins context.start.date ∧ rule.IsNext context settings date := by
  have le := DateTime.date_le_of_le context.start_le_anchor
  rw [next_of_resolved resolved, Except.ok.injEq, due?_eq_some_iff]
  constructor
  · rintro ⟨notEnded, clamped, found⟩
    have begins := begins_of_search?_eq_some found
    obtain ⟨least, left, reaches⟩ := (search?_eq_some_iff resolved begins le).1 found
    exact ⟨begins, least, notEnded, clamped, left, reaches⟩
  · rintro ⟨begins, least, notEnded, clamped, left, reaches⟩
    exact ⟨notEnded, clamped, (search?_eq_some_iff resolved begins le).2 ⟨least, left, reaches⟩⟩

/-- If the search can begin, there is always an answer, and it is a date exactly if that date is
    the next occurrence. -/
theorem next_iff_of_begins (resolved : rule.unsupported? = none)
    (begins : rule.Begins context.start.date) (settings : Settings) :
    (∃ found, rule.next context settings = .ok found) ∧
      ∀ date, rule.next context settings = .ok (some date) ↔
        rule.IsNext context settings date := by
  refine ⟨⟨_, next_of_resolved resolved context settings⟩, fun date => ?_⟩
  rw [next_eq_some_iff resolved, and_iff_right begins]

/-- Monthly recurrence is exact: there is always an answer, and it is a date exactly if that date
    is the next occurrence. -/
theorem next_monthly_iff (monthly : rule.frequency = .monthly) (noYearDays : rule.byYearDay = [])
    (noWeekNumbers : rule.byWeekNumber = []) (context : Context) (settings : Settings) :
    (∃ found, rule.next context settings = .ok found) ∧
      ∀ date, rule.next context settings = .ok (some date) ↔
        rule.IsNext context settings date := by
  have resolved : rule.unsupported? = none := by
    rw [unsupported?_eq_none_iff, monthly]
    exact ⟨noYearDays, noWeekNumbers⟩
  have begins : rule.Begins context.start.date := Or.inr (by simp [periods?, monthly])
  exact next_iff_of_begins resolved begins settings

/-- The second Tuesday of a month, of which four are counted from January on: after the third
    one has passed, the fourth one is next. -/
theorem next_monthly_second_tuesday :
    ∃ start ∈ Date.ofYmd? 2018 1 9, ∃ now ∈ Date.ofYmd? 2018 3 14, ∃ date ∈ Date.ofYmd? 2018 4 10,
      Rule.IsNext { frequency := .monthly, byDay := [⟨some 2, .tuesday⟩], count? := some 4 }
        ⟨.atMidnight start, .atMidnight now⟩ {} date := by
  refine ⟨_, rfl, _, rfl, _, rfl, ?_⟩
  exact ((next_monthly_iff rfl rfl rfl _ _).2 _).1 rfl

/-- Yearly recurrence is exact for every rule that is resolved. -/
theorem next_yearly_iff (yearly : rule.frequency = .yearly) (resolved : rule.unsupported? = none)
    (context : Context) (settings : Settings) :
    (∃ found, rule.next context settings = .ok found) ∧
      ∀ date, rule.next context settings = .ok (some date) ↔
        rule.IsNext context settings date := by
  have begins : rule.Begins context.start.date := Or.inr (by simp [periods?, yearly])
  exact next_iff_of_begins resolved begins settings

/-- The last Sunday of January and February together does not lie in January. -/
theorem next_yearly_last_sunday :
    ∃ start ∈ Date.ofYmd? 2017 2 26, ∃ now ∈ Date.ofYmd? 2018 1 2, ∃ date ∈ Date.ofYmd? 2018 2 25,
      Rule.IsNext
        { frequency := .yearly
          byMonth := [2, 1, 2]
          byDay := [⟨none, .sunday⟩]
          byPosition := [-1] }
        ⟨.atMidnight start, .atMidnight now⟩ {} date := by
  refine ⟨_, rfl, _, rfl, _, rfl, ?_⟩
  exact ((next_yearly_iff rfl rfl _ _).2 _).1 rfl

end Recurrence.Rule
