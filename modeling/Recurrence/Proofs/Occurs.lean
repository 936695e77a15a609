import Recurrence.Occurrence.Next
import Recurrence.Proofs.Search

/-!
# The dates of a recurrence

A rule and the start of its event determine a set of dates, whatever moment is asked about and
however far a search goes. This file states which dates these are, in terms of the calendar
alone, and which of them is the next occurrence.

## Design notes

Positions count among the dates that a rule picks in one period, before the event start as well
as after it. The number of occurrences counts the dates of the recurrence, which begin with the
event start.
-/

namespace Recurrence

/-- Of the two moments of a context only the dates matter for the date of the anchor. -/
theorem Context.anchor_date (context : Context) :
    context.anchor.date = max context.start.date context.now.date := by
  simp only [anchor]
  split
  case isTrue later =>
    exact (max_eq_left (DateTime.date_le_of_le (DateTime.le_iff.2 (le_of_lt later)))).symm
  case isFalse notLater =>
    exact (max_eq_right (DateTime.date_le_of_le (DateTime.le_iff.2 (not_lt.1 notLater)))).symm

namespace Rule

/-- The month of a date is listed, if the rule lists months at all. -/
def AllowsMonth (rule : Rule) (date : Date) : Prop :=
  rule.byMonth = [] ∨ (date.month : Int) ∈ rule.byMonth

/-- The rule picks a date within its month. Days of the month count the dates of the month,
    ordinals those with the same weekday. Without either, the date has the day of the month on
    which the event started. -/
def PicksInMonth (rule : Rule) (startDay : Nat) (date : Date) : Prop :=
  (rule.byMonthDay = [] ∨ ∃ n ∈ rule.byMonthDay, Position.NamesIn n date.monthDates date) ∧
    (rule.byDay = [] ∨ ∃ entry ∈ rule.byDay, entry.weekday = date.weekday ∧
      ∀ n ∈ entry.ordinal?, Position.NamesIn n date.monthWeekdays date) ∧
    (rule.byMonthDay = [] → rule.byDay = [] → date.day = startDay)

/-- The number of weeks, months or years from the one that holds `start` to the one that holds
    `date`. -/
def distance (rule : Rule) (start date : Date) : Int :=
  match rule.frequency with
  | .weekly => date.weekNumber rule.weekStart - start.weekNumber rule.weekStart
  | .monthly => date.monthNumber - start.monthNumber
  | .yearly => date.year - start.year
  | _ => 0

/-- The parts of the rule pick a date, positions aside. A yearly rule without months picks the
    anniversaries of the event start. -/
def Picks (rule : Rule) (start date : Date) : Prop :=
  match rule.frequency with
  | .weekly => rule.AllowsMonth date ∧ date.weekday ∈ rule.weekdays start
  | .monthly => rule.AllowsMonth date ∧ rule.PicksInMonth start.day date
  | .yearly =>
    if rule.byMonth = [] then date.month = start.month ∧ date.day = start.day
    else rule.AllowsMonth date ∧ rule.PicksInMonth start.day date
  | _ => False

/-- The dates that the rule picks in the same week, month or year as `date`. -/
def pickedWith (rule : Rule) (start date : Date) : Set Date :=
  {other | rule.Picks start other ∧ rule.distance start other = rule.distance start date}

/-- The rule selects a date: its parts pick it, and if there are positions, one of them names it
    among the dates that are picked in the same period. -/
def Selects (rule : Rule) (start date : Date) : Prop :=
  rule.Picks start date ∧
    (rule.byPosition = [] ∨
      ∃ n ∈ rule.byPosition, Position.NamesIn n (rule.pickedWith start date) date)

/-- An event that starts on `start` recurs on `date`. -/
structure Occurs (rule : Rule) (start date : Date) : Prop where
  start_le : start ≤ date
  interval_dvd : (rule.interval : Int) ∣ rule.distance start date
  selects : rule.Selects start date

/-- A search from `anchor` on gets as far as `date`. There is no bound for a rule that leaves out
    no week and counts no occurrences. -/
def Reaches (rule : Rule) (settings : Settings) (start anchor date : Date) : Prop :=
  rule.EveryWeek ∨
    Visits rule.interval settings.maxPeriods.toNat (rule.count?.map UInt32.toNat)
      (rule.distance start anchor) (rule.distance start date)

/-- The date is the next occurrence: the least one on or after the anchor, the recurrence not
    being over and the search getting that far. -/
structure IsNext (rule : Rule) (context : Context) (settings : Settings) (date : Date) :
    Prop where
  isLeast : IsLeast {other | rule.Occurs context.start.date other ∧
    context.anchor.date ≤ other} date
  until_not_before : ∀ bound ∈ rule.until?, ¬bound.IsBefore context.now
  le_until : settings.clampToUntil → ∀ bound ∈ rule.until?, date ≤ bound.date
  count_left : ∀ count ∈ rule.count?,
    {other | rule.Occurs context.start.date other ∧ other < context.anchor.date}.ncard <
      count.toNat
  reaches : rule.Reaches settings context.start.date context.anchor.date date

section Frequencies

variable {rule : Rule} (start date : Date)

theorem distance_of_weekly (weekly : rule.frequency = .weekly) :
    rule.distance start date =
      date.weekNumber rule.weekStart - start.weekNumber rule.weekStart := by
  rw [distance, weekly]

theorem distance_of_monthly (monthly : rule.frequency = .monthly) :
    rule.distance start date = date.monthNumber - start.monthNumber := by
  rw [distance, monthly]

theorem distance_of_yearly (yearly : rule.frequency = .yearly) :
    rule.distance start date = date.year - start.year := by
  rw [distance, yearly]

theorem picks_of_weekly (weekly : rule.frequency = .weekly) :
    rule.Picks start date ↔ rule.AllowsMonth date ∧ date.weekday ∈ rule.weekdays start := by
  rw [Picks, weekly]

theorem picks_of_monthly (monthly : rule.frequency = .monthly) :
    rule.Picks start date ↔ rule.AllowsMonth date ∧ rule.PicksInMonth start.day date := by
  rw [Picks, monthly]

theorem picks_of_yearly (yearly : rule.frequency = .yearly) :
    rule.Picks start date ↔
      if rule.byMonth = [] then date.month = start.month ∧ date.day = start.day
      else rule.AllowsMonth date ∧ rule.PicksInMonth start.day date := by
  rw [Picks, yearly]

end Frequencies

theorem distance_mono (rule : Rule) (start : Date) {a b : Date} (le : a ≤ b) :
    rule.distance start a ≤ rule.distance start b := by
  have weeks := Date.weekNumber_mono rule.weekStart le
  have months := Date.monthNumber_mono le
  have years := Date.year_mono le
  simp only [distance]
  split <;> omega

@[simp]
theorem distance_self (rule : Rule) (date : Date) : rule.distance date date = 0 := by
  simp only [distance]
  split <;> omega

/-- Without an interval, an event recurs on all dates that the rule selects. -/
theorem occurs_of_selects {rule : Rule} {start date : Date} (everyInterval : rule.interval = 1)
    (le : start ≤ date) (selects : rule.Selects start date) : rule.Occurs start date where
  start_le := le
  interval_dvd := by
    rw [everyInterval]
    exact Int.one_dvd _
  selects := selects

section FromLaterDates

variable {rule : Rule} {start anchor later date : Date}

/-- The least date of the recurrence on or after the anchor is also the least one from any date
    between the two. -/
theorem isLeast_of_later (least : IsLeast {other | rule.Occurs start other ∧ anchor ≤ other} date)
    (le : anchor ≤ later) (notAfter : later ≤ date) :
    IsLeast {other | rule.Occurs start other ∧ later ≤ other} date := by
  refine ⟨⟨least.1.1, notAfter⟩, ?_⟩
  intro other member
  exact least.2 ⟨member.1, le_trans le member.2⟩

/-- Up to the least date of the recurrence on or after the anchor, no further date passes. -/
theorem setOf_occurs_lt_eq
    (least : IsLeast {other | rule.Occurs start other ∧ anchor ≤ other} date)
    (le : anchor ≤ later) (notAfter : later ≤ date) :
    {other | rule.Occurs start other ∧ other < later} =
      {other | rule.Occurs start other ∧ other < anchor} := by
  ext other
  constructor
  · rintro ⟨occurs, before⟩
    -- from the anchor on it would be no earlier than the least one
    refine ⟨occurs, not_le.1 fun late => ?_⟩
    exact absurd (lt_of_lt_of_le before notAfter) (not_lt.2 (least.2 ⟨occurs, late⟩))
  · rintro ⟨occurs, before⟩
    exact ⟨occurs, lt_of_lt_of_le before le⟩

end FromLaterDates

theorem firstNumbers?_eq_none_iff {rule : Rule} {fields : List NumberField} :
    rule.firstNumbers? fields = none ↔ ∀ field ∈ fields, rule.numbers field = [] := by
  simp [firstNumbers?]

/-- A rule that is resolved is a weekly one, where only months and weekdays pick dates, or a
    monthly one, or a yearly one that lists months if it picks dates within them. -/
theorem unsupported?_eq_none_iff {rule : Rule} :
    rule.unsupported? = none ↔
      match rule.frequency with
      | .weekly => rule.byMonthDay = [] ∧ rule.byYearDay = [] ∧ rule.byWeekNumber = [] ∧
          rule.byPosition = []
      | .monthly => rule.byYearDay = [] ∧ rule.byWeekNumber = []
      | .yearly => (rule.byYearDay = [] ∧ rule.byWeekNumber = []) ∧
          ¬(rule.byMonth = [] ∧ rule.HasDayParts)
      | _ => False := by
  simp only [unsupported?]
  cases rule.frequency with
  | weekly => simp [firstNumbers?_eq_none_iff, numbers]
  | monthly => simp [firstNumbers?_eq_none_iff, numbers]
  | yearly =>
    have lists : rule.firstNumbers? [.yearDay, .weekNumber] = none ↔
        rule.byYearDay = [] ∧ rule.byWeekNumber = [] := by
      simp [firstNumbers?_eq_none_iff, numbers]
    dsimp only
    rw [← lists]
    cases rule.firstNumbers? [.yearDay, .weekNumber] <;> simp
  | _ => simp

/-- Positions are not resolved by week. -/
theorem byPosition_of_weekly {rule : Rule} (weekly : rule.frequency = .weekly)
    (resolved : rule.unsupported? = none) : rule.byPosition = [] := by
  rw [unsupported?_eq_none_iff, weekly] at resolved
  exact resolved.2.2.2

end Rule

end Recurrence
