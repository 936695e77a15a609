import Recurrence.Proofs.Occurs

/-!
# What a search ignores

The next occurrence is a date, and it is found from dates. Times of day matter in one place only,
where the recurrence ends at a moment. Of the parts of a rule, those within a day never matter,
ordinals do not matter for weeks, and the first day of the week matters for weeks only. Whether a
rule is resolved at all is a matter of its frequency and its lists.
-/

namespace Recurrence

/-- The end of a recurrence without the mark for universal time. -/
def Until.unmarked : Until → Until
  | day date => day date
  | moment value _ => moment value false

theorem Until.date_unmarked (bound : Until) : bound.unmarked.date = bound.date := by
  cases bound <;> rfl

theorem Until.isBefore_unmarked_iff (bound : Until) (now : DateTime) :
    bound.unmarked.IsBefore now ↔ bound.IsBefore now := by
  cases bound <;> rfl

/-- What does not depend on the mark for universal time holds of both ends or of neither. -/
theorem Until.exists_mem_iff_of_unmarked {bound? other? : Option Until} {p q : Until → Prop}
    (same : bound?.map unmarked = other?.map unmarked)
    (unmarkedIff : ∀ bound, q bound.unmarked ↔ q bound)
    (agree : ∀ bound ∈ bound?, p bound ↔ q bound) :
    (∃ bound ∈ bound?, p bound) ↔ ∃ bound ∈ other?, q bound := by
  cases bound? with
  | none =>
    cases other? with
    | none => simp
    | some other => simp at same
  | some bound =>
    cases other? with
    | none => simp at same
    | some other =>
      have sameUnmarked : bound.unmarked = other.unmarked := by simpa using same
      simp only [Option.mem_some_iff, exists_eq_left']
      rw [agree bound rfl, ← unmarkedIff, sameUnmarked, unmarkedIff]

/-- The contexts differ at most in times of day that a search ignores: in that of the event start,
    and in that of the present moment unless the recurrence ends at a moment. -/
structure Context.SameForSearch (until? : Option Until) (context other : Context) : Prop where
  start : context.start.date = other.start.date
  now : context.now = other.now ∨
    context.now.date = other.now.date ∧ ∀ bound ∈ until?, ∃ date, bound = .day date

namespace Rule

variable {rule other : Rule} {context otherContext : Context}

/-- The rules differ at most in parts that a search ignores: in seconds, minutes and hours, in the
    mark for universal time, in writing an interval of one or of zero or none, in the ordinals of a
    weekly rule and in the first day of the week of any other. -/
structure SameForSearch (rule other : Rule) : Prop where
  frequency : rule.frequency = other.frequency
  interval? : rule.interval? = other.interval? ∨
    (∀ n ∈ rule.interval?, n ≤ 1) ∧ ∀ n ∈ other.interval?, n ≤ 1
  until? : rule.until?.map Until.unmarked = other.until?.map Until.unmarked
  count? : rule.count? = other.count?
  weekStart? : rule.frequency = .weekly → rule.weekStart? = other.weekStart?
  byDay : rule.byDay = other.byDay ∨
    rule.frequency = .weekly ∧ rule.byDay.map (·.weekday) = other.byDay.map (·.weekday)
  numbers : ∀ field, field ∉ [NumberField.second, .minute, .hour] →
    rule.numbers field = other.numbers field

theorem interval_eq_one (small : ∀ n ∈ rule.interval?, n ≤ 1) : rule.interval = 1 := by
  cases given : rule.interval? with
  | none => simp [interval, given]
  | some n =>
    have le : n.toNat ≤ 1 := UInt32.le_iff_toNat_le.1 (small n given)
    simp only [interval, given, Option.map_some, Option.getD_some]
    omega

theorem firstNumbers?_congr {fields : List NumberField}
    (same : ∀ field ∈ fields, rule.numbers field = other.numbers field) :
    rule.firstNumbers? fields = other.firstNumbers? fields := by
  induction fields with
  | nil => rfl
  | cons field fields ih =>
    obtain ⟨first, rest⟩ := List.forall_mem_cons.1 same
    simp only [firstNumbers?] at ih
    simp only [firstNumbers?, List.find?_cons, first, ih rest]

/-- The days that are picked in a month depend on days of the month and on weekdays only. -/
theorem monthDays_congr (byMonthDay : rule.byMonthDay = other.byMonthDay)
    (byDay : rule.byDay = other.byDay) : rule.monthDays = other.monthDays := by
  cases rule
  cases other
  subst byMonthDay byDay
  rfl

theorem months_congr (byMonth : rule.byMonth = other.byMonth)
    (byPosition : rule.byPosition = other.byPosition) (days : rule.monthDays = other.monthDays)
    (start : Date) : Periods.months rule start = Periods.months other start := by
  simp only [Periods.months, byMonth, byPosition, days]

theorem years_congr (byMonth : rule.byMonth = other.byMonth)
    (byPosition : rule.byPosition = other.byPosition) (days : rule.monthDays = other.monthDays)
    (start : Date) : Periods.years rule start = Periods.years other start := by
  simp only [Periods.years, byMonth, byPosition, days]

namespace SameForSearch

variable (same : rule.SameForSearch other)

include same

theorem interval_eq : rule.interval = other.interval := by
  rcases same.interval? with equal | ⟨small, otherSmall⟩
  · rw [interval, interval, equal]
  · rw [interval_eq_one small, interval_eq_one otherSmall]

theorem byMonth_eq : rule.byMonth = other.byMonth :=
  same.numbers .month (by decide)

theorem byMonthDay_eq : rule.byMonthDay = other.byMonthDay :=
  same.numbers .monthDay (by decide)

theorem byPosition_eq : rule.byPosition = other.byPosition :=
  same.numbers .position (by decide)

theorem map_weekday_eq : rule.byDay.map (·.weekday) = other.byDay.map (·.weekday) := by
  rcases same.byDay with equal | ⟨-, equal⟩
  · rw [equal]
  · exact equal

theorem byDay_eq_nil_iff : rule.byDay = [] ↔ other.byDay = [] := by
  rw [← List.map_eq_nil_iff (f := fun entry : ByDay => entry.weekday), same.map_weekday_eq,
    List.map_eq_nil_iff]

theorem byDay_eq (notWeekly : rule.frequency ≠ .weekly) : rule.byDay = other.byDay :=
  same.byDay.resolve_right fun weekly => notWeekly weekly.1

theorem weekdays_eq (start : Date) : rule.weekdays start = other.weekdays start := by
  simp only [weekdays, same.byDay_eq_nil_iff, same.map_weekday_eq]

/-- Whether a rule is resolved, and why not, depends on its frequency and its lists. -/
theorem unsupported?_eq : rule.unsupported? = other.unsupported? := by
  have days : rule.firstNumbers? [.monthDay, .yearDay, .weekNumber, .position] =
      other.firstNumbers? [.monthDay, .yearDay, .weekNumber, .position] :=
    firstNumbers?_congr fun field member => same.numbers field (by decide +revert)
  have yearDays : rule.firstNumbers? [.yearDay, .weekNumber] =
      other.firstNumbers? [.yearDay, .weekNumber] :=
    firstNumbers?_congr fun field member => same.numbers field (by decide +revert)
  have dayParts : rule.HasDayParts ↔ other.HasDayParts := by
    rw [HasDayParts, HasDayParts, Ne, same.byDay_eq_nil_iff, same.byMonthDay_eq,
      same.byPosition_eq]
  simp only [unsupported?, same.frequency, days, yearDays, same.byMonth_eq, dayParts]

theorem periods?_eq (start : Date) : rule.periods? start = other.periods? start := by
  cases frequency : rule.frequency with
  | weekly =>
    have weekStart : rule.weekStart = other.weekStart := by
      rw [Rule.weekStart, Rule.weekStart, same.weekStart? frequency]
    simp only [periods?, ← same.frequency, frequency, weekStart, same.weekdays_eq, same.byMonth_eq]
  | monthly =>
    have days := monthDays_congr same.byMonthDay_eq (same.byDay_eq (by simp [frequency]))
    simp only [periods?, ← same.frequency, frequency,
      months_congr same.byMonth_eq same.byPosition_eq days]
  | yearly =>
    have days := monthDays_congr same.byMonthDay_eq (same.byDay_eq (by simp [frequency]))
    simp only [periods?, ← same.frequency, frequency,
      years_congr same.byMonth_eq same.byPosition_eq days]
  | _ => simp only [periods?, ← same.frequency, frequency]

theorem search?_eq (start anchor : Date) (settings : Settings) :
    rule.search? start anchor settings = other.search? start anchor settings := by
  have everyWeek : rule.EveryWeek ↔ other.EveryWeek := by
    rw [EveryWeek, EveryWeek, same.frequency, same.interval_eq, same.count?, same.byMonth_eq]
  simp only [search?, everyWeek, same.weekdays_eq, same.periods?_eq, same.interval_eq,
    same.count?]

end SameForSearch

theorem due?_eq_of_sameForSearch (same : rule.SameForSearch other)
    (sameContext : context.SameForSearch rule.until? otherContext) (settings : Settings) :
    rule.due? context settings = other.due? otherContext settings := by
  have sameNow : context.now.date = otherContext.now.date := by
    rcases sameContext.now with equal | ⟨equal, -⟩
    · rw [equal]
    · exact equal
  have sameAnchor : context.anchor.date = otherContext.anchor.date := by
    rw [Context.anchor_date, Context.anchor_date, sameContext.start, sameNow]
  have ended : (∃ bound ∈ rule.until?, bound.IsBefore context.now) ↔
      ∃ bound ∈ other.until?, bound.IsBefore otherContext.now := by
    refine Until.exists_mem_iff_of_unmarked same.until?
      (fun bound => bound.isBefore_unmarked_iff _) ?_
    intro bound given
    rcases sameContext.now with equal | ⟨-, days⟩
    · rw [equal]
    · -- a day is compared with the date of the present moment
      obtain ⟨date, rfl⟩ := days bound given
      simp only [Until.IsBefore, sameNow]
  have passed (date : Date) : (∃ bound ∈ rule.until?, bound.date < date) ↔
      ∃ bound ∈ other.until?, bound.date < date :=
    Until.exists_mem_iff_of_unmarked same.until? (fun bound => by rw [bound.date_unmarked])
      fun bound _ => Iff.rfl
  simp only [due?, ended, passed, same.search?_eq, sameContext.start, sameAnchor]

/-- A search ignores what lies within a day and what has no meaning for its frequency, and rules are
    refused for what they are: not for when they end or how often they recur, and neither at certain
    moments nor under certain settings. -/
theorem next_eq_of_sameForSearch (same : rule.SameForSearch other)
    (sameContext : context.SameForSearch rule.until? otherContext) (settings : Settings) :
    rule.next context settings = other.next otherContext settings ∧
      ∀ until? count? anyContext anySettings reason,
        rule.next context settings = .error reason ↔
          { rule with until?, count? }.next anyContext anySettings = .error reason := by
  constructor
  · simp only [next, same.unsupported?_eq, due?_eq_of_sameForSearch same sameContext]
  · intro until? count? anyContext anySettings reason
    have sameReason : { rule with until?, count? }.unsupported? = rule.unsupported? := rfl
    rw [next, next, sameReason]
    cases rule.unsupported? <;> simp

/-- Mondays and Fridays, three of them and until a Friday at noon. Neither the ordinals nor the
    hours nor the mark for universal time keep the third one from being next, and an event that
    starts at noon has its first one on the same day. -/
theorem next_third_of_mondays_and_fridays :
    ∃ start ∈ Date.ofYmd? 2018 1 1, ∃ now ∈ Date.ofYmd? 2018 1 6, ∃ date ∈ Date.ofYmd? 2018 1 8,
      ∃ noon ∈ Time.ofHms? 12 0 0 0,
        Rule.next
          { frequency := .weekly
            interval? := some 0
            until? := some (.moment ⟨date, noon⟩ true)
            count? := some 3
            byHour := [9]
            byDay := [⟨some (-2), .friday⟩, ⟨some 1, .monday⟩] }
          ⟨⟨start, noon⟩, .atMidnight now⟩ {} = .ok (some date) := by
  have same (date : Date) (noon : Time) : Rule.SameForSearch
      { frequency := .weekly
        interval? := some 0
        until? := some (.moment ⟨date, noon⟩ true)
        count? := some 3
        byHour := [9]
        byDay := [⟨some (-2), .friday⟩, ⟨some 1, .monday⟩] }
      { frequency := .weekly
        until? := some (.moment ⟨date, noon⟩ false)
        count? := some 3
        byDay := [.every .friday, .every .monday] } :=
    { frequency := rfl
      interval? := Or.inr ⟨fun n given => Option.mem_some.1 given ▸ by decide, nofun⟩
      until? := rfl
      count? := rfl
      weekStart? := fun _ => rfl
      byDay := Or.inr ⟨rfl, rfl⟩
      numbers := by
        intro field other
        cases field with
        | hour => exact absurd other (by decide)
        | _ => rfl }
  have sameContext (start now : Date) (noon : Time) (until? : Option Until) :
      Context.SameForSearch until? ⟨⟨start, noon⟩, .atMidnight now⟩
        ⟨.atMidnight start, .atMidnight now⟩ :=
    ⟨rfl, Or.inl rfl⟩
  refine ⟨_, rfl, _, rfl, _, rfl, _, rfl, ?_⟩
  rw [(next_eq_of_sameForSearch (same _ _) (sameContext _ _ _ _) _).1]
  rfl

end Rule

end Recurrence
