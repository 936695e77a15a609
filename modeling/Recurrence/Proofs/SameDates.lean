import Recurrence.Proofs.CountedSearch
import Recurrence.Proofs.EveryWeek

/-!
# Rules that recur on the same dates

Two rules may say the same with different frequencies. Their next occurrences can then only differ
in how far the searches go, as one searches years where the other searches months or weeks.

## Main definitions

- `Rule.setFrequency` — the rule with another frequency
- `Rule.visited` — the number of periods that a search visits if the rule leaves out none of them

## Main statements

- `Rule.next_of_same_dates` — rules with the same dates have the same next occurrence, as far as
  their searches get
- `Rule.next_monthly_of_next_yearly` — days within the months of a year, by month or by year
- `Rule.next_weekly_eq_next_monthly` — weekdays without an ordinal, by week or by month
-/

namespace Recurrence.Rule

variable {rule other : Rule} {settings further : Settings} {start anchor date : Date}
  {context : Context}

/-- The rule with another frequency. -/
def setFrequency (rule : Rule) (frequency : Frequency) : Rule :=
  { rule with frequency }

theorem setFrequency_eq_self {frequency : Frequency} (same : rule.frequency = frequency) :
    rule.setFrequency frequency = rule := by
  subst same
  rfl

/-- If two rules recur on the same dates and have the same end and number of occurrences, the next
    occurrence of one is that of the other, provided that the search for the other gets there. -/
theorem next_of_same_dates (resolved : rule.unsupported? = none)
    (otherResolved : other.unsupported? = none) (begins : other.Begins context.start.date)
    (dates : ∀ date, other.Occurs context.start.date date ↔ rule.Occurs context.start.date date)
    (sameEnd : other.until? = rule.until?) (sameCount : other.count? = rule.count?)
    (sameClamp : further.clampToUntil = settings.clampToUntil)
    (reaches : rule.IsNext context settings date →
      other.Reaches further context.start.date context.anchor.date date)
    (found : rule.next context settings = .ok (some date)) :
    other.next context further = .ok (some date) := by
  obtain ⟨-, next⟩ := (next_eq_some_iff resolved).1 found
  refine (next_eq_some_iff otherResolved).2 ⟨begins, ?_, ?_, ?_, ?_, reaches next⟩
  · simp only [dates]
    exact next.isLeast
  · rw [sameEnd]
    exact next.until_not_before
  · rw [sameEnd, sameClamp]
    exact next.le_until
  · simp only [dates, sameCount]
    exact next.count_left

/-- The number of periods that a search visits if the rule leaves out none of them. -/
def visited (rule : Rule) (settings : Settings) : Nat :=
  if rule.count?.isSome then settings.maxPeriods.toNat + 1 else settings.maxPeriods.toNat

theorem le_visited (rule : Rule) {n : UInt32} (enough : n ≤ settings.maxPeriods) :
    n.toNat ≤ rule.visited settings := by
  have limit := UInt32.le_iff_toNat_le.1 enough
  simp only [visited]
  split <;> omega

theorem visits_iff_lt_visited (rule : Rule) (everyInterval : rule.interval = 1)
    (notBefore : anchor ≤ date) :
    Visits rule.interval settings.maxPeriods.toNat (rule.count?.map UInt32.toNat)
        (rule.distance start anchor) (rule.distance start date) ↔
      rule.distance start date < rule.distance start anchor + rule.visited settings := by
  rw [everyInterval, visits_one_iff _ (rule.distance_mono start notBefore), Option.isSome_map]
  rfl

theorem reaches_setFrequency_iff {frequency : Frequency} (notWeekly : frequency ≠ .weekly)
    (everyInterval : rule.interval = 1) (notBefore : anchor ≤ date) :
    (rule.setFrequency frequency).Reaches settings start anchor date ↔
      (rule.setFrequency frequency).distance start date <
        (rule.setFrequency frequency).distance start anchor + rule.visited settings := by
  refine Iff.trans ?_ ((rule.setFrequency frequency).visits_iff_lt_visited everyInterval notBefore)
  exact or_iff_right fun everyWeek => notWeekly everyWeek.1

/-- Without an interval, a rule recurs on the same dates at two frequencies if it selects the same
    dates. -/
theorem occurs_setFrequency_iff (everyInterval : rule.interval = 1) {frequency another : Frequency}
    (selects : (rule.setFrequency frequency).Selects start date ↔
      (rule.setFrequency another).Selects start date) :
    (rule.setFrequency frequency).Occurs start date ↔
      (rule.setFrequency another).Occurs start date := by
  have every (frequency : Frequency) : (rule.setFrequency frequency).interval = 1 := everyInterval
  constructor
  · intro occurs
    exact occurs_of_selects (every another) occurs.start_le (selects.1 occurs.selects)
  · intro occurs
    exact occurs_of_selects (every frequency) occurs.start_le (selects.2 occurs.selects)

section MonthsAndYears

/-- No position counts through more than one month of a year. -/
def PositionsWithinMonth (rule : Rule) : Prop :=
  rule.byPosition = [] ∨ ∃ month, ∀ listed ∈ rule.byMonth, listed = month

theorem picks_yearly_iff (months : rule.byMonth ≠ []) :
    (rule.setFrequency .yearly).Picks start date ↔
      (rule.setFrequency .monthly).Picks start date := by
  rw [picks_of_yearly _ _ rfl, picks_of_monthly _ _ rfl]
  exact iff_of_eq (if_neg months)

/-- With a single month, the dates that are picked in a year are those of that month. -/
theorem pickedWith_yearly (months : rule.byMonth ≠ []) {month : Int}
    (single : ∀ listed ∈ rule.byMonth, listed = month)
    (picks : (rule.setFrequency .monthly).Picks start date) :
    (rule.setFrequency .yearly).pickedWith start date =
      (rule.setFrequency .monthly).pickedWith start date := by
  have inMonth {other : Date} (picks : (rule.setFrequency .monthly).Picks start other) :
      (other.month : Int) = month :=
    single _ (((picks_of_monthly _ _ rfl).1 picks).1.resolve_left months)
  have monthOfDate := inMonth picks
  -- both dates lie in that month, so they lie in the same year exactly if in the same month of it
  ext other
  simp only [pickedWith, Set.mem_ofPred_eq, picks_yearly_iff months]
  apply and_congr_right
  intro otherPicks
  have monthOfOther := inMonth otherPicks
  simp only [distance, setFrequency, Date.monthNumber, monthNumber]
  omega

/-- Where positions count within one month, a rule recurs on the same dates by year and by month. -/
theorem occurs_yearly_iff (everyInterval : rule.interval = 1) (months : rule.byMonth ≠ [])
    (positions : rule.PositionsWithinMonth) :
    (rule.setFrequency .yearly).Occurs start date ↔
      (rule.setFrequency .monthly).Occurs start date := by
  apply occurs_setFrequency_iff everyInterval
  simp only [Selects, picks_yearly_iff months]
  apply and_congr_right
  intro picks
  rcases positions with noPositions | ⟨month, single⟩
  · exact iff_of_true (Or.inl noPositions) (Or.inl noPositions)
  · rw [pickedWith_yearly months single picks]
    rfl

/-- Between two dates lie twelve times as many months as years, give or take those of one year. -/
theorem distance_monthly_bounds (rule : Rule) (start anchor date : Date) :
    let years := (rule.setFrequency .yearly).distance start date -
      (rule.setFrequency .yearly).distance start anchor
    let months := (rule.setFrequency .monthly).distance start date -
      (rule.setFrequency .monthly).distance start anchor
    12 * years - 11 ≤ months ∧ months ≤ 12 * years + 11 := by
  have monthOfAnchor := anchor.month_bounds
  have monthOfDate := date.month_bounds
  simp only [distance, setFrequency, Date.monthNumber, monthNumber]
  omega

/-- A search by year gets wherever one by month with the same bound gets. -/
theorem reaches_yearly (everyInterval : rule.interval = 1) (notBefore : anchor ≤ date)
    (reaches : (rule.setFrequency .monthly).Reaches settings start anchor date) :
    (rule.setFrequency .yearly).Reaches settings start anchor date := by
  rw [reaches_setFrequency_iff (by decide) everyInterval notBefore] at *
  have forward := (rule.setFrequency .monthly).distance_mono start notBefore
  have bounds := rule.distance_monthly_bounds start anchor date
  omega

/-- A search by month gets wherever one by year gets, with twelve months for every year and twelve
    more, as the first year may have begun long before the anchor. -/
theorem reaches_monthly (everyInterval : rule.interval = 1)
    (notBefore : anchor ≤ date)
    (enough : 12 * (settings.maxPeriods.toNat + 1) ≤ further.maxPeriods.toNat)
    (reaches : (rule.setFrequency .yearly).Reaches settings start anchor date) :
    (rule.setFrequency .monthly).Reaches further start anchor date := by
  rw [reaches_setFrequency_iff (by decide) everyInterval notBefore] at *
  have bounds := rule.distance_monthly_bounds start anchor date
  have wide : 12 * rule.visited settings ≤ rule.visited further := by
    simp only [visited]
    split <;> omega
  omega

/-- Days within the listed months of a year can be searched by month or by year. A search by year
    finds what one by month finds with the same bound; the other way round, twelve months for every
    year and twelve more are enough. -/
theorem next_monthly_of_next_yearly (everyInterval : rule.interval = 1)
    (months : rule.byMonth ≠ []) (noYearDays : rule.byYearDay = [])
    (noWeekNumbers : rule.byWeekNumber = []) (positions : rule.PositionsWithinMonth)
    (context : Context) (settings : Settings) (date : Date) :
    ((rule.setFrequency .monthly).next context settings = .ok (some date) →
      (rule.setFrequency .yearly).next context settings = .ok (some date)) ∧
    ((rule.setFrequency .yearly).next context settings = .ok (some date) →
      ∀ further : Settings, further.clampToUntil = settings.clampToUntil →
        12 * (settings.maxPeriods.toNat + 1) ≤ further.maxPeriods.toNat →
        (rule.setFrequency .monthly).next context further = .ok (some date)) := by
  have yearly : (rule.setFrequency .yearly).unsupported? = none :=
    unsupported?_eq_none_iff.2 ⟨⟨noYearDays, noWeekNumbers⟩, fun without => months without.1⟩
  have monthly : (rule.setFrequency .monthly).unsupported? = none :=
    unsupported?_eq_none_iff.2 ⟨noYearDays, noWeekNumbers⟩
  have same (date : Date) : (rule.setFrequency .yearly).Occurs context.start.date date ↔
      (rule.setFrequency .monthly).Occurs context.start.date date :=
    occurs_yearly_iff everyInterval months positions
  constructor
  · refine next_of_same_dates monthly yearly (Or.inr (by simp [periods?, setFrequency])) same rfl
      rfl rfl fun next => ?_
    exact reaches_yearly everyInterval next.isLeast.1.2 next.reaches
  · intro found further sameClamp enough
    refine next_of_same_dates yearly monthly (Or.inr (by simp [periods?, setFrequency]))
      (fun date => (same date).symm) rfl rfl sameClamp (fun next => ?_) found
    exact reaches_monthly everyInterval next.isLeast.1.2 enough next.reaches

/-- The fourth Thursday of November, counted three times. By year one period from the anchor on is
    searched, and by month the twenty-four that two years have. -/
theorem next_monthly_fourth_thursday :
    ∃ start ∈ Date.ofYmd? 2017 11 1, ∃ now ∈ Date.ofYmd? 2018 11 23,
      ∃ date ∈ Date.ofYmd? 2019 11 28,
      (Rule.setFrequency
        { frequency := .yearly
          count? := some 3
          byMonth := [11, 11]
          byDay := [⟨none, .thursday⟩]
          byPosition := [4] } .monthly).next
        ⟨.atMidnight start, .atMidnight now⟩ { maxPeriods := 24 } = .ok (some date) := by
  refine ⟨_, rfl, _, rfl, _, rfl, ?_⟩
  refine (next_monthly_of_next_yearly ?interval ?months ?yearDays ?weekNumbers ?positions _
    { maxPeriods := 1 } _).2 ?found _ ?clamp ?enough
  case positions => exact Or.inr ⟨11, by decide⟩
  case months => decide
  case enough => decide
  all_goals rfl

end MonthsAndYears

section WeeksAndMonths

/-- Without ordinals, the weekdays of a month are those of its weeks. -/
theorem picks_weekly_iff (weekdays : rule.byDay ≠ [])
    (noOrdinals : ∀ entry ∈ rule.byDay, entry.ordinal? = none)
    (noMonthDays : rule.byMonthDay = []) :
    (rule.setFrequency .weekly).Picks start date ↔
      (rule.setFrequency .monthly).Picks start date := by
  have listed : date.weekday ∈ (rule.setFrequency .weekly).weekdays start ↔
      ∃ entry ∈ rule.byDay, entry.weekday = date.weekday := by
    change date.weekday ∈ rule.weekdays start ↔ _
    rw [Rule.weekdays, if_neg weekdays, List.mem_map]
  have every : (∃ entry ∈ rule.byDay, entry.weekday = date.weekday ∧
      ∀ n ∈ entry.ordinal?, Position.NamesIn n date.monthWeekdays date) ↔
        ∃ entry ∈ rule.byDay, entry.weekday = date.weekday := by
    constructor
    · rintro ⟨entry, member, same, -⟩
      exact ⟨entry, member, same⟩
    · rintro ⟨entry, member, same⟩
      exact ⟨entry, member, same, by simp [noOrdinals entry member]⟩
  rw [picks_of_weekly _ _ rfl, picks_of_monthly _ _ rfl, listed]
  apply and_congr_right
  intro _
  rw [PicksInMonth, ← every]
  constructor
  · intro wanted
    exact ⟨Or.inl noMonthDays, Or.inr wanted, fun _ without => absurd without weekdays⟩
  · rintro ⟨-, wanted, -⟩
    exact wanted.resolve_left weekdays

theorem occurs_weekly_iff (everyInterval : rule.interval = 1) (weekdays : rule.byDay ≠ [])
    (noOrdinals : ∀ entry ∈ rule.byDay, entry.ordinal? = none)
    (noMonthDays : rule.byMonthDay = []) (noPositions : rule.byPosition = []) :
    (rule.setFrequency .weekly).Occurs start date ↔
      (rule.setFrequency .monthly).Occurs start date := by
  apply occurs_setFrequency_iff everyInterval
  rw [Selects, Selects, picks_weekly_iff weekdays noOrdinals noMonthDays]
  exact and_congr_right fun _ => iff_of_true (Or.inl noPositions) (Or.inl noPositions)

/-- Dates less than 53 weeks apart lie in weeks, or in months, less than 54 apart in number. -/
theorem distance_lt_of_number_lt (rule : Rule) (start : Date) {frequency : Frequency}
    (resolved : frequency = .weekly ∨ frequency = .monthly)
    (near : date.number < anchor.number + 371) :
    (rule.setFrequency frequency).distance start date <
      (rule.setFrequency frequency).distance start anchor + 54 := by
  rcases resolved with rfl | rfl
  · simp only [distance, setFrequency, Date.weekNumber]
    omega
  · have monthOfAnchor := anchor.month_bounds
    have monthOfDate := date.month_bounds
    -- 53 weeks may touch three years, but not a fourth one
    have years : date.year ≤ anchor.year + 2 := by
      by_contra far
      have later := daysBeforeYear_mono (show anchor.year + 3 ≤ date.year by omega)
      have before := daysBeforeYear_lt date.number
      have after := le_daysBeforeYear anchor.number
      change daysBeforeYear date.year < _ at before
      change _ ≤ daysBeforeYear (anchor.year + 1) at after
      simp only [daysBeforeYear] at *
      omega
    simp only [distance, setFrequency, Date.monthNumber, monthNumber]
    omega

/-- A search through 54 weeks or months gets to the next date that a weekly rule has. -/
theorem reaches_of_isLeast_weekly (everyInterval : rule.interval = 1)
    (noPositions : rule.byPosition = []) {frequency : Frequency}
    (resolved : frequency = .weekly ∨ frequency = .monthly) (enough : 54 ≤ settings.maxPeriods)
    (le : start ≤ anchor)
    (least : IsLeast {other | (rule.setFrequency .weekly).Occurs start other ∧ anchor ≤ other}
      date) :
    (rule.setFrequency frequency).Reaches settings start anchor date := by
  have near :=
    (rule.setFrequency .weekly).number_lt_of_weekly rfl everyInterval noPositions le least
  have bounded := rule.distance_lt_of_number_lt start resolved near
  have many := le_visited (rule.setFrequency frequency) enough
  refine Or.inr (((rule.setFrequency frequency).visits_iff_lt_visited everyInterval
    least.1.2).2 ?_)
  exact bounded.trans_le (Int.add_le_add_left (Int.ofNat_le.2 many) _)

/-- Weekdays without an ordinal can be searched by week or by month, wherever weeks begin: if there
    is a date at all, 54 periods of either kind hold one. -/
theorem next_weekly_eq_next_monthly (everyInterval : rule.interval = 1)
    (weekdays : rule.byDay ≠ []) (noOrdinals : ∀ entry ∈ rule.byDay, entry.ordinal? = none)
    (noMonthDays : rule.byMonthDay = []) (noYearDays : rule.byYearDay = [])
    (noWeekNumbers : rule.byWeekNumber = []) (noPositions : rule.byPosition = [])
    (context : Context)
    (weekBegins : ∃ first, context.start.date.weekStart? rule.weekStart = some first)
    (settings : Settings) (enough : 54 ≤ settings.maxPeriods) :
    (rule.setFrequency .weekly).next context settings =
      (rule.setFrequency .monthly).next context settings := by
  have weekly : (rule.setFrequency .weekly).unsupported? = none :=
    unsupported?_eq_none_iff.2 ⟨noMonthDays, noYearDays, noWeekNumbers, noPositions⟩
  have monthly : (rule.setFrequency .monthly).unsupported? = none :=
    unsupported?_eq_none_iff.2 ⟨noYearDays, noWeekNumbers⟩
  have same (date : Date) : (rule.setFrequency .weekly).Occurs context.start.date date ↔
      (rule.setFrequency .monthly).Occurs context.start.date date :=
    occurs_weekly_iff everyInterval weekdays noOrdinals noMonthDays noPositions
  have le := DateTime.date_le_of_le context.start_le_anchor
  apply next_congr weekly monthly
  intro date
  constructor
  · refine next_of_same_dates weekly monthly (begins_of_weekStart? monthly weekBegins)
      (fun date => (same date).symm) rfl rfl rfl fun next => ?_
    exact reaches_of_isLeast_weekly everyInterval noPositions (Or.inr rfl) enough le next.isLeast
  · refine next_of_same_dates monthly weekly (begins_of_weekStart? weekly weekBegins) same rfl rfl
      rfl fun next => ?_
    -- the gap is known for the weekly rule only, but both rules have the same least date
    refine reaches_of_isLeast_weekly everyInterval noPositions (Or.inl rfl) enough le ?_
    simp only [same]
    exact next.isLeast

/-- After the last Monday of February, the next one is almost a year away. -/
theorem next_weekly_february :
    ∃ start ∈ Date.ofYmd? 2018 1 3, ∃ now ∈ Date.ofYmd? 2018 2 27, ∃ date ∈ Date.ofYmd? 2019 2 4,
      (Rule.setFrequency
        { frequency := .monthly
          count? := some 5
          weekStart? := some .sunday
          byDay := [⟨none, .monday⟩]
          byMonth := [2] } .weekly).next
        ⟨.atMidnight start, .atMidnight now⟩ { maxPeriods := 54 } = .ok (some date) := by
  refine ⟨_, rfl, _, rfl, _, rfl, ?_⟩
  rw [next_weekly_eq_next_monthly ?interval ?weekdays ?noOrdinals ?monthDays ?yearDays ?weekNumbers
    ?positions _ ?weekBegins _ ?enough]
  case weekBegins => exact ⟨_, rfl⟩
  case weekdays => decide
  case noOrdinals => decide
  case enough => decide
  all_goals rfl

end WeeksAndMonths

end Recurrence.Rule
