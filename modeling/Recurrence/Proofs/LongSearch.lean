import Recurrence.Proofs.CalendarCycle
import Recurrence.Proofs.CountedSearch

/-!
# A search through a whole cycle of the calendar is final

A search without a number of occurrences gives up after a number of periods. If these are more
than a cycle of the calendar has, it gives up only where there is nothing to find: an occurrence
beyond them could be moved back by as many cycles as the interval says, and would still not lie
before the anchor. One period more than the cycle is needed, as the first one may hold dates
before the anchor.
-/

namespace Recurrence.Rule

variable {rule : Rule} {settings : Settings} {start anchor date : Date} {context : Context}

/-- A date that lies cycles after the event start can be moved back by them. -/
theorem exists_cycles_before (n : Nat) (far : (rule.cycle * n : Int) < rule.distance start date) :
    ∃ earlier : Date, earlier.number = date.number + daysPerCycle * (-n) := by
  have yearOfStart := start.year_bounds
  have yearOfDate := date.year_bounds
  have monthOfStart := start.month_bounds
  have monthOfDate := date.month_bounds
  cases frequency : rule.frequency
  case weekly =>
    simp only [cycle, distance, frequency, Date.weekNumber] at far
    simp only [daysPerCycle]
    exact Date.exists_of_between (a := start) (b := date) (by omega) (by omega)
  all_goals
    simp only [cycle, distance, frequency, Date.monthNumber, monthNumber] at far
    first
    | omega
    | exact Date.exists_of_cycles date (-n) (by omega)

/-- If a search visits more periods than a cycle of the calendar has, it gets to the least
    occurrence on or after the anchor. -/
theorem visits_of_isLeast (resolved : rule.unsupported? = none) (le : start ≤ anchor) {limit : Nat}
    (enough : rule.cycle < limit)
    (least : IsLeast {other | rule.Occurs start other ∧ anchor ≤ other} date) :
    Visits rule.interval limit none (rule.distance start anchor) (rule.distance start date) := by
  have positive := rule.interval_pos
  have current : 0 ≤ rule.distance start anchor := by
    rw [← rule.distance_self start]
    exact rule.distance_mono start le
  have first := (roundUp_bounds (rule.distance start anchor) positive).1
  obtain ⟨k, reached⟩ := (exists_roundUp_add_iff positive).2
    ⟨least.1.1.interval_dvd, rule.distance_mono start least.1.2⟩
  rw [← reached, Visits, ncard_multiples positive]
  by_contra beyond
  have steps : ((rule.cycle : Int) + 1) * rule.interval ≤ k * rule.interval :=
    Int.mul_le_mul_of_nonneg_right (by omega) (by omega)
  rw [add_mul] at steps
  have far : (rule.cycle * rule.interval : Int) < rule.distance start date := by omega
  obtain ⟨earlier, number⟩ := exists_cycles_before rule.interval far
  have distance := rule.distance_of_cycles start number
  rw [mul_neg] at distance
  have notBefore : anchor ≤ earlier := by
    by_contra before
    have := rule.distance_mono start (le_of_lt (not_le.1 before))
    omega
  have occurs : rule.Occurs start earlier :=
    occurs_of_cycles resolved number (dvd_mul_of_dvd_right (dvd_neg.2 (dvd_refl _)) _)
      (le_trans le notBefore) least.1.1
  have := Date.le_iff.1 (least.2 ⟨occurs, notBefore⟩)
  simp only [daysPerCycle] at number
  omega

/-- Without an end and a number of occurrences, a search that covers a cycle of the calendar finds
    the least occurrence on or after the anchor, however far away it is. -/
theorem next_eq_some_iff_isLeast (resolved : rule.unsupported? = none)
    (endless : rule.until? = none) (uncounted : rule.count? = none)
    (begins : rule.Begins context.start.date) (enough : rule.cycle < settings.maxPeriods.toNat) :
    rule.next context settings = .ok (some date) ↔
      IsLeast {other | rule.Occurs context.start.date other ∧ context.anchor.date ≤ other}
        date := by
  rw [next_eq_some_iff resolved, and_iff_right begins]
  constructor
  · exact IsNext.isLeast
  · intro least
    refine ⟨least, by simp [endless], by simp [endless], by simp [uncounted], Or.inr ?_⟩
    rw [uncounted]
    exact visits_of_isLeast resolved (DateTime.date_le_of_le context.start_le_anchor) enough least

/-- If a search that covers a cycle of the calendar finds nothing, there is nothing to find: the
    rule is not due on any date from the anchor on. -/
theorem next_eq_none_iff_never_due (resolved : rule.unsupported? = none)
    (endless : rule.until? = none) (uncounted : rule.count? = none) (context : Context)
    (weekBegins : ∃ first, context.start.date.weekStart? rule.weekStart = some first)
    (enough : rule.cycle < settings.maxPeriods.toNat) :
    rule.next context settings = .ok none ↔
      ∀ date, context.anchor.date ≤ date →
        rule.next ⟨context.start, .atMidnight date⟩ settings ≠ .ok (some date) := by
  have begins := begins_of_weekStart? resolved weekBegins
  constructor
  · intro nothing date notBefore due
    have occurs := ((next_eq_some_iff resolved).1 due).2.isLeast.1.1
    obtain ⟨first, least⟩ := exists_isLeast_of_occurs occurs notBefore
    have found := (next_eq_some_iff_isLeast resolved endless uncounted begins enough).2 least
    rw [nothing] at found
    cases found
  · intro never
    apply next_eq_none resolved
    intro date found
    have searching : 0 < settings.maxPeriods := UInt32.lt_iff_toNat_lt.2 (Nat.zero_lt_of_lt enough)
    have notBefore := ((next_eq_some_iff resolved).1 found).2.isLeast.1.2
    exact never date notBefore (isDueOn_of_next resolved searching (Or.inr endless) found)

/-- Every twenty-fifth year from 2018 on, a 29 February that is a Monday. There is one in 2168, so a
    search from 2018 on does not come to an end without a date, be it through 401 years only. -/
theorem next_ne_none_of_leap_monday :
    ∃ start ∈ Date.ofYmd? 2018 1 1,
      Rule.next
          { frequency := .yearly
            interval? := some 25
            byMonth := [2]
            byMonthDay := [29]
            byDay := [⟨none, .monday⟩] }
          ⟨.atMidnight start, .atMidnight start⟩ { maxPeriods := 401 } ≠ .ok none := by
  obtain ⟨date, found⟩ : ∃ date, date ∈ Date.ofYmd? 2168 2 29 := ⟨_, rfl⟩
  refine ⟨_, rfl, fun nothing => ?_⟩
  refine (next_eq_none_iff_never_due ?resolved ?endless ?uncounted _ ?weekBegins ?enough).1 nothing
    date ?notBefore ?due
  case weekBegins => exact ⟨_, rfl⟩
  case enough => decide
  case notBefore =>
    cases found
    decide
  case due =>
    cases found
    decide +kernel
  all_goals rfl

end Recurrence.Rule
