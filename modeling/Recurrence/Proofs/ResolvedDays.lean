import Recurrence.Proofs.Gathering
import Recurrence.Proofs.TracedSearch

/-!
# Resolving the days of a month one by one

The days of a month that a rule picks are found on a way through the month. They can as well be
resolved one by one: a day that is counted from the end of the month needs the length of the month,
which is the number of the day before the first one of the next month, and an ordinal counts the
whole weeks since the first day of the month or until the last one. The days then have to be put in
order, as a rule lists them in any order and may name one of them twice.
-/

namespace Recurrence

/-- The date of a day of a month of `length` days. Negative days count from the end of the month. -/
def Date.ofMonthDay? (year : Int) (month length : Nat) (n : Int) : Option Date :=
  let day := if n < 0 then length + n + 1 else n
  if 1 ≤ day ∧ day ≤ length then ofYmd? year month day.toNat else none

/-- The weekday is that of a date, and an ordinal is the number of the date among those with this
    weekday from `first` on, or with a negative sign among those up to `last`. -/
def ByDay.Matches (entry : ByDay) (first last date : Date) : Prop :=
  entry.weekday = date.weekday ∧ ∀ n ∈ entry.ordinal?,
    if 0 < n then (date.number - first.number) / 7 + 1 = n
    else -((last.number - date.number) / 7 + 1) = n

instance (entry : ByDay) (first last date : Date) : Decidable (entry.Matches first last date) :=
  inferInstanceAs (Decidable (_ ∧ _))

namespace Rule

/-- The days that a rule lists in a month of `length` days, weekdays aside: its days of the month,
    or all days if it has weekdays alone, or the day of the month on which the event started. -/
def listDays (rule : Rule) (startDay : Nat) (year : Int) (month length : Nat) : List Date :=
  if rule.byMonthDay ≠ [] then rule.byMonthDay.filterMap (Date.ofMonthDay? year month length)
  else if rule.byDay ≠ [] then (List.range' 1 length).filterMap (Date.ofYmd? year month)
  else (Date.ofYmd? year month startDay).toList

/-- The days of a month that a rule picks, resolved one by one and then put in order. The length of
    the month is found from the month after it; weekdays need its first and its last day. -/
def resolveDays (rule : Rule) (startDay : Nat) (year : Int) (month : Nat) : List Date :=
  let length := (tracedMonthLength year month).value
  let days := rule.listDays startDay year month length
  inOrder <|
    if rule.byDay = [] then days
    else
      (Date.ofYmd? year month 1).elim [] fun first =>
        (Date.ofYmd? year month length).elim [] fun last =>
          days.filter fun date => ∃ entry ∈ rule.byDay, entry.Matches first last date

end Rule

variable {rule : Rule} {startDay month length : Nat} {year n : Int} {date first last : Date}

/-- A day that is counted from either end names the date with that day of the month. -/
theorem Date.ofMonthDay?_eq_some_iff :
    ofMonthDay? year month (monthLength year month) n = some date ↔
      (date.year = year ∧ date.month = month) ∧
        Position.Names n (date.day - 1) (monthLength year month - date.day) := by
  have dayBounds := date.day_bounds
  simp only [ofMonthDay?, Option.ite_none_right_eq_some, ofYmd?_eq_some_iff, Position.Names]
  constructor
  · rintro ⟨inMonth, rfl, rfl, day⟩
    refine ⟨⟨rfl, rfl⟩, ?_⟩
    split at inMonth <;> omega
  · rintro ⟨⟨rfl, rfl⟩, named⟩
    have day : (if n < 0 then (monthLength date.year date.month : Int) + n + 1 else n) =
        date.day := by
      split <;> omega
    rw [day]
    exact ⟨by omega, rfl, rfl, Int.toNat_natCast _⟩

/-- No day of a month is resolved to a date of another month. -/
theorem Rule.inMonth_of_mem_listDays (listed : date ∈ rule.listDays startDay year month length) :
    date.year = year ∧ date.month = month := by
  simp only [listDays] at listed
  split at listed
  · obtain ⟨n, -, found⟩ := List.mem_filterMap.1 listed
    obtain ⟨-, found⟩ := Option.ite_none_right_eq_some.1 found
    exact (Date.ofYmd?_eq_some_iff.1 found).imp_right And.left
  · split at listed
    · obtain ⟨day, -, found⟩ := List.mem_filterMap.1 listed
      exact (Date.ofYmd?_eq_some_iff.1 found).imp_right And.left
    · exact (Date.ofYmd?_eq_some_iff.1 (Option.mem_toList.1 listed)).imp_right And.left

/-- With the length of the month, the dates that are listed are those whose day is picked. -/
theorem Rule.mem_listDays_iff :
    date ∈ rule.listDays startDay year month (monthLength year month) ↔
      (date.year = year ∧ date.month = month) ∧
        rule.PicksDay startDay (monthLength year month) date.day := by
  have dayBounds := date.day_bounds
  simp only [listDays, PicksDay]
  by_cases noDay : rule.byMonthDay = []
  · rw [if_neg (not_not.2 noDay), if_pos noDay]
    by_cases noWeekday : rule.byDay = []
    · rw [if_neg (not_not.2 noWeekday), Option.mem_toList, Date.ofYmd?_eq_some_iff]
      tauto
    · rw [if_pos noWeekday]
      simp only [List.mem_filterMap, List.mem_range'_1, Date.ofYmd?_eq_some_iff]
      constructor
      · rintro ⟨day, -, sameYear, sameMonth, -⟩
        exact ⟨⟨sameYear, sameMonth⟩, fun none => absurd none noWeekday⟩
      · rintro ⟨⟨rfl, rfl⟩, -⟩
        exact ⟨date.day, by omega, rfl, rfl, rfl⟩
  · rw [if_pos noDay, if_neg noDay]
    simp only [List.mem_filterMap, Date.ofMonthDay?_eq_some_iff]
    tauto

/-- The whole weeks since the first and until the last day of a month count the dates of the month
    with the same weekday. -/
theorem ByDay.matches_iff {entry : ByDay} (isFirst : Date.ofYmd? year month 1 = some first)
    (isLast : Date.ofYmd? year month (monthLength year month) = some last)
    (inMonth : date.year = year ∧ date.month = month) :
    entry.Matches first last date ↔
      entry.weekday = date.weekday ∧ ∀ n ∈ entry.ordinal?,
        Position.Names n ((date.day - 1) / 7) ((monthLength year month - date.day) / 7) := by
  obtain ⟨rfl, rfl⟩ := inMonth
  obtain ⟨firstYear, firstMonth, firstDay⟩ := Date.ofYmd?_eq_some_iff.1 isFirst
  obtain ⟨lastYear, lastMonth, lastDay⟩ := Date.ofYmd?_eq_some_iff.1 isLast
  have dayBounds := date.day_bounds
  have number := date.number_eq
  have firstNumber := first.number_eq
  have lastNumber := last.number_eq
  rw [firstYear, firstMonth, firstDay] at firstNumber
  rw [lastYear, lastMonth, lastDay] at lastNumber
  refine and_congr_right fun _ => forall₂_congr fun n _ => ?_
  simp only [Position.Names]
  split <;> omega

/-- Leaving days out and putting the rest in order adds no date of another month. -/
theorem Rule.inMonth_of_mem_resolveDays (resolved : date ∈ rule.resolveDays startDay year month) :
    date.year = year ∧ date.month = month := by
  rw [resolveDays, mem_inOrder] at resolved
  split at resolved
  case isTrue => exact inMonth_of_mem_listDays resolved
  case isFalse =>
    cases isFirst : Date.ofYmd? year month 1 with
    | none =>
      rw [isFirst] at resolved
      cases resolved
    | some first =>
      rw [isFirst, Option.elim_some] at resolved
      cases isLast : Date.ofYmd? year month (tracedMonthLength year month).value with
      | none =>
        rw [isLast] at resolved
        cases resolved
      | some last =>
        rw [isLast, Option.elim_some] at resolved
        exact inMonth_of_mem_listDays (List.mem_filter.1 resolved).1

/-- The days of a month that are resolved one by one are the dates that the rule picks in it. -/
theorem Rule.mem_resolveDays_iff :
    date ∈ rule.resolveDays startDay year month ↔
      (date.year = year ∧ date.month = month) ∧ rule.PicksInMonth startDay date := by
  by_cases inMonth : date.year = year ∧ date.month = month
  · obtain ⟨rfl, rfl⟩ := inMonth
    -- a month that holds a date has a first and a last day, and so the length that is found for it
    obtain ⟨first, isFirst⟩ : ∃ first, Date.ofYmd? date.year date.month 1 = some first :=
      Option.ne_none_iff_exists'.1 Date.ofYmd?_first_ne_none
    obtain ⟨last, isLast⟩ := Date.exists_last_of_first isFirst
    rw [resolveDays, mem_inOrder, value_tracedMonthLength isFirst, isFirst, isLast,
      Option.elim_some, Option.elim_some, picksInMonth_iff, PicksWeekday]
    split
    case isTrue noWeekday =>
      rw [mem_listDays_iff]
      simp only [noWeekday, true_or, and_true]
    case isFalse weekdays =>
      rw [List.mem_filter, mem_listDays_iff, decide_eq_true_eq, and_assoc]
      simp only [ByDay.matches_iff isFirst isLast ⟨rfl, rfl⟩, weekdays, false_or]
  · rw [iff_false_left (fun resolved => inMonth (inMonth_of_mem_resolveDays resolved))]
    exact fun picked => inMonth picked.1

/-- Resolving the days of a month one by one gives the days that are found on a way through it. -/
theorem Rule.resolveDays_eq_monthDays (rule : Rule) (startDay : Nat) (year : Int) (month : Nat) :
    rule.resolveDays startDay year month = rule.monthDays startDay year month :=
  List.Pairwise.eq_of_mem_iff (inOrder_ascending _) monthDays_ascending fun _ =>
    mem_resolveDays_iff.trans mem_monthDays_iff.symm

/-- The days of a month that a rule picks are listed exactly and in ascending order, for every year
    and every number of a month, be there such a month in the calendar or not: the dates of that
    year and month whose day some day of the month of the rule names, counted among the dates of
    the month from its front or from its end, whose weekday some entry has, with an ordinal that
    counts it among the dates of the month with that weekday, or, if the rule has neither, whose
    day is that of the event start. Resolving the days one by one gives the same list. -/
theorem Rule.monthDays_exactly (rule : Rule) (startDay : Nat) (year : Int) (month : Nat) :
    (rule.monthDays startDay year month).Pairwise (· < ·) ∧
      (∀ date, date ∈ rule.monthDays startDay year month ↔
        (date.year = year ∧ date.month = month) ∧ rule.PicksInMonth startDay date) ∧
      rule.resolveDays startDay year month = rule.monthDays startDay year month :=
  ⟨monthDays_ascending, fun _ => mem_monthDays_iff, rule.resolveDays_eq_monthDays _ _ _⟩

/-- The last month of the calendar has its last day, though no month comes after it. -/
example : ∃ date ∈ Date.ofYmd? lastYear 12 31,
    Rule.monthDays { frequency := .monthly, byMonthDay := [-1, 0, 31] } 1 lastYear 12 = [date] :=
  ⟨_, rfl, rfl⟩

end Recurrence
