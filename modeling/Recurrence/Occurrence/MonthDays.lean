import Recurrence.Calendar.Date
import Recurrence.Occurrence.Position
import Recurrence.Rule.Basic

/-!
# The days of a month that a rule picks

Days of the month and weekdays narrow each other down. If a rule has neither, the day of the
month on which the event started is picked.
-/

namespace Recurrence.Rule

/-- The condition that the days of the month set: some of them names the day, which has `length`
    days in its month. -/
def PicksDay (rule : Rule) (startDay length day : Nat) : Prop :=
  if rule.byMonthDay = [] then rule.byDay = [] → day = startDay
  else ∃ n ∈ rule.byMonthDay, Position.Names n (day - 1) (length - day)

instance (rule : Rule) (startDay length day : Nat) :
    Decidable (rule.PicksDay startDay length day) :=
  inferInstanceAs (Decidable (ite _ _ _))

/-- The condition that the weekdays set: one of them is that of the day, and its ordinal, if it
    has one, names the place of the day among the same weekdays of the month. -/
def PicksWeekday (rule : Rule) (length day : Nat) (weekday : Weekday) : Prop :=
  rule.byDay = [] ∨
    ∃ entry ∈ rule.byDay, entry.weekday = weekday ∧
      ∀ n ∈ entry.ordinal?, Position.Names n ((day - 1) / 7) ((length - day) / 7)

instance (rule : Rule) (length day : Nat) (weekday : Weekday) :
    Decidable (rule.PicksWeekday length day weekday) :=
  inferInstanceAs (Decidable (_ ∨ _))

/-- The days of a month that a rule picks, in ascending order. The event started on day
    `startDay` of a month. -/
def monthDays (rule : Rule) (startDay : Nat) (year : Int) (month : Nat) : List Date :=
  match Date.ofYmd? year month 1 with
  | none => []
  | some first =>
    let length := monthLength year month
    (List.range' 1 length).filterMap fun day =>
      if rule.PicksDay startDay length day then
        (first.addDays? (day - 1)).filter fun date => rule.PicksWeekday length day date.weekday
      else none

end Recurrence.Rule
