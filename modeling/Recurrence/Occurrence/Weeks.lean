import Recurrence.Occurrence.Periods
import Recurrence.Rule.Basic

/-!
# Weekly recurrence

Weeks are numbered from the one in which the event starts. Which day is the first one of a week
decides which dates share a week, and so matters when weeks are left out.
-/

namespace Recurrence

/-- The weekdays that a rule asks for: those that it names, or the one of the event start.
    Ordinals have no meaning within a week. -/
def Rule.weekdays (rule : Rule) (start : Date) : List Weekday :=
  if rule.byDay = [] then [start.weekday] else rule.byDay.map (·.weekday)

/-- The weeks, of which number 0 begins on `origin`. Candidates are the dates with one of the
    weekdays `days`, and in one of `months` if there are any. -/
def Periods.weeks (origin : Date) (days : List Weekday) (months : List Int) : Periods where
  indexOf date := (date.number - origin.number) / 7
  candidates index :=
    match origin.addDays? (7 * index) with
    | none => []
    | some first =>
      (List.range 7).filterMap fun (offset : Nat) =>
        (first.addDays? offset).filter fun date =>
          date.weekday ∈ days ∧ (months = [] ∨ (date.month : Int) ∈ months)

/-- The first date from `date` on that has one of the weekdays `days`. -/
def Date.nearest? (date : Date) (days : List Weekday) : Option Date :=
  (days.map date.weekday.daysUntil).min?.bind fun offset => date.addDays? offset

end Recurrence
