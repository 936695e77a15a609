import Recurrence.Occurrence.Next

/-!
# Schedules

A schedule is a rule together with the start of its event. Without a start the event starts at
whatever the present moment is.
-/

namespace Recurrence

/-- A rule with the start of its event. -/
structure Schedule where
  rule : Rule
  start? : Option DateTime := none
  deriving DecidableEq

/-- The dates of a walk through a recurrence. -/
structure Walk where
  dates : List Date
  /-- Whether the walk ended because there was no further occurrence. -/
  exhausted : Bool
  deriving DecidableEq

namespace Schedule

/-- The context of a search at the moment `now`. -/
def context (schedule : Schedule) (now : DateTime) : Context :=
  ⟨schedule.start?.getD now, now⟩

/-- The next occurrence at the moment `now`. -/
def next (schedule : Schedule) (now : DateTime) (settings : Settings) :
    Except Unsupported (Option Date) :=
  schedule.rule.next (schedule.context now) settings

/-- The beginning of the day after `date`, if the calendar holds it. -/
def dayAfter? (date : Date) : Option DateTime :=
  (date.addDays? 1).map .atMidnight

/-- The next occurrence, and the moment from which the one after it is found. The present moment
    stays if there is no such occurrence or no day after it. -/
def advance (schedule : Schedule) (now : DateTime) (settings : Settings) :
    Except Unsupported (Option Date × DateTime) := do
  let found ← schedule.next now settings
  return (found, (found.bind dayAfter?).getD now)

/-- At most `steps` occurrences, each searched from the day after the one before. -/
def walk (schedule : Schedule) (settings : Settings) :
    (steps : Nat) → (now : DateTime) → Except Unsupported Walk
  | 0, _ => return ⟨[], false⟩
  | steps + 1, now => do
    match ← schedule.next now settings with
    | none => return ⟨[], true⟩
    | some date =>
      match dayAfter? date with
      | none => return ⟨[date], false⟩
      | some following =>
        let rest ← walk schedule settings steps following
        return ⟨date :: rest.dates, rest.exhausted⟩

end Schedule

end Recurrence
