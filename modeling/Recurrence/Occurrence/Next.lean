import Recurrence.Occurrence.Context
import Recurrence.Occurrence.Months
import Recurrence.Occurrence.Settings
import Recurrence.Occurrence.Unsupported
import Recurrence.Occurrence.Weeks

/-!
# The next occurrence

The next occurrence of a rule is the first date of the recurrence on or after the anchor of a
context. A rule that is not resolved is refused whatever the context is. Having no further
occurrence is no error.
-/

namespace Recurrence.Rule

/-- The periods in which a rule repeats. There are none if the week in which the event starts
    begins before the calendar does. -/
def periods? (rule : Rule) (start : Date) : Option Periods :=
  match rule.frequency with
  | .weekly =>
    (start.weekStart? rule.weekStart).map fun origin =>
      .weeks origin (rule.weekdays start) rule.byMonth
  | .monthly => some (.months rule start)
  | .yearly => some (.years rule start)
  | _ => none

/-- A weekly rule that leaves out no week and counts no occurrences. -/
def EveryWeek (rule : Rule) : Prop :=
  rule.frequency = .weekly ∧ rule.interval = 1 ∧ rule.count? = none ∧ rule.byMonth = []

instance (rule : Rule) : Decidable rule.EveryWeek :=
  inferInstanceAs (Decidable (_ ∧ _ ∧ _ ∧ _))

/-- The first occurrence on or after `anchor`, the end of the recurrence aside. A rule for every
    week is settled without a search. -/
def search? (rule : Rule) (start anchor : Date) (settings : Settings) : Option Date :=
  if rule.EveryWeek then anchor.nearest? (rule.weekdays start)
  else
    (rule.periods? start).bind fun periods =>
      periods.firstOnOrAfter? start anchor rule.interval settings.maxPeriods.toNat
        (rule.count?.map UInt32.toNat)

/-- The first occurrence on or after the anchor, unless the recurrence is over by then. -/
def due? (rule : Rule) (context : Context) (settings : Settings) : Option Date :=
  if ∃ bound ∈ rule.until?, bound.IsBefore context.now then none
  else
    (rule.search? context.start.date context.anchor.date settings).filter fun date =>
      ¬(settings.clampToUntil ∧ ∃ bound ∈ rule.until?, bound.date < date)

/-- The next occurrence of a rule, or the reason for not resolving it. -/
def next (rule : Rule) (context : Context) (settings : Settings) :
    Except Unsupported (Option Date) :=
  match rule.unsupported? with
  | some reason => .error reason
  | none => .ok (rule.due? context settings)

end Recurrence.Rule
