import Recurrence.Calendar.DateTime

/-!
# The moments that a search starts from

The next occurrence of a recurring event is asked for at some moment. The event may not have started
by then; the search begins at the later one of the two moments.
-/

namespace Recurrence

/-- The start of a recurring event and the present moment. -/
structure Context where
  start : DateTime
  now : DateTime
  deriving DecidableEq

namespace Context

/-- The later one of the two moments. No occurrence is earlier. -/
def anchor (context : Context) : DateTime :=
  if context.now < context.start then context.start else context.now

theorem start_le_anchor (context : Context) : context.start ≤ context.anchor := by
  simp only [anchor, DateTime.lt_iff, DateTime.le_iff]
  split <;> omega

end Context

end Recurrence
