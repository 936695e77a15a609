/-!
# Settings of the search

A search gives up after a number of periods, as there are rules that never recur.
-/

namespace Recurrence

/-- The number of periods that are searched unless another number is given. -/
def defaultMaxPeriods : UInt32 := 1000

/-- How an occurrence is searched for. -/
structure Settings where
  /-- The number of periods after which a search gives up. -/
  maxPeriods : UInt32 := defaultMaxPeriods
  /-- Whether a date after the end of the recurrence is dropped. Otherwise the end is compared
      with the present moment alone. -/
  clampToUntil : Bool := true
  deriving DecidableEq

end Recurrence
