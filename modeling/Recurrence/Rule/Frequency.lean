/-!
# Frequencies

How often a rule repeats, before its interval and its other parts are taken into account.
-/

namespace Recurrence

/-- The unit of time in which a rule repeats. -/
inductive Frequency where
  | secondly
  | minutely
  | hourly
  | daily
  | weekly
  | monthly
  | yearly
  deriving DecidableEq

namespace Frequency

/-- The seven frequencies, from the shortest unit to the longest. -/
def all : List Frequency :=
  [secondly, minutely, hourly, daily, weekly, monthly, yearly]

/-- The name of a frequency in a rule text. -/
def code : Frequency → String
  | secondly => "SECONDLY"
  | minutely => "MINUTELY"
  | hourly => "HOURLY"
  | daily => "DAILY"
  | weekly => "WEEKLY"
  | monthly => "MONTHLY"
  | yearly => "YEARLY"

/-- The frequency with a given name. Names are upper case. -/
def ofCode? (text : String) : Option Frequency :=
  all.find? (·.code == text)

theorem ofCode?_eq_some_iff {text : String} {frequency : Frequency} :
    ofCode? text = some frequency ↔ frequency.code = text := by
  constructor
  · intro h
    simpa using List.find?_some h
  · rintro rfl
    cases frequency <;> decide

end Frequency

end Recurrence
