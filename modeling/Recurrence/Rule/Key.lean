import Recurrence.Rule.NumberRange

/-!
# The keys of a rule text

A rule text is a sequence of parts, each with one of fourteen keys. Eight of the keys introduce
a list of numbers.
-/

namespace Recurrence

/-- The parts of a rule that are lists of numbers. -/
inductive NumberField where
  | second
  | minute
  | hour
  | monthDay
  | yearDay
  | weekNumber
  | month
  | position
  deriving DecidableEq

/-- The numbers that may be written in a list. -/
def NumberField.range : NumberField → NumberRange
  | second => ⟨0, 59⟩
  | minute => ⟨0, 59⟩
  | hour => ⟨0, 23⟩
  | monthDay => ⟨-31, 31⟩
  | yearDay => ⟨-366, 366⟩
  | weekNumber => ⟨-53, 53⟩
  | month => ⟨1, 12⟩
  | position => ⟨-366, 366⟩

/-- What a part of a rule is about. -/
inductive Key where
  | frequency
  | untilBound
  | count
  | interval
  | numbers (field : NumberField)
  | byDay
  | weekStart
  deriving DecidableEq

namespace Key

/-- The keys, in the order in which the parts of a rule are written. -/
def all : List Key :=
  [frequency, untilBound, count, interval, numbers .second, numbers .minute, numbers .hour, byDay,
    numbers .monthDay, numbers .yearDay, numbers .weekNumber, numbers .month, numbers .position,
    weekStart]

/-- The name of a key. -/
def text : Key → String
  | frequency => "FREQ"
  | untilBound => "UNTIL"
  | count => "COUNT"
  | interval => "INTERVAL"
  | numbers .second => "BYSECOND"
  | numbers .minute => "BYMINUTE"
  | numbers .hour => "BYHOUR"
  | numbers .monthDay => "BYMONTHDAY"
  | numbers .yearDay => "BYYEARDAY"
  | numbers .weekNumber => "BYWEEKNO"
  | numbers .month => "BYMONTH"
  | numbers .position => "BYSETPOS"
  | byDay => "BYDAY"
  | weekStart => "WKST"

/-- The key with a given name. -/
def ofText? (name : String) : Option Key :=
  all.find? (·.text == name)

theorem ofText?_eq_some_iff {name : String} {key : Key} :
    ofText? name = some key ↔ key.text = name := by
  constructor
  · intro h
    simpa using List.find?_some h
  · rintro rfl
    rcases key with _ | _ | _ | _ | (_ | _ | _ | _ | _ | _ | _ | _) | _ | _ <;> decide

theorem mem_all (key : Key) : key ∈ all := by
  rcases key with _ | _ | _ | _ | (_ | _ | _ | _ | _ | _ | _ | _) | _ | _ <;> decide

end Key

end Recurrence
