import Recurrence.Rule.ByDay
import Recurrence.Rule.Frequency
import Recurrence.Rule.Key
import Recurrence.Rule.Until

/-!
# Recurrence rules

A rule names a frequency and may narrow it down: by an interval, by an end, by a number of
occurrences and by lists of the days that count. Nothing keeps the numbers in the lists within
the ranges of a rule text; a rule can be made by hand as well.
-/

namespace Recurrence

/-- A recurrence rule. -/
structure Rule where
  /-- The unit of time in which the rule repeats. -/
  frequency : Frequency
  /-- How many units lie between two repetitions. -/
  interval? : Option UInt32 := none
  /-- The last day or moment. -/
  until? : Option Until := none
  /-- The greatest number of occurrences. -/
  count? : Option UInt32 := none
  /-- The first day of the week. -/
  weekStart? : Option Weekday := none
  bySecond : List Int := []
  byMinute : List Int := []
  byHour : List Int := []
  byDay : List ByDay := []
  /-- Days of the month, negative ones from its end. -/
  byMonthDay : List Int := []
  /-- Days of the year, negative ones from its end. -/
  byYearDay : List Int := []
  byWeekNumber : List Int := []
  byMonth : List Int := []
  /-- Positions in the set of one period, negative ones from its end. -/
  byPosition : List Int := []
  deriving DecidableEq

/-- One part of a rule. -/
inductive Part where
  | frequency (value : Frequency)
  | untilBound (value : Until)
  | count (value : UInt32)
  | interval (value : UInt32)
  | numbers (field : NumberField) (values : List Int)
  | byDay (entries : List ByDay)
  | weekStart (day : Weekday)
  deriving DecidableEq

namespace Part

/-- What a part is about. -/
def key : Part → Key
  | frequency _ => .frequency
  | untilBound _ => .untilBound
  | count _ => .count
  | interval _ => .interval
  | numbers field _ => .numbers field
  | byDay _ => .byDay
  | weekStart _ => .weekStart

/-- The frequency that a part gives. -/
def frequency? : Part → Option Frequency
  | frequency value => some value
  | _ => none

end Part

namespace Rule

/-- The number of units between two repetitions: one unless a greater number is given. -/
def interval (rule : Rule) : Nat :=
  max 1 ((rule.interval?.map UInt32.toNat).getD 1)

/-- The first day of the week: Monday unless another day is given. -/
def weekStart (rule : Rule) : Weekday :=
  rule.weekStart?.getD .monday

theorem interval_pos (rule : Rule) : 0 < rule.interval :=
  Nat.lt_of_lt_of_le Nat.zero_lt_one (Nat.le_max_left _ _)

/-- One of the lists of numbers. -/
def numbers (rule : Rule) : NumberField → List Int
  | .second => rule.bySecond
  | .minute => rule.byMinute
  | .hour => rule.byHour
  | .monthDay => rule.byMonthDay
  | .yearDay => rule.byYearDay
  | .weekNumber => rule.byWeekNumber
  | .month => rule.byMonth
  | .position => rule.byPosition

/-- The rule with one of the lists of numbers replaced. -/
def setNumbers (rule : Rule) (values : List Int) : NumberField → Rule
  | .second => { rule with bySecond := values }
  | .minute => { rule with byMinute := values }
  | .hour => { rule with byHour := values }
  | .monthDay => { rule with byMonthDay := values }
  | .yearDay => { rule with byYearDay := values }
  | .weekNumber => { rule with byWeekNumber := values }
  | .month => { rule with byMonth := values }
  | .position => { rule with byPosition := values }

/-- The part of a rule with a given key. Absent values and empty lists are no parts. -/
def part? (rule : Rule) : Key → Option Part
  | .frequency => some (.frequency rule.frequency)
  | .untilBound => rule.until?.map .untilBound
  | .count => rule.count?.map .count
  | .interval => rule.interval?.map .interval
  | .numbers field =>
    if rule.numbers field = [] then none else some (.numbers field (rule.numbers field))
  | .byDay => if rule.byDay = [] then none else some (.byDay rule.byDay)
  | .weekStart => rule.weekStart?.map .weekStart

/-- The rule with one part replaced. -/
def assign (rule : Rule) : Part → Rule
  | .frequency value => { rule with frequency := value }
  | .untilBound value => { rule with until? := some value }
  | .count value => { rule with count? := some value }
  | .interval value => { rule with interval? := some value }
  | .numbers field values => rule.setNumbers values field
  | .byDay entries => { rule with byDay := entries }
  | .weekStart day => { rule with weekStart? := some day }

/-- The parts of a rule, in the order in which they are written. -/
def parts (rule : Rule) : List Part :=
  Key.all.filterMap rule.part?

/-- The rule with the given parts, if one of them is a frequency. Of several parts with one key
    the last one counts. -/
def ofParts? (parts : List Part) : Option Rule :=
  (parts.findSome? Part.frequency?).map fun frequency => parts.foldl assign { frequency }

/-- The part of a rule with a given key is about that key. -/
theorem key_of_part? {rule : Rule} {key : Key} {part : Part} (h : rule.part? key = some part) :
    part.key = key := by
  cases key <;> simp only [part?, Option.map_eq_some_iff] at h <;> grind [Part.key]

/-- Assigning a part to a rule leaves the parts with other keys as they are. -/
theorem part?_assign_of_ne {rule : Rule} {part : Part} {key : Key} (h : part.key ≠ key) :
    (rule.assign part).part? key = rule.part? key := by
  rcases part with _ | _ | _ | _ | ⟨field, _⟩ | _ | _
  case numbers =>
    rcases key with _ | _ | _ | _ | other | _ | _
    case numbers =>
      have : field ≠ other := fun same => h (by rw [same]; rfl)
      cases field <;> cases other <;> first | rfl | contradiction
    all_goals cases field <;> rfl
  all_goals
    rcases key with _ | _ | _ | _ | other | _ | _
    all_goals first | exact absurd rfl h | rfl

end Rule

end Recurrence
