import Recurrence.Calendar.Weekday
import Recurrence.Rule.NumberRange
import Recurrence.Rule.ParseError
import Recurrence.Text.Blank

/-!
# Weekdays with an ordinal

An element of the list of weekdays is a weekday on its own, such as `MO`, or one of them within
a month: `2MO` is the second Monday and `-1FR` the last Friday.
-/

namespace Recurrence

/-- A weekday, or the one of them that an ordinal picks. -/
structure ByDay where
  ordinal? : Option Int
  weekday : Weekday
  deriving DecidableEq

namespace ByDay

/-- The ordinals that may be written: a year has at most 53 of a weekday. -/
def ordinalRange : NumberRange := ⟨-53, 53⟩

/-- Every occurrence of a weekday. -/
def every (weekday : Weekday) : ByDay := ⟨none, weekday⟩

/-- One occurrence of a weekday, for an ordinal that may be written. -/
def nth? (ordinal : Int) (weekday : Weekday) : Option ByDay :=
  if ordinalRange.Admits ordinal then some ⟨some ordinal, weekday⟩ else none

/-- The report of an ordinal for which `nth?` makes nothing. -/
def ordinalMessage : String :=
  "assertion failed: ordinal != 0 && (-53..=53).contains(&ordinal)"

/-- The written form of an element. -/
def text (entry : ByDay) : List Char :=
  (match entry.ordinal? with
    | none => []
    | some ordinal => Decimal.ofInt ordinal) ++ entry.weekday.code.toList

/-- Reads an element. Blanks around it do not count; the weekday code begins with the first
    letter, and what is in front of it is the ordinal. -/
def parse (element : List Char) : Except ParseError ByDay :=
  let body := trimBlanks element
  let ordinal := body.takeWhile (!·.isAlpha)
  let code := body.dropWhile (!·.isAlpha)
  match Weekday.ofCode? (String.ofList code) with
  | none => .error (.invalidWeekday (String.ofList element))
  | some weekday =>
    if ordinal = [] then .ok (every weekday)
    else
      match ordinalRange.read? ordinal with
      | none => .error (.invalidNumber (String.ofList element))
      | some n => .ok ⟨some n, weekday⟩

end ByDay

end Recurrence
