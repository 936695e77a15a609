import Recurrence.Rule.Printer

/-!
# Reading rules

A rule text is cut at its semicolons, and each part at its first equals sign. Empty parts are
passed over. The first part that cannot be read decides the error; a rule whose parts can all be
read is refused only if none of them is a frequency.
-/

namespace Recurrence

/-- Reads one number of a list, or reports it. -/
def NumberField.parseElement (field : NumberField) (element : List Char) :
    Except ParseError Int :=
  match field.range.read? element with
  | some n => .ok n
  | none => .error (.invalidNumber (String.ofList element))

/-- Reads a number below 2³² that is at least `least`, or reports it. -/
def parseWord (least : UInt32) (text : List Char) : Except ParseError UInt32 :=
  match (Decimal.readWord? text).filter (least ≤ ·) with
  | some n => .ok n
  | none => .error (.invalidNumber (String.ofList text))

namespace Part

/-- Reads what a part with a given key says. -/
def parseValue (value : List Char) : Key → Except ParseError Part
  | .frequency =>
    match Frequency.ofCode? (String.ofList value) with
    | some code => .ok (frequency code)
    | none => .error (.invalidFrequency (String.ofList value))
  | .untilBound => untilBound <$> Until.parse value
  | .count => count <$> parseWord 0 value
  | .interval => interval <$> parseWord 1 value
  | .numbers field => numbers field <$> (value.splitOn ',').mapM field.parseElement
  | .byDay => byDay <$> (value.splitOn ',').mapM ByDay.parse
  | .weekStart =>
    match Weekday.ofCode? (String.ofList value) with
    | some day => .ok (weekStart day)
    | none => .error (.invalidWeekStart (String.ofList value))

/-- Reads a part. -/
def parse (text : List Char) : Except ParseError Part :=
  match splitFirst? '=' text with
  | none | some ([], _) => .error (.malformedPart (String.ofList text))
  | some (name, value) =>
    match Key.ofText? (String.ofList name) with
    | none => .error (.unknownKey (String.ofList name))
    | some key => parseValue value key

end Part

namespace Rule

/-- Reads the parts of a rule. -/
def parseParts (text : List Char) : Except ParseError (List Part) :=
  ((text.splitOn ';').filter (· ≠ [])).mapM Part.parse

/-- Reads a rule. -/
def ofValue (text : String) : Except ParseError Rule := do
  let parts ← parseParts text.toList
  match ofParts? parts with
  | some rule => .ok rule
  | none => .error .missingFrequency

/-- Reads a rule from the line of a calendar file. -/
def ofLine (line : String) : Except ParseError Rule :=
  match splitFirst? ':' line.toList with
  | none => .error (.noPropertyName line)
  | some (name, value) =>
    if String.ofList name = propertyName then ofValue (String.ofList value)
    else .error (.otherProperty (String.ofList name))

end Rule

end Recurrence
