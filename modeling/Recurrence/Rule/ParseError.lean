/-!
# Why a rule text is refused

Each cause keeps the piece of text that is at fault, as it was written. It is reported with its kind
and with a sentence.
-/

namespace Recurrence

/-- The reason for refusing a rule text. -/
inductive ParseError where
  /-- The line has no colon behind a property name. -/
  | noPropertyName (line : String)
  /-- The line is about another property. -/
  | otherProperty (name : String)
  /-- A part is no key and value with an equals sign between them. -/
  | malformedPart (part : String)
  /-- No part gives the frequency. -/
  | missingFrequency
  /-- A part has a key that rules do not have. -/
  | unknownKey (key : String)
  /-- A frequency has another name. -/
  | invalidFrequency (value : String)
  /-- The first day of the week is no weekday code. -/
  | invalidWeekStart (value : String)
  /-- An element of the list of weekdays has no weekday code. -/
  | invalidWeekday (element : String)
  /-- A number is malformed or out of its range. -/
  | invalidNumber (element : String)
  /-- The end of the recurrence is no date and no date with a time. -/
  | invalidUntil (value : String)
  deriving DecidableEq

/-- The kinds of reasons for refusing a rule text. -/
inductive ParseErrorKind where
  | malformedRule
  | unknownParameter
  | invalidEnumValue
  | invalidWeekday
  | invalidInteger
  | invalidUntilFormat
  deriving DecidableEq

/-- The name under which a kind of reasons is reported. -/
def ParseErrorKind.name : ParseErrorKind → String
  | malformedRule => "MalformedRule"
  | unknownParameter => "UnknownParameter"
  | invalidEnumValue => "InvalidEnumValue"
  | invalidWeekday => "InvalidWeekday"
  | invalidInteger => "InvalidInteger"
  | invalidUntilFormat => "InvalidUntilFormat"

namespace ParseError

/-- The kind of a reason. A rule is malformed if it cannot be cut into parts or lacks the one that
    it needs; a word is no enumeration value if a frequency or a first day of the week is wanted. -/
def kind : ParseError → ParseErrorKind
  | noPropertyName _ => .malformedRule
  | otherProperty _ => .malformedRule
  | malformedPart _ => .malformedRule
  | missingFrequency => .malformedRule
  | unknownKey _ => .unknownParameter
  | invalidFrequency _ => .invalidEnumValue
  | invalidWeekStart _ => .invalidEnumValue
  | invalidWeekday _ => .invalidWeekday
  | invalidNumber _ => .invalidInteger
  | invalidUntil _ => .invalidUntilFormat

/-- The sentence that reports why a rule text is refused. -/
def message : ParseError → String
  | noPropertyName line => "Malformed rule: " ++ line
  | otherProperty name => "Malformed rule: expected RRULE, got " ++ name
  | malformedPart part => "Malformed rule: " ++ part
  | missingFrequency => "Malformed rule: missing FREQ"
  | unknownKey key => "Unknown parameter: " ++ key
  | invalidFrequency value => "Invalid FREQ value: " ++ value
  | invalidWeekStart value => "Invalid WKST value: " ++ value
  | invalidWeekday element => "Invalid weekday: " ++ element
  | invalidNumber element => "Invalid integer: " ++ element
  | invalidUntil value => "Invalid UNTIL format: " ++ value

end ParseError

end Recurrence
