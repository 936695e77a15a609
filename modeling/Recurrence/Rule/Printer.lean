import Recurrence.Rule.Basic

/-!
# Writing rules

A rule is written part by part, each part as its key, an equals sign and its value. Semicolons
separate the parts and commas the elements of a list.
-/

namespace Recurrence

/-- The name of the property that holds a recurrence rule. -/
def propertyName : String := "RRULE"

/-- The written form of what a part says. -/
def Part.valueText : Part → List Char
  | frequency value => value.code.toList
  | untilBound value => value.text
  | count value => Decimal.ofNat value.toNat
  | interval value => Decimal.ofNat value.toNat
  | numbers _ values => List.intercalate [','] (values.map Decimal.ofInt)
  | byDay entries => List.intercalate [','] (entries.map ByDay.text)
  | weekStart day => day.code.toList

/-- The written form of a part. -/
def Part.text (part : Part) : List Char :=
  part.key.text.toList ++ '=' :: part.valueText

/-- The written form of a rule. -/
def Rule.toValue (rule : Rule) : String :=
  String.ofList (List.intercalate [';'] (rule.parts.map Part.text))

/-- The line of a calendar file that holds a rule. -/
def Rule.toLine (rule : Rule) : String :=
  propertyName ++ ":" ++ rule.toValue

end Recurrence
