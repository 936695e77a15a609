import Recurrence.Rule.Basic

/-!
# Rules that are not resolved

Occurrences are found for weekly, monthly and yearly rules, and there for the combinations of
parts that pick days of a week or of a month.
-/

namespace Recurrence

/-- The reason for not resolving a rule. -/
inductive Unsupported where
  /-- The frequency is not among the three that are resolved. -/
  | frequency (value : Frequency)
  /-- The rule has a part that is not resolved for its frequency. -/
  | part (frequency : Frequency) (key : Key)
  /-- A monthly rule has days of the year or numbers of weeks. -/
  | monthlyWithYearParts
  /-- A yearly rule picks days, but the months to pick them from are missing. -/
  | yearlyWithoutMonths
  deriving DecidableEq

/-- The sentence that reports why a rule is not resolved. -/
def Unsupported.message (reason : Unsupported) : String :=
  "Unsupported recurrence: " ++
    match reason with
    | frequency value => value.code
    | part value key => value.code ++ " with " ++ key.text
    | monthlyWithYearParts => "MONTHLY with BYYEARDAY or BYWEEKNO"
    | yearlyWithoutMonths => "YEARLY with BYDAY, BYMONTHDAY or BYSETPOS but no BYMONTH"

namespace Rule

/-- The first of some lists of numbers that a rule has. -/
def firstNumbers? (rule : Rule) (fields : List NumberField) : Option NumberField :=
  fields.find? fun field => rule.numbers field ≠ []

/-- A rule has parts that pick days out of the months of a year. -/
def HasDayParts (rule : Rule) : Prop :=
  rule.byDay ≠ [] ∨ rule.byMonthDay ≠ [] ∨ rule.byPosition ≠ []

instance (rule : Rule) : Decidable rule.HasDayParts :=
  inferInstanceAs (Decidable (_ ∨ _ ∨ _))

/-- The reason for not resolving a rule, if there is one. -/
def unsupported? (rule : Rule) : Option Unsupported :=
  match rule.frequency with
  | .weekly =>
    (rule.firstNumbers? [.monthDay, .yearDay, .weekNumber, .position]).map fun field =>
      .part .weekly (.numbers field)
  | .monthly =>
    (rule.firstNumbers? [.yearDay, .weekNumber]).map fun _ => .monthlyWithYearParts
  | .yearly =>
    match rule.firstNumbers? [.yearDay, .weekNumber] with
    | some field => some (.part .yearly (.numbers field))
    | none => if rule.byMonth = [] ∧ rule.HasDayParts then some .yearlyWithoutMonths else none
  | other => some (.frequency other)

end Rule

end Recurrence
