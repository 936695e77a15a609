/-!
# Splitting at the first separator

`List.splitOn` cuts a text at every separator; this file cuts it at the first one only. A text is
a list of characters, or of larger symbols.
-/

namespace Recurrence

variable {α : Type} [DecidableEq α]

/-- The parts of a text before and after its first `separator`, if it has one. -/
def splitFirst? (separator : α) : List α → Option (List α × List α)
  | [] => none
  | c :: rest =>
    if c = separator then some ([], rest)
    else (splitFirst? separator rest).map fun (before, after) => (c :: before, after)

/-- The two parts surround a separator, and the first part has none. -/
theorem splitFirst?_eq_some_iff {separator : α} {text before after : List α} :
    splitFirst? separator text = some (before, after) ↔
      text = before ++ separator :: after ∧ separator ∉ before := by
  induction text generalizing before after with
  | nil => simp [splitFirst?]
  | cons c rest ih =>
    by_cases h : c = separator
    · subst h
      simp only [splitFirst?, if_true, Option.some.injEq, Prod.mk.injEq]
      cases before with
      | nil => simp
      | cons b before => grind
    · simp only [splitFirst?, h, if_false, Option.map_eq_some_iff, Prod.exists, ih, Prod.mk.injEq]
      cases before with
      | nil => grind
      | cons b before => grind

theorem splitFirst?_eq_none_iff {separator : α} {text : List α} :
    splitFirst? separator text = none ↔ separator ∉ text := by
  induction text with
  | nil => simp [splitFirst?]
  | cons c rest ih =>
    by_cases h : c = separator
    · simp [splitFirst?, h]
    · have : separator ≠ c := fun same => h same.symm
      simp [splitFirst?, h, ih, this]

end Recurrence
