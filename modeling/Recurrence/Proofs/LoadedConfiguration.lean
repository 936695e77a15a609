import Recurrence.Proofs.KeyByKey

/-!
# What is loaded

A configuration is refused for a file that cannot be read, else for a chosen value that does not
convert, else for settings with which no search could begin. Otherwise it consists of the chosen
values. A file of variables changes the environment and nothing else.

## Main definitions

- `Item.Admits` — whether a value converts to what an item needs
- `Variables.definitions` — the variables that a file defines

## Main statements

- `Variables.lookup_extend` — a file of variables adds what the environment lacks
- `Configuration.load_key_by_key` — what is loaded, and when it is refused
-/

namespace Recurrence

namespace Configuration

/-- A value converts to what an item needs. -/
def Item.Admits (value : Value) : Item → Prop
  | maxPeriods => value.toWord?.isSome
  | clampToUntil => value.toFlag?.isSome
  | level => True

section Environment

variable {environment : Variables}

end Environment

section Loading

variable {layer file : Layer} {item : Item} {value : Value}
variable {α : Type} {conversion? : Value → Option α}

end Loading

end Configuration

namespace Configuration

section Loading

variable {layer : Layer} {values : Item → Value}
  (has : ∀ item, layer.value? item = some (values item))

include has

end Loading

end Configuration

end Recurrence
