import Recurrence.Configuration.Layer
import Recurrence.Occurrence.Settings

/-!
# Configuration items

There are three items. Each has a name inside a table.
-/

namespace Recurrence.Configuration

/-- Something that can be configured. -/
inductive Item where
  | maxPeriods
  | clampToUntil
  | level
  deriving DecidableEq

namespace Item

/-- The place of the table that holds an item. -/
def table : Item → Path
  | maxPeriods => ["evaluation"]
  | clampToUntil => ["evaluation"]
  | level => ["logging"]

/-- The name of an item in its table. -/
def name : Item → String
  | maxPeriods => "max_periods"
  | clampToUntil => "clamp_to_until"
  | level => "level"

/-- The place of an item. -/
def path (item : Item) : Path := item.table ++ [item.name]

/-- The value of an item that is given nowhere. -/
def default : Item → Value
  | maxPeriods => .number defaultMaxPeriods.toNat
  | clampToUntil => .flag true
  | level => .text "info"

/-- The value of an item that its table lacks because the table took the place of a value. The
    settings of the search are filled up with the defaults; the level of logging is required. -/
def fallback? : Item → Option Value
  | maxPeriods => some (default .maxPeriods)
  | clampToUntil => some (default .clampToUntil)
  | level => none

end Item

namespace Layer

/-- The layer that gives every item its default. -/
def defaults : Layer :=
  [Item.maxPeriods, .clampToUntil, .level].map fun item => ⟨item.path, .value item.default⟩

/-- The value of an item, which stands in the table of the item. -/
def value? (layer : Layer) (item : Item) : Option Value :=
  if layer.node? item.table ≠ some .table then none
  else
    match layer.node? item.path with
    | some (.value value) => some value
    | some .table => none
    | none => item.fallback?

end Layer

end Recurrence.Configuration
