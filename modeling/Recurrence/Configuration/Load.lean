import Recurrence.Configuration.File
import Recurrence.Configuration.Item
import Recurrence.Configuration.VariableFile

/-!
# Loading a configuration

The defaults, the file and the environment are layers of a configuration, in this order. The value
that each item has behind all of them has to convert to what the item needs; a value that a later
layer replaces does not matter.
-/

namespace Recurrence

/-- The configuration of an application. -/
structure Configuration where
  evaluation : Settings
  level : String
  deriving DecidableEq

/-- The reason for refusing a configuration. -/
inductive ConfigurationError where
  /-- The file cannot be read. -/
  | malformedFile
  /-- An item has no value that can be converted to what the item needs. -/
  | inconvertible (item : Configuration.Item)
  /-- A search would give up before its first period. -/
  | noPeriods
  deriving DecidableEq

/-- The sentence that reports that a search would give up before its first period. -/
def noPeriodsMessage : String :=
  "Invalid configuration: evaluation.max_periods must be greater than zero"

/-- Settings that let a search begin. -/
def Settings.validate (settings : Settings) : Except ConfigurationError Settings :=
  if settings.maxPeriods = 0 then .error .noPeriods else .ok settings

namespace Configuration

/-- The name of the application, with which the names of its variables begin. -/
def applicationName : String := "CADENCE"

/-- The level of logging unless another one is given. -/
def defaultLevel : String := Item.default .level |>.toText

/-- Converts the value of an item, or reports the item. -/
def Layer.convert {α : Type} (layer : Layer) (item : Item) (conversion? : Value → Option α) :
    Except ConfigurationError α :=
  match (layer.value? item).bind conversion? with
  | some value => .ok value
  | none => .error (.inconvertible item)

/-- The configuration that a layer describes. It is refused for a value that does not convert before
    its settings are looked at. -/
def ofLayer (layer : Layer) : Except ConfigurationError Configuration := do
  let maxPeriods ← layer.convert .maxPeriods Value.toWord?
  let clampToUntil ← layer.convert .clampToUntil Value.toFlag?
  let level ← layer.convert .level (some ·.toText)
  let evaluation ← Settings.validate { maxPeriods, clampToUntil }
  return { evaluation, level }

/-- The layer that a file forms. A file that does not exist forms an empty layer. -/
def fileLayer : Option String → Except ConfigurationError Layer
  | none => .ok []
  | some text =>
    match File.parse? text with
    | some layer => .ok layer
    | none => .error .malformedFile

/-- Loads the configuration of an application from its environment and its file, if it has
    one. -/
def load (application : String) (environment : Variables) (file? : Option String) :
    Except ConfigurationError Configuration := do
  let file ← fileLayer file?
  ofLayer (Layer.defaults ++ file ++ environment.layer application)

/-- Loads the configuration in the environment that a file of variables extends. -/
def loadExtended (application : String) (environment : Variables)
    (file? variables? : Option String) : Except ConfigurationError Configuration :=
  load application ((variables?.map environment.extend).getD environment) file?

end Configuration

end Recurrence
