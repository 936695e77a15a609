import Recurrence.Configuration.Value

/-!
# Layers of a configuration

A configuration is a tree of tables with values at its leaves. It is built up from layers, each a
sequence of assignments. An assignment makes the tables that lead to its place, and it replaces
whatever stood at the place; so what stands at a place is settled by the last assignment that
concerns it.
-/

namespace Recurrence.Configuration

/-- A place in a configuration: the names of the tables that lead to it, and its own name. -/
abbrev Path := List String

/-- Whether a text is a name: one or more ASCII letters, digits, underscores and hyphens. -/
def isName (text : List Char) : Bool :=
  text ≠ [] && text.all fun c => c.isAlphanum || c = '_' || c = '-'

/-- The place that a text denotes: names with dots between them lead from table to table, and any
    other text is a single name. There are no arrays, so an index in brackets is part of such a
    name. -/
def Path.ofName (text : List Char) : Path :=
  let names := text.splitOn '.'
  if names.all isName then names.map String.ofList else [String.ofList text]

/-- What stands at a place. -/
inductive Node where
  | table
  | value (value : Value)
  deriving DecidableEq

/-- Something that is put at a place. -/
structure Assignment where
  path : Path
  node : Node
  deriving DecidableEq

/-- What stands at a place behind an assignment, where `before?` stood before. Values below the
    place of a value vanish; to make a table where one is changes nothing. -/
def Assignment.after (assignment : Assignment) (path : Path) (before? : Option Node) :
    Option Node :=
  if assignment.path = path then some assignment.node
  else if path <+: assignment.path then some .table
  else if assignment.path <+: path ∧ assignment.node ≠ .table then none
  else before?

/-- A sequence of assignments. -/
abbrev Layer := List Assignment

namespace Layer

/-- What stands at a place behind all assignments of a layer. -/
def node? (layer : Layer) (path : Path) : Option Node :=
  layer.foldl (fun before? assignment => assignment.after path before?) none

end Layer

end Recurrence.Configuration
