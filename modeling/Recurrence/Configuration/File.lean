import Recurrence.Configuration.File.Line

/-!
# Configuration files

A file is a sequence of lines, and it forms a layer of the configuration. Every line has to be
readable, and nothing may be defined twice.

Only a part of the format is covered. Numbers with a fraction or an exponent, dates and times,
arrays, inline tables, arrays of tables and texts that go on over several lines are left out; a
file with one of them counts as one that cannot be read. Without arrays there are no indexed names
either: a quoted name with an index in brackets is a name like any other.
-/

namespace Recurrence.Configuration

/-- What a key has been used for: as the key of a table in brackets, as a key with a value, or as a
    table on the way to a value, in front of a dot. -/
inductive Use where
  | table
  | value
  | between
  deriving DecidableEq

/-- A key that has been used in a file, beginning with the outermost table, and what for. -/
structure Entry where
  key : Key
  use : Use
  deriving DecidableEq

namespace Entry

/-- Whether a table may begin: its key has not been used, and no part of it has a value. -/
def admitTable (entries : List Entry) (key : Key) : Bool :=
  entries.all fun entry => entry.key ≠ key ∧ ¬ (entry.use = .value ∧ entry.key <+: key)

/-- The keys of the tables on the way from the table `current` to a key in it. -/
def between (current key : Key) : List Key :=
  ((List.range key.length).drop 1).map fun n => current ++ key.take n

/-- Whether a key may be defined in the table `current`: nothing has been put at it or below it, and
    the tables on the way have only been on the way to other values. -/
def admitDefinition (entries : List Entry) (current key : Key) : Bool :=
  entries.all fun entry =>
    ¬ current ++ key <+: entry.key ∧ (entry.key ∈ between current key → entry.use = .between)

/-- The entries for a key that is defined in the table `current`. -/
def ofDefinition (current key : Key) : List Entry :=
  ⟨current ++ key, .value⟩ :: (between current key).map fun table => ⟨table, .between⟩

end Entry

namespace File

/-- The place that a key denotes. Its first name may lead through several tables. -/
def path : Key → Path
  | [] => []
  | first :: rest => Path.ofName first.toList ++ rest

/-- The layer that a sequence of lines forms, of which the first belongs to the table `current`,
    behind lines with the given entries. -/
def layerFrom? (current : Key) (entries : List Entry) : List Line → Option Layer
  | [] => some []
  | .empty :: rest => layerFrom? current entries rest
  | .table key :: rest =>
    if Entry.admitTable entries key then
      (layerFrom? key (⟨key, .table⟩ :: entries) rest).map (⟨path key, .table⟩ :: ·)
    else none
  | .definition key value :: rest =>
    if Entry.admitDefinition entries current key then
      (layerFrom? current (Entry.ofDefinition current key ++ entries) rest).map
        (⟨path (current ++ key), .value value⟩ :: ·)
    else none

/-- The layer that a sequence of lines forms. -/
def layer? (lines : List Line) : Option Layer :=
  layerFrom? [] [] lines

/-- A text in which a line break has no carriage return in front of it. -/
def dropReturns : List Char → List Char
  | '\r' :: '\n' :: rest => '\n' :: dropReturns rest
  | c :: rest => c :: dropReturns rest
  | [] => []

/-- The layer that a file forms. A byte order mark at its front does not count. -/
def parse? (text : String) : Option Layer :=
  let text :=
    match text.toList with
    | '\uFEFF' :: rest => rest
    | text => text
  (((dropReturns text).splitOn '\n').mapM Line.parse?).bind layer?

end File

end Recurrence.Configuration
