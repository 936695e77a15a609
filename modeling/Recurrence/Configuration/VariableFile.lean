import Recurrence.Configuration.VariableFile.Content
import Recurrence.Configuration.VariableFile.Lines

/-!
# Files of variables

A line of such a file defines a variable: its name, an equals sign and its content. The word
`export` may stand in front. The lines are read in order, each in the environment that the lines
before it have made, up to the first line that cannot be read.
-/

namespace Recurrence.Configuration

/-- A variable with the text of its content. -/
structure Definition where
  name : String
  content : List Char
  deriving DecidableEq

namespace VariableFile

/-- Splits off the name of a variable, which begins with an ASCII letter or an underscore and goes
    on with ASCII letters, digits, underscores and dots, and the blanks behind it. -/
def readName? (text : List Char) : Option (String × List Char) :=
  let isNameChar (c : Char) : Bool := c.isAlphanum || c = '_' || c = '.'
  if text.head?.any fun c => c.isAlpha || c = '_' then
    some (String.ofList (text.takeWhile isNameChar),
      (text.dropWhile isNameChar).dropWhile isBlank)
  else none

end VariableFile

namespace Definition

open VariableFile

/-- Reads the definition in a line that is not empty. -/
def ofText? (text : List Char) : Option Definition := do
  let (name, rest) ← readName? text
  let (name, rest) ←
    if name = "export" ∧ rest.head? ≠ some '=' then readName? rest else some (name, rest)
  guard (rest.head? = some '=')
  some ⟨name, rest.tail.dropWhile isBlank⟩

/-- Reads a line. The answer is `none` for a line that cannot be read, and `some none` for an
    empty one. -/
def ofLine? (line : List Char) : Option (Option Definition) :=
  match trimBlanks line with
  | [] => some none
  | text => (ofText? text).map some

end Definition

namespace Variables

open VariableFile

/-- The environment behind a sequence of lines. -/
def extendByLines (environment : Variables) : List (List Char) → Variables
  | [] => environment
  | line :: rest =>
    match Definition.ofLine? line with
    | none => environment
    | some none => extendByLines environment rest
    | some (some definition) =>
      match readContent? environment definition.content with
      | none => environment
      | some content => extendByLines (environment.define definition.name content) rest

/-- The environment behind a file of variables. A byte order mark at its front does not count. -/
def extend (environment : Variables) (file : String) : Variables :=
  environment.extendByLines <| lines <|
    match file.toList with
    | '\uFEFF' :: text => text
    | text => text

end Variables

end Recurrence.Configuration
