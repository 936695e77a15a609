import Recurrence.Configuration.File.Integer
import Recurrence.Configuration.File.Token
import Recurrence.Configuration.Layer
import Recurrence.Text.Split

/-!
# Lines of a configuration file

A key in brackets begins a table, other lines define a key as a truth value, a number or a text,
and empty lines say nothing. A key consists of names with dots between them.
-/

namespace Recurrence.Configuration

/-- The names in a key, with that of the outermost table first. -/
abbrev Key := List String

/-- What a line of a file says. -/
inductive Line where
  | empty
  | table (key : Key)
  | definition (key : Key) (value : Value)
  deriving DecidableEq

namespace Token

/-- The name that a token denotes as part of a key: a word that is a name, or any quoted text. -/
def toName? : Token → Option String
  | symbol _ => none
  | word text => if isName text then some (String.ofList text) else none
  | quoted text => some (String.ofList text)

/-- The value that a token denotes: a truth value, a number or a quoted text. -/
def toValue? : Token → Option Value
  | symbol _ => none
  | word text =>
    if text = "true".toList then some (.flag true)
    else if text = "false".toList then some (.flag false)
    else (Integer.read? text).map Value.number
  | quoted text => some (.text (String.ofList text))

end Token

/-- The names in a key. -/
def Key.ofTokens? : List Token → Option Key
  | [name] => name.toName?.map fun name => [name]
  | name :: .symbol '.' :: rest => do
    let name ← name.toName?
    let names ← ofTokens? rest
    return name :: names
  | _ => none

namespace Line

/-- The line that a sequence of tokens forms. -/
def ofTokens? : List Token → Option Line
  | [] => some empty
  | .symbol '[' :: rest =>
    if rest.getLast? = some (.symbol ']') then (Key.ofTokens? rest.dropLast).map table else none
  | tokens => do
    let (key, value) ← splitFirst? (.symbol '=') tokens
    let key ← Key.ofTokens? key
    match value with
    | [value] => value.toValue?.map (definition key)
    | _ => none

/-- Reads a line. -/
def parse? (text : List Char) : Option Line :=
  (Token.ofLine? text).bind ofTokens?

end Line

end Recurrence.Configuration
