import Recurrence.Configuration.Variables
import Recurrence.Text.Alphanumeric
import Recurrence.Text.Transducer

/-!
# Contents in a file of variables

A content is a text with pieces in quotation marks. Double quotation marks keep blanks; single
ones keep everything. Outside of single ones a backslash takes the meaning from the character
behind it, and a dollar sign begins the name of a variable, whose content takes its place. Behind
a blank there may only be a comment.
-/

namespace Recurrence.Configuration

/-- How the next character of a content is understood: as text, behind a backslash, or as part of
    the name of a variable, which may be in braces, each of them inside or outside of double
    quotation marks; or between single quotation marks, behind a blank, or in a comment. A name
    has been read last character first. -/
inductive ContentMode where
  | text (quoted : Bool)
  | escape (quoted : Bool)
  | name (quoted : Bool) (read : List Char)
  | braced (quoted : Bool) (read : List Char)
  | single
  | blank
  | comment
  deriving DecidableEq

namespace VariableFile

/-- The character that a character behind a backslash stands for. -/
def unescape? (c : Char) : Option Char :=
  if c = 'n' then some '\n'
  else if c ∈ ['\\', '\x27', '"', '$', ' '] then some c
  else none

/-- The content of the variable whose name has been read last character first. -/
def substitute (environment : Variables) (read : List Char) : List Char :=
  (environment.content (String.ofList read.reverse)).toList

/-- The effect of a character that is read as text. -/
def stepText (quoted : Bool) (c : Char) : List Char × ContentMode :=
  if c = '$' then ([], .name quoted [])
  else if c = '\\' then ([], .escape quoted)
  else if c = '"' then ([], .text (!quoted))
  else if quoted then ([c], .text true)
  else if c = '\x27' then ([], .single)
  else if c = ' ' ∨ c = '\t' then ([], .blank)
  else ([c], .text false)

/-- The effect of a character of a name. The character behind a name is always text, unless another
    name begins there. -/
def stepName (environment : Variables) (quoted : Bool) (read : List Char) (c : Char) :
    List Char × ContentMode :=
  if isAlphanumeric c then ([], .name quoted (c :: read))
  else if c = '\x7b' ∧ read = [] then ([], .braced quoted [])
  else if c = '$' then (substitute environment read, .name quoted [])
  else (substitute environment read ++ [c], .text quoted)

/-- The transducer that reads contents in an environment. -/
def reader (environment : Variables) : Transducer ContentMode Char where
  step
    | .text quoted, c => some (stepText quoted c)
    | .escape quoted, c => (unescape? c).map fun c => ([c], .text quoted)
    | .name quoted read, c => some (stepName environment quoted read c)
    | .braced quoted read, c =>
      if c = '\x7d' then some (substitute environment read, .text quoted)
      else some ([], .braced quoted (c :: read))
    | .single, c => some (if c = '\x27' then ([], .text false) else ([c], .single))
    | .blank, c =>
      if c = ' ' ∨ c = '\t' then some ([], .blank)
      else if c = '#' then some ([], .comment)
      else none
    | .comment, _ => some ([], .comment)
  finish
    | .name false read => some (substitute environment read)
    | .text false | .escape false | .blank | .comment => some []
    | .text true | .escape true | .name true _ | .braced _ _ | .single => none

/-- The content that a text denotes in an environment. A hash at its front begins a comment. -/
def readContent? (environment : Variables) (text : List Char) : Option String :=
  (reader environment).run (if text.head? = some '#' then .comment else .text false) text
    |>.map String.ofList

end VariableFile

end Recurrence.Configuration
