import Recurrence.Text.Blank

/-!
# Lines of a file of variables

A line of such a file ends at a line break, except between quotation marks. A comment begins with
a hash at the front of a line or behind a single blank, and it lasts to the line break.
-/

namespace Recurrence.Configuration

/-- How the next character of a line is understood: at the front of the line, behind some text,
    behind a blank, between quotation marks of either kind, behind a backslash, or in a comment. -/
inductive LineMode where
  | front
  | plain
  | blank
  | escape
  | double
  | doubleEscape
  | single
  | singleEscape
  | comment
  deriving DecidableEq

namespace LineMode

/-- The mode behind a character that is neither a blank nor a hash, outside of quotation marks. -/
def opened (c : Char) : LineMode :=
  if c = '\\' then escape
  else if c = '"' then double
  else if c = '\x27' then single
  else plain

/-- The mode behind a character. Of several blanks in a row only every other one counts as a blank,
    and a carriage return counts as text. -/
def next : LineMode → Char → LineMode
  | front, c => if c = '#' then comment else if isBlank c then front else opened c
  | plain, c => if isBlank c ∧ c ≠ '\r' then blank else opened c
  | blank, c => if c = '#' then comment else opened c
  | escape, _ => plain
  | double, c => if c = '\\' then doubleEscape else if c = '"' then plain else double
  | doubleEscape, _ => double
  | single, c => if c = '\\' then singleEscape else if c = '\x27' then plain else single
  | singleEscape, _ => single
  | comment, _ => comment

/-- Whether a line break belongs to the line: whether it stands between quotation marks. -/
def isQuoted : LineMode → Bool
  | double | doubleEscape | single | singleEscape => true
  | front | plain | blank | escape | comment => false

end LineMode

namespace VariableFile

/-- The lines of a text of which `line` has been read last character first. At the end of the text
    a line is dropped that is open or ends with a blank. -/
def linesFrom (mode : LineMode) (line : List Char) : List Char → List (List Char)
  | [] => if mode = .plain ∨ mode = .comment then [line.reverse] else []
  | c :: rest =>
    if c = '\n' ∧ ¬ mode.isQuoted then line.reverse :: linesFrom .front [] rest
    else
      let next := mode.next c
      linesFrom next (if next = .comment then line else c :: line) rest

/-- The lines of a text without their comments. -/
def lines (text : List Char) : List (List Char) :=
  linesFrom .front [] text

end VariableFile

end Recurrence.Configuration
