import Recurrence.Text.Numeral
import Recurrence.Text.Transducer

/-!
# Tokens of a configuration file

A line of a file consists of symbols, words and quoted texts, with spaces and tabs between them
and a comment behind them. Double quotation marks know escapes; single ones take every character
as it is. Control characters stand neither in quoted texts nor in comments, apart from tabs.
-/

namespace Recurrence.Configuration

/-- A piece of a line. -/
inductive Token where
  | symbol (char : Char)
  | word (text : List Char)
  | quoted (text : List Char)
  deriving DecidableEq

/-- How the next character of a line is understood: between tokens, as part of a word, between
    quotation marks of either kind, behind a backslash, as one of the digits of a code point, or in
    a comment. A token has been read last character first. -/
inductive TokenMode where
  | between
  | word (read : List Char)
  | single (read : List Char)
  | double (read : List Char)
  | escape (read : List Char)
  | code (read : List Char) (left value : Nat)
  | comment
  deriving DecidableEq

namespace Token

/-- Whether a character may neither be quoted nor stand in a comment. -/
def isControl (c : Char) : Bool :=
  (c.toNat < 0x20 && c ≠ '\t') || c.toNat = 0x7F

/-- Whether a character may be part of a word. -/
def isWordChar (c : Char) : Bool :=
  c.isAlphanum || c ∈ ['_', '-', '+']

/-- The effect of a character behind a token. -/
def stepBetween (c : Char) : Option (List Token × TokenMode) :=
  if c = ' ' ∨ c = '\t' then some ([], .between)
  else if c = '#' then some ([], .comment)
  else if c = '"' then some ([], .double [])
  else if c = '\x27' then some ([], .single [])
  else if isWordChar c then some ([], .word [c])
  else if c ∈ ['[', ']', '=', '.'] then some ([symbol c], .between)
  else none

/-- The characters that are written with a backslash and a letter or a mark. -/
def escapes : List (Char × Char) :=
  [('b', '\x08'), ('t', '\t'), ('n', '\n'), ('f', '\x0C'), ('r', '\r'), ('e', '\x1B'), ('"', '"'),
    ('\\', '\\')]

/-- The letters that announce the code point of a character, with the number of its digits. -/
def codeLengths : List (Char × Nat) :=
  [('x', 2), ('u', 4), ('U', 8)]

/-- The effect of a character behind a backslash. -/
def stepEscape (read : List Char) (c : Char) : Option TokenMode :=
  match escapes.lookup c, codeLengths.lookup c with
  | some char, _ => some (.double (char :: read))
  | none, some length => some (.code read length 0)
  | none, none => none

/-- The effect of a digit of a code point, of which `left` digits are left. The last one has to
    complete the code point of a character. -/
def stepCode (read : List Char) (left value : Nat) (c : Char) : Option TokenMode := do
  let digit ← Numeral.digit? 16 c
  let value := 16 * value + digit
  if left ≠ 1 then some (.code read (left - 1) value)
  else if value.isValidChar then some (.double (Char.ofNat value :: read))
  else none

/-- The transducer that splits a line into tokens. -/
def reader : Transducer TokenMode Token where
  step
    | .between, c => stepBetween c
    | .word read, c =>
      if isWordChar c then some ([], .word (c :: read))
      else (stepBetween c).map fun (written, next) => (word read.reverse :: written, next)
    | .single read, c =>
      if c = '\x27' then some ([quoted read.reverse], .between)
      else if isControl c then none
      else some ([], .single (c :: read))
    | .double read, c =>
      if c = '"' then some ([quoted read.reverse], .between)
      else if c = '\\' then some ([], .escape read)
      else if isControl c then none
      else some ([], .double (c :: read))
    | .escape read, c => (stepEscape read c).map fun next => ([], next)
    | .code read left value, c => (stepCode read left value c).map fun next => ([], next)
    | .comment, c => if isControl c then none else some ([], .comment)
  finish
    | .between | .comment => some []
    | .word read => some [word read.reverse]
    | .single _ | .double _ | .escape _ | .code _ _ _ => none

/-- The tokens of a line. -/
def ofLine? (line : List Char) : Option (List Token) :=
  reader.run .between line

end Token

end Recurrence.Configuration
