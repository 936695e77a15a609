import Recurrence.Text.Decimal

/-!
# Configuration values

A value comes from a file or from a variable as a truth value, a number or a text, and is then
converted to what an item needs. Truth values and numbers convert into each other, and a text
converts to what it spells. Other values of a file are left out: numbers with a fraction or an
exponent, dates and times, arrays and inline tables. In a variable, a number with a fraction is a
text.
-/

namespace Recurrence.Configuration

/-- A value as it was given. -/
inductive Value where
  | flag (value : Bool)
  | number (value : Int)
  | text (value : String)
  deriving DecidableEq

/-- A text with its ASCII letters in lower case. -/
def lowerCase (text : String) : String :=
  String.ofList (text.toList.map Char.toLower)

/-- The truth value that a word stands for, whatever the case of its letters. -/
def truthOfWord? (word : String) : Option Bool :=
  let word := lowerCase word
  if word ∈ ["true", "on", "yes"] then some true
  else if word ∈ ["false", "off", "no"] then some false
  else none

namespace Value

/-- The value that the text of a variable stands for: a truth value in any case of letters, else
    a decimal number, else the text itself. -/
def ofVariable (content : String) : Value :=
  if lowerCase content = "true" then flag true
  else if lowerCase content = "false" then flag false
  else
    match Decimal.readInt? content.toList with
    | some n => number n
    | none => text content

/-- The number that a value converts to. A number in a text has no minus sign. -/
def toInt? : Value → Option Int
  | flag value => some value.toNat
  | number value => some value
  | text value =>
    match truthOfWord? value with
    | some truth => some truth.toNat
    | none => (Decimal.readUnsigned? value.toList).map Int.ofNat

/-- The number below 2³² that a value converts to. -/
def toWord? (value : Value) : Option UInt32 :=
  value.toInt?.bind fun n =>
    if h : n.toNat < UInt32.size then
      if 0 ≤ n then some (UInt32.ofNatLT n.toNat h) else none
    else none

/-- The truth value that a value converts to. Zero is false and every other number is true, but of
    the numerals in a text only `0` and `1` are truth values. -/
def toFlag? : Value → Option Bool
  | flag value => some value
  | number value => some (value ≠ 0)
  | text "1" => some true
  | text "0" => some false
  | text value => truthOfWord? value

/-- The text that a value converts to. -/
def toText : Value → String
  | flag value => if value then "true" else "false"
  | number value => String.ofList (Decimal.ofInt value)
  | text value => value

end Value

end Recurrence.Configuration
