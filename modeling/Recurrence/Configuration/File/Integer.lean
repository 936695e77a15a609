import Recurrence.Text.Numeral

/-!
# Integers in a configuration file

An integer is a decimal numeral with an optional sign and without superfluous zeros, or a numeral
in base two, eight or sixteen behind `0b`, `0o` or `0x`. Single underscores may stand between its
digits, and it fits into 64 bits.
-/

namespace Recurrence.Configuration.Integer

/-- The number that digits with single underscores between them denote. -/
def readGrouped? (base : Nat) (text : List Char) : Option Nat :=
  let groups := text.splitOn '_'
  if [] ∈ groups then none else Numeral.readNat? base groups.flatten

/-- The number that a decimal numeral without superfluous zeros denotes. -/
def readDecimal? : List Char → Option Nat
  | '0' :: _ :: _ => none
  | text => readGrouped? 10 text

/-- Whether a number fits into 64 bits. -/
def fits (number : Int) : Bool :=
  -0x8000000000000000 ≤ number ∧ number ≤ 0x7fffffffffffffff

/-- The number that a text denotes. -/
def read? (text : List Char) : Option Int :=
  Option.filter fits <|
    match text with
    | '+' :: digits => (readDecimal? digits).map Int.ofNat
    | '-' :: digits => (readDecimal? digits).map fun number => -Int.ofNat number
    | '0' :: 'b' :: digits => (readGrouped? 2 digits).map Int.ofNat
    | '0' :: 'o' :: digits => (readGrouped? 8 digits).map Int.ofNat
    | '0' :: 'x' :: digits => (readGrouped? 16 digits).map Int.ofNat
    | digits => (readDecimal? digits).map Int.ofNat

end Recurrence.Configuration.Integer
