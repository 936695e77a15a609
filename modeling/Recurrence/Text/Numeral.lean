/-!
# Numerals in any base

Digits above nine are the letters from `a` on, in either case.
-/

namespace Recurrence.Numeral

/-- The value of a digit in some base, if it is a digit there. -/
def digit? (base : Nat) (c : Char) : Option Nat :=
  let value :=
    if c.isDigit then some (c.toNat - '0'.toNat)
    else if 'a' ≤ c ∧ c ≤ 'z' then some (c.toNat - 'a'.toNat + 10)
    else if 'A' ≤ c ∧ c ≤ 'Z' then some (c.toNat - 'A'.toNat + 10)
    else none
  value.filter (· < base)

/-- The number that a run of digits denotes. There has to be a digit, and nothing else. -/
def readNat? (base : Nat) (text : List Char) : Option Nat :=
  if text = [] then none
  else
    (text.mapM (digit? base)).map fun digits =>
      digits.foldl (fun number digit => base * number + digit) 0

end Recurrence.Numeral
