import Recurrence.Text.Decimal

/-!
# Ranges of numbers in a rule text

The numbers in a rule text have one to three digits. A range that reaches below zero counts from
both ends of something, so that zero has no meaning in it; a sign is allowed only there.
-/

namespace Recurrence

/-- The least and the greatest number that may be written. -/
structure NumberRange where
  lowest : Int
  highest : Int
  deriving DecidableEq

namespace NumberRange

/-- The numbers between the bounds. Zero counts only in a range that begins with it. -/
def Admits (range : NumberRange) (n : Int) : Prop :=
  range.lowest ≤ n ∧ n ≤ range.highest ∧ (n = 0 → range.lowest = 0)

instance (range : NumberRange) (n : Int) : Decidable (range.Admits n) :=
  inferInstanceAs (Decidable (_ ∧ _ ∧ _))

/-- Whether numbers of the range may have a sign. -/
def Signed (range : NumberRange) : Prop :=
  range.lowest < 0

instance (range : NumberRange) : Decidable range.Signed :=
  inferInstanceAs (Decidable (_ < _))

/-- The number of the range that a text of one to three digits denotes. -/
def read? (range : NumberRange) (text : List Char) : Option Int :=
  let digits := if range.Signed then Decimal.dropSign text else text
  let number := if range.Signed then Decimal.readInt? text
    else (Decimal.readNat? text).map Int.ofNat
  if digits.length ≤ 3 then number.filter range.Admits else none

theorem admits_of_read? {range : NumberRange} {text : List Char} {n : Int}
    (h : range.read? text = some n) : range.Admits n := by
  simp only [read?] at h
  by_cases short : (if range.Signed then Decimal.dropSign text else text).length ≤ 3
  · rw [if_pos short] at h
    simpa using (Option.filter_eq_some_iff.1 h).2
  · rw [if_neg short] at h
    cases h

/-- A written number of the range reads back, if the range keeps to three digits. -/
theorem read?_ofInt {range : NumberRange} {n : Int} (admitted : range.Admits n)
    (lower : -999 ≤ range.lowest) (upper : range.highest ≤ 999) :
    range.read? (Decimal.ofInt n) = some n := by
  have length_le (k : Nat) (h : k < 1000) : (Decimal.ofNat k).length ≤ 3 :=
    (Nat.length_toDigits_le_iff (by decide) (by decide)).2 h
  have bounds := admitted
  simp only [Admits] at bounds
  simp only [read?]
  by_cases signed : range.Signed
  · have short : (Decimal.dropSign (Decimal.ofInt n)).length ≤ 3 := by
      cases n with
      | ofNat k =>
        rw [Decimal.ofInt, Decimal.dropSign_of_isDigit fun _ => Decimal.isDigit_of_mem_ofNat]
        exact length_le k (by have := Int.ofNat_eq_natCast k; omega)
      | negSucc k => exact length_le (k + 1) (by omega)
    simp [signed, short, Decimal.readInt?_ofInt, admitted]
  · simp only [Signed] at signed
    obtain ⟨k, rfl⟩ := Int.eq_ofNat_of_zero_le (show 0 ≤ n by omega)
    have short : (Decimal.ofInt k).length ≤ 3 := length_le k (by omega)
    simp only [Signed, signed, if_false, short, if_true]
    simp only [Decimal.ofInt, Decimal.readNat?_ofNat]
    simpa using admitted

end NumberRange

end Recurrence
