/-!
# Decimal numerals

Numbers are written in base ten with the digits `0` to `9`. Reading takes leading zeros; writing
produces none.
-/

namespace Recurrence.Decimal

/-- The number that a run of digits denotes. There has to be a digit, and nothing else. -/
def readNat? (text : List Char) : Option Nat :=
  if text ≠ [] ∧ text.all Char.isDigit then some (Nat.ofDigitChars 10 text 0) else none

/-- The number that a run of digits with an optional plus sign denotes. -/
def readUnsigned? : List Char → Option Nat
  | '+' :: digits => readNat? digits
  | digits => readNat? digits

/-- The number that a run of digits with an optional sign denotes. -/
def readInt? : List Char → Option Int
  | '+' :: digits => (readNat? digits).map Int.ofNat
  | '-' :: digits => (readNat? digits).map fun n => -Int.ofNat n
  | digits => (readNat? digits).map Int.ofNat

/-- The text behind an optional sign. -/
def dropSign : List Char → List Char
  | '+' :: digits => digits
  | '-' :: digits => digits
  | digits => digits

/-- The number that a run of digits denotes, if it is below 2³². -/
def readWord? (text : List Char) : Option UInt32 :=
  (readNat? text).bind fun n =>
    if h : n < UInt32.size then some (UInt32.ofNatLT n h) else none

/-- The numeral of a natural number, without leading zeros. -/
def ofNat (n : Nat) : List Char :=
  Nat.toDigits 10 n

/-- The numeral of an integer, with a minus sign in front of a negative one. -/
def ofInt : Int → List Char
  | .ofNat n => ofNat n
  | .negSucc n => '-' :: ofNat (n + 1)

/-- The numeral of a natural number, filled up with zeros in front to at least `width` digits. -/
def padded (width n : Nat) : List Char :=
  List.replicate (width - (ofNat n).length) '0' ++ ofNat n

theorem isDigit_of_mem_ofNat {n : Nat} {c : Char} (h : c ∈ ofNat n) : c.isDigit :=
  Nat.isDigit_of_mem_toDigits (by decide) (by decide) h

theorem ofNat_ne_nil (n : Nat) : ofNat n ≠ [] :=
  Nat.toDigits_ne_nil

theorem readNat?_ofNat (n : Nat) : readNat? (ofNat n) = some n := by
  rw [readNat?, if_pos ⟨ofNat_ne_nil n, List.all_eq_true.2 fun _ => isDigit_of_mem_ofNat⟩]
  exact congrArg some Nat.ofDigitChars_ten_toDigits

theorem readNat?_padded (width n : Nat) : readNat? (padded width n) = some n := by
  rw [padded, readNat?]
  rw [if_pos, Nat.ofDigitChars_append, Nat.ofDigitChars_replicate_zero]
  · simp [ofNat]
  · refine ⟨by simp [ofNat_ne_nil], List.all_eq_true.2 fun c h => ?_⟩
    rcases List.mem_append.1 h with zero | digit
    · rw [List.eq_of_mem_replicate zero]
      rfl
    · exact isDigit_of_mem_ofNat digit

/-- A run of digits has the same value with and without signs allowed. -/
theorem readInt?_of_isDigit {text : List Char} (h : ∀ c ∈ text, c.isDigit) :
    readInt? text = (readNat? text).map Int.ofNat := by
  simp only [readInt?]
  split
  · have := h '+' (by simp)
    contradiction
  · have := h '-' (by simp)
    contradiction
  · rfl

theorem dropSign_of_isDigit {text : List Char} (h : ∀ c ∈ text, c.isDigit) :
    dropSign text = text := by
  simp only [dropSign]
  split
  · have := h '+' (by simp)
    contradiction
  · have := h '-' (by simp)
    contradiction
  · rfl

theorem readInt?_ofInt (n : Int) : readInt? (ofInt n) = some n := by
  cases n with
  | ofNat n => simp [ofInt, readInt?_of_isDigit fun _ => isDigit_of_mem_ofNat, readNat?_ofNat]
  | negSucc n => simp [ofInt, readInt?, readNat?_ofNat, Int.negSucc_eq]

end Recurrence.Decimal
