import Mathlib.Algebra.Group.Nat.Defs
import Mathlib.Data.List.Induction
import Recurrence.Rule.Key

/-!
# Numerals in a rule text

A numeral is a run of digits. The number that it denotes and its length determine it, so numbers
that are filled up with zeros to a fixed width can be read in one way only. The numbers in a list
have at most three digits, and a sign where the list counts from both ends.
-/

namespace Recurrence

namespace Decimal

variable {text : List Char} {n width : Nat}

/-- A run of digits denotes a number, in base ten. -/
structure Denotes (digits : List Char) (n : Nat) : Prop where
  ne_nil : digits ≠ []
  isDigit : ∀ c ∈ digits, c.isDigit
  value : Nat.ofDigitChars 10 digits 0 = n

theorem readNat?_eq_some_iff : readNat? text = some n ↔ Denotes text n := by
  simp only [readNat?, Option.ite_none_right_eq_some, Option.some.injEq, List.all_eq_true]
  constructor
  · rintro ⟨⟨some_digit, digits⟩, value⟩
    exact ⟨some_digit, digits, value⟩
  · intro denotes
    exact ⟨⟨denotes.ne_nil, denotes.isDigit⟩, denotes.value⟩

theorem readWord?_eq_some_iff {word : UInt32} :
    readWord? text = some word ↔ Denotes text word.toNat := by
  simp only [readWord?, Option.bind_eq_some_iff, readNat?_eq_some_iff,
    Option.dite_none_right_eq_some, Option.some.injEq]
  constructor
  · rintro ⟨n, denotes, bound, rfl⟩
    rwa [UInt32.toNat_ofNatLT]
  · intro denotes
    exact ⟨word.toNat, denotes, word.toNat_lt_size, UInt32.ofNatLT_toNat word⟩

theorem not_mem_of_isDigit {c : Char} (digits : ∀ d ∈ text, d.isDigit)
    (notDigit : c.isDigit = false) : c ∉ text := by
  intro member
  have digit := digits c member
  rw [notDigit] at digit
  cases digit

/-- Two runs of digits that have the same length denote the same number only if they are equal. -/
theorem eq_of_ofDigitChars_eq {a b : List Char} (length : a.length = b.length)
    (digitsOfA : ∀ c ∈ a, c.isDigit) (digitsOfB : ∀ c ∈ b, c.isDigit)
    (value : Nat.ofDigitChars 10 a 0 = Nat.ofDigitChars 10 b 0) : a = b := by
  -- digit by digit from the last one, which is the remainder of the number
  induction a using List.reverseRecOn generalizing b with
  | nil => exact (List.eq_nil_of_length_eq_zero length.symm).symm
  | append_singleton a c ih =>
    induction b using List.reverseRecOn with
    | nil => simp at length
    | append_singleton b d _ =>
      simp only [List.length_append, List.length_singleton] at length
      simp only [List.mem_append, List.mem_singleton] at digitsOfA digitsOfB
      simp only [Nat.ofDigitChars_append, Nat.ofDigitChars_cons, Nat.ofDigitChars_nil] at value
      have digitC := Char.isDigit_iff_toNat.1 (digitsOfA c (Or.inr rfl))
      have digitD := Char.isDigit_iff_toNat.1 (digitsOfB d (Or.inr rfl))
      have zero : '0'.toNat = 48 := rfl
      have nine : '9'.toNat = 57 := rfl
      have same : a = b := ih (by omega) (fun e member => digitsOfA e (Or.inl member))
        (fun e member => digitsOfB e (Or.inl member)) (by omega)
      rw [same, Char.toNat_inj.1 (show c.toNat = d.toNat by omega)]

theorem ofDigitChars_lt (digits : ∀ c ∈ text, c.isDigit) :
    Nat.ofDigitChars 10 text 0 < 10 ^ text.length := by
  induction text using List.reverseRecOn with
  | nil => exact Nat.one_pos
  | append_singleton text c ih =>
    simp only [List.mem_append, List.mem_singleton] at digits
    have digit := Char.isDigit_iff_toNat.1 (digits c (Or.inr rfl))
    have rest := ih fun e member => digits e (Or.inl member)
    have zero : '0'.toNat = 48 := rfl
    have nine : '9'.toNat = 57 := rfl
    rw [Nat.ofDigitChars_append, Nat.ofDigitChars_cons, Nat.ofDigitChars_nil, List.length_append,
      List.length_singleton, Nat.pow_succ]
    omega

theorem length_padded (positive : 0 < width) (small : n < 10 ^ width) :
    (padded width n).length = width := by
  have short : (ofNat n).length ≤ width :=
    (Nat.length_toDigits_le_iff (by decide) positive).2 small
  rw [padded, List.length_append, List.length_replicate]
  omega

theorem denotes_padded (width n : Nat) : Denotes (padded width n) n :=
  readNat?_eq_some_iff.1 (readNat?_padded width n)

theorem isDigit_of_mem_padded {c : Char} (member : c ∈ padded width n) : c.isDigit :=
  (denotes_padded width n).isDigit c member

/-- A numeral with `width` digits is a number below `10 ^ width` that is filled up with zeros. -/
theorem readNat?_eq_some_iff_padded (positive : 0 < width) :
    text.length = width ∧ readNat? text = some n ↔ n < 10 ^ width ∧ padded width n = text := by
  constructor
  · rintro ⟨rfl, read⟩
    have denotes := readNat?_eq_some_iff.1 read
    have small : n < 10 ^ text.length := by
      rw [← denotes.value]
      exact ofDigitChars_lt denotes.isDigit
    refine ⟨small, ?_⟩
    apply eq_of_ofDigitChars_eq (length_padded positive small)
    · exact (denotes_padded _ _).isDigit
    · exact denotes.isDigit
    · rw [(denotes_padded _ _).value, denotes.value]
  · rintro ⟨small, rfl⟩
    exact ⟨length_padded positive small, readNat?_padded width n⟩

theorem toNat_of_mem_ofInt {n : Int} : ∀ c ∈ ofInt n, 45 ≤ c.toNat ∧ c.toNat ≤ 57 := by
  intro c member
  have digit {k : Nat} (member : c ∈ ofNat k) : 45 ≤ c.toNat ∧ c.toNat ≤ 57 := by
    obtain ⟨above, below⟩ := Char.isDigit_iff_toNat.1 (isDigit_of_mem_ofNat member)
    exact ⟨Nat.le_trans (by decide) above, below⟩
  cases n with
  | ofNat n => exact digit member
  | negSucc n =>
    rcases List.mem_cons.1 member with rfl | member
    · decide
    · exact digit member

theorem not_mem_ofInt {n : Int} {c : Char} (other : ¬ (45 ≤ c.toNat ∧ c.toNat ≤ 57)) :
    c ∉ ofInt n :=
  fun member => other (toNat_of_mem_ofInt c member)

theorem denotes_ofNat (n : Nat) : Denotes (ofNat n) n :=
  readNat?_eq_some_iff.1 (readNat?_ofNat n)

/-- A number with a sign in front, or without one. -/
theorem exists_of_readInt? {n : Int} (read : readInt? text = some n) :
    ∃ k, Denotes (dropSign text) k ∧
      (text = dropSign text ∧ n = k ∨ text = '+' :: dropSign text ∧ n = k ∨
        text = '-' :: dropSign text ∧ n = -k) := by
  simp only [readInt?] at read
  split at read
  all_goals
    obtain ⟨k, readDigits, rfl⟩ := Option.map_eq_some_iff.1 read
    have denotes := readNat?_eq_some_iff.1 readDigits
  · exact ⟨k, denotes, Or.inr (Or.inl ⟨rfl, rfl⟩)⟩
  · exact ⟨k, denotes, Or.inr (Or.inr ⟨rfl, rfl⟩)⟩
  · have plain := dropSign_of_isDigit denotes.isDigit
    rw [plain]
    exact ⟨k, denotes, Or.inl ⟨rfl, rfl⟩⟩

end Decimal

/-- The numbers of a range, written with one to three digits. There may be a sign if the range
    reaches below zero. -/
theorem NumberRange.read?_eq_some_iff {range : NumberRange} {text : List Char} {n : Int} :
    range.read? text = some n ↔
      range.Admits n ∧ ∃ digits k, Decimal.Denotes digits k ∧ digits.length ≤ 3 ∧
        (text = digits ∧ n = k ∨
          range.Signed ∧ (text = '+' :: digits ∧ n = k ∨ text = '-' :: digits ∧ n = -k)) := by
  constructor
  · intro read
    refine ⟨admits_of_read? read, ?_⟩
    simp only [read?] at read
    by_cases signed : range.Signed
    · simp only [signed, if_true, Option.ite_none_right_eq_some, Option.filter_eq_some_iff] at read
      obtain ⟨short, number, -⟩ := read
      obtain ⟨k, denotes, form⟩ := Decimal.exists_of_readInt? number
      exact ⟨_, k, denotes, short, by tauto⟩
    · simp only [signed, if_false, Option.ite_none_right_eq_some, Option.filter_eq_some_iff,
        Option.map_eq_some_iff, Decimal.readNat?_eq_some_iff] at read
      obtain ⟨short, ⟨k, denotes, rfl⟩, -⟩ := read
      exact ⟨text, k, denotes, short, Or.inl ⟨rfl, rfl⟩⟩
  · rintro ⟨admitted, digits, k, denotes, short, form⟩
    have number := Decimal.readNat?_eq_some_iff.2 denotes
    rcases form with ⟨rfl, rfl⟩ | ⟨signed, ⟨rfl, rfl⟩ | ⟨rfl, rfl⟩⟩
    · have plain := Decimal.dropSign_of_isDigit denotes.isDigit
      have integer := Decimal.readInt?_of_isDigit denotes.isDigit
      simp [read?, plain, integer, number, short, admitted]
    · simp [read?, signed, Decimal.dropSign, Decimal.readInt?, number, short, admitted]
    · simp [read?, signed, Decimal.dropSign, Decimal.readInt?, number, short, admitted]

namespace NumberField

/-- The numbers that a list of a rule may hold. -/
def Allows (n : Int) : NumberField → Prop
  | second | minute => 0 ≤ n ∧ n ≤ 59
  | hour => 0 ≤ n ∧ n ≤ 23
  | month => 1 ≤ n ∧ n ≤ 12
  | monthDay => n ≠ 0 ∧ -31 ≤ n ∧ n ≤ 31
  | weekNumber => n ≠ 0 ∧ -53 ≤ n ∧ n ≤ 53
  | yearDay | position => n ≠ 0 ∧ -366 ≤ n ∧ n ≤ 366

/-- The lists whose numbers count from both ends. -/
def CountsBack : NumberField → Prop
  | monthDay | yearDay | weekNumber | position => True
  | _ => False

/-- An element of a list denotes a number. -/
def Denotes (field : NumberField) (element : List Char) (n : Int) : Prop :=
  field.Allows n ∧ ∃ digits k, Decimal.Denotes digits k ∧ digits.length ≤ 3 ∧
    (element = digits ∧ n = k ∨
      field.CountsBack ∧ (element = '+' :: digits ∧ n = k ∨ element = '-' :: digits ∧ n = -k))

theorem admits_range_iff {field : NumberField} {n : Int} :
    field.range.Admits n ↔ field.Allows n := by
  cases field <;> simp only [range, NumberRange.Admits, Allows, implies_true, and_true] <;> omega

theorem signed_range_iff {field : NumberField} : field.range.Signed ↔ field.CountsBack := by
  cases field <;> simp [range, NumberRange.Signed, CountsBack]

theorem read?_eq_some_iff {field : NumberField} {element : List Char} {n : Int} :
    field.range.read? element = some n ↔ field.Denotes element n := by
  rw [NumberRange.read?_eq_some_iff, admits_range_iff, signed_range_iff]
  rfl

theorem denotes_ofInt {field : NumberField} {n : Int} (allowed : field.Allows n) :
    field.Denotes (Decimal.ofInt n) n := by
  rw [← read?_eq_some_iff]
  apply NumberRange.read?_ofInt (admits_range_iff.2 allowed)
  · cases field <;> decide
  · cases field <;> decide

end NumberField

end Recurrence
