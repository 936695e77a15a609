import Recurrence.Proofs.Numerals
import Recurrence.Rule.ByDay

/-!
# The written form of a weekday with an ordinal

An element is a weekday code with an optional ordinal in front of it. The ordinal has no letters and
no blanks, and the code is nothing but letters, so the element is cut between them, and what was
written is read again. White space may stand around an element, though nowhere within it. An element
that is refused either lacks the code, or has one and something else than an ordinal in front of it.

## Main definitions

- `ByDay.Valid` — the elements that can be written
- `ByDay.DenotesOrdinal` — a text and the ordinal that it denotes
- `ByDay.WrittenAs`, `ByDay.SpacedAs` — the texts that denote an element, without white space around
  them and with it
- `ByDay.EndsIn` — from the first letter on there is nothing but a weekday code
- `ByDay.RefusedFor` — why a text is refused

## Main statements

- `ByDay.parse_eq_ok_iff`, `ByDay.parse_eq_error_iff` — the texts that are read as an element, and
  the reports of those that are not
- `ByDay.valid_of_parse` — what is read can be written
- `ByDay.parse_text` — what can be written is read again
-/

namespace Recurrence

theorem toNat_of_isUpper {c : Char} (upper : c.isUpper) : 65 ≤ c.toNat ∧ c.toNat ≤ 90 :=
  of_decide_eq_true upper

theorem toNat_of_isAlpha {c : Char} (letter : c.isAlpha) : 65 ≤ c.toNat ∧ c.toNat ≤ 122 := by
  rcases Bool.or_eq_true_iff.1 letter with upper | lower
  · have := toNat_of_isUpper upper
    omega
  · obtain ⟨above, below⟩ := Bool.and_eq_true_iff.1 lower
    have : 97 ≤ c.toNat := of_decide_eq_true above
    have : c.toNat ≤ 122 := of_decide_eq_true below
    omega

/-- The letters are behind the digits and the signs. -/
theorem isAlpha_eq_false {c : Char} (below : c.toNat < 65) : c.isAlpha = false := by
  rw [Bool.eq_false_iff]
  intro letter
  have := toNat_of_isAlpha letter
  omega

theorem isBlank_eq_false {c : Char} (above : 33 ≤ c.toNat) (below : c.toNat ≤ 126) :
    isBlank c = false := by
  have apart : ∀ range ∈ blankRanges, range.2 < 33 ∨ 126 < range.1 := by decide
  rw [isBlank, List.any_eq_false]
  intro range member
  simp only [Bool.and_eq_true, decide_eq_true_eq]
  have := apart range member
  omega

theorem isAlpha_of_isBlank {c : Char} (blank : isBlank c) : c.isAlpha = false := by
  rw [Bool.eq_false_iff]
  intro letter
  have := toNat_of_isAlpha letter
  rw [isBlank_eq_false (by omega) (by omega)] at blank
  cases blank

namespace Weekday

theorem toNat_of_mem_code (weekday : Weekday) :
    ∀ c ∈ weekday.code.toList, 65 ≤ c.toNat ∧ c.toNat ≤ 90 := by
  have upper : weekday.code.toList.all Char.isUpper := by
    cases weekday <;> rfl
  exact fun c member => toNat_of_isUpper (List.all_eq_true.1 upper c member)

theorem isBlank_of_mem_code (weekday : Weekday) :
    ∀ c ∈ weekday.code.toList, isBlank c = false := by
  intro c member
  have := weekday.toNat_of_mem_code c member
  exact isBlank_eq_false (by omega) (by omega)

theorem code_ne_nil (weekday : Weekday) : weekday.code.toList ≠ [] := by
  cases weekday <;> decide

end Weekday

namespace ByDay

variable {entry : ByDay} {element before behind text : List Char} {weekday : Weekday} {n : Int}

/-- An ordinal, if there is one, lies between -53 and 53 and is not zero. -/
def Valid (entry : ByDay) : Prop :=
  ∀ ordinal ∈ entry.ordinal?, ordinal ≠ 0 ∧ -53 ≤ ordinal ∧ ordinal ≤ 53

/-- An ordinal is written with one to three digits, and there may be a sign in front of them. -/
def DenotesOrdinal (text : List Char) (n : Int) : Prop :=
  (n ≠ 0 ∧ -53 ≤ n ∧ n ≤ 53) ∧
    ∃ digits k, Decimal.Denotes digits k ∧ digits.length ≤ 3 ∧
      (text = digits ∧ n = k ∨ text = '+' :: digits ∧ n = k ∨ text = '-' :: digits ∧ n = -k)

/-- What stands in front of the code: the ordinal, or nothing if there is none. -/
def OrdinalPart (text : List Char) : Option Int → Prop
  | none => text = []
  | some n => DenotesOrdinal text n

/-- An element is written as its ordinal, if it has one, and the code of its weekday. -/
def WrittenAs (entry : ByDay) (text : List Char) : Prop :=
  ∃ ordinal, text = ordinal ++ entry.weekday.code.toList ∧ OrdinalPart ordinal entry.ordinal?

/-- The same with white space around it. -/
def SpacedAs (entry : ByDay) (element : List Char) : Prop :=
  ∃ front text behind, element = front ++ text ++ behind ∧ entry.WrittenAs text ∧
    (∀ c ∈ front, isBlank c) ∧ ∀ c ∈ behind, isBlank c

/-- From its first letter on, a text is the code of a weekday, apart from white space behind it. -/
def EndsIn (element : List Char) (weekday : Weekday) : Prop :=
  ∃ before behind, element = before ++ weekday.code.toList ++ behind ∧
    (∀ c ∈ before, c.isAlpha = false) ∧ ∀ c ∈ behind, isBlank c

/-- A text without a weekday code is refused for that. If there is a code, it is refused for what
    stands in front of it, which is neither an ordinal nor nothing. The report has the whole
    text. -/
def RefusedFor (element : List Char) : ParseError → Prop
  | .invalidWeekday report => report = String.ofList element ∧ ∀ weekday, ¬EndsIn element weekday
  | .invalidNumber report => report = String.ofList element ∧ (∃ weekday, EndsIn element weekday) ∧
      ∀ entry : ByDay, ¬entry.SpacedAs element
  | _ => False

theorem admits_ordinalRange_iff : ordinalRange.Admits n ↔ n ≠ 0 ∧ -53 ≤ n ∧ n ≤ 53 := by
  simp only [ordinalRange, NumberRange.Admits]
  omega

theorem read?_ordinalRange_eq_some_iff :
    ordinalRange.read? text = some n ↔ DenotesOrdinal text n := by
  have signed : ordinalRange.Signed := by decide
  simp only [NumberRange.read?_eq_some_iff, admits_ordinalRange_iff, DenotesOrdinal, signed,
    true_and]

theorem DenotesOrdinal.ne_nil (denotes : DenotesOrdinal text n) : text ≠ [] := by
  obtain ⟨-, digits, k, numeral, -, ⟨rfl, -⟩ | ⟨rfl, -⟩ | ⟨rfl, -⟩⟩ := denotes
  · exact numeral.ne_nil
  · exact List.cons_ne_nil _ _
  · exact List.cons_ne_nil _ _

/-- An ordinal consists of digits and signs. -/
theorem DenotesOrdinal.toNat_of_mem (denotes : DenotesOrdinal text n) :
    ∀ c ∈ text, 43 ≤ c.toNat ∧ c.toNat ≤ 57 := by
  obtain ⟨-, digits, k, numeral, -, form⟩ := denotes
  have digit : ∀ c ∈ digits, 43 ≤ c.toNat ∧ c.toNat ≤ 57 := by
    intro c member
    obtain ⟨above, below⟩ := Char.isDigit_iff_toNat.1 (numeral.isDigit c member)
    exact ⟨Nat.le_trans (by decide) above, below⟩
  rcases form with ⟨rfl, -⟩ | ⟨rfl, -⟩ | ⟨rfl, -⟩
  · exact digit
  · exact List.forall_mem_cons.2 ⟨by decide, digit⟩
  · exact List.forall_mem_cons.2 ⟨by decide, digit⟩

/-- What stands in front of a code has neither letters nor blanks. -/
theorem OrdinalPart.toNat_of_mem {ordinal? : Option Int} (part : OrdinalPart text ordinal?) :
    ∀ c ∈ text, 43 ≤ c.toNat ∧ c.toNat ≤ 57 := by
  cases ordinal? with
  | none =>
    obtain rfl : text = [] := part
    exact List.forall_mem_nil _
  | some n => exact DenotesOrdinal.toNat_of_mem part

/-- A text with a weekday code is cut behind the white space in front and before the code. -/
theorem cut_code (weekday : Weekday) (letterless : ∀ c ∈ before, c.isAlpha = false)
    (blank : ∀ c ∈ behind, isBlank c) :
    let body := trimBlanks (before ++ weekday.code.toList ++ behind)
    body.takeWhile (!·.isAlpha) = before.dropWhile isBlank ∧
      body.dropWhile (!·.isAlpha) = weekday.code.toList := by
  have trimmed := trimBlanks_append before weekday.code_ne_nil weekday.isBlank_of_mem_code blank
  have front : ∀ c ∈ before.dropWhile isBlank, (!c.isAlpha) = true := by
    intro c member
    rw [letterless c (List.dropWhile_subset _ member), Bool.not_false]
  have letters : weekday.code.toList.takeWhile (!·.isAlpha) = [] ∧
      weekday.code.toList.dropWhile (!·.isAlpha) = weekday.code.toList := by
    cases weekday <;> decide
  intro body
  change body = _ at trimmed
  rw [trimmed, List.takeWhile_append_of_pos front, List.dropWhile_append_of_pos front, letters.1,
    letters.2, List.append_nil]
  exact ⟨rfl, rfl⟩

/-- The code that is looked up is the one in which the text ends. -/
theorem ofCode?_eq_some_iff_endsIn :
    Weekday.ofCode? (String.ofList ((trimBlanks element).dropWhile (!·.isAlpha))) = some weekday ↔
      EndsIn element weekday := by
  rw [Weekday.ofCode?_eq_some_iff, ← String.toList_inj, String.toList_ofList]
  constructor
  · intro code
    obtain ⟨front, behind, cut, frontBlank, behindBlank⟩ := exists_trimBlanks element
    refine ⟨front ++ (trimBlanks element).takeWhile (!·.isAlpha), behind, ?_, ?_, behindBlank⟩
    · rw [code, List.append_assoc front, List.takeWhile_append_dropWhile]
      exact cut
    · intro c member
      rcases List.mem_append.1 member with inFront | inOrdinal
      · exact isAlpha_of_isBlank (frontBlank c inFront)
      · have := List.all_eq_true.1 List.all_takeWhile c inOrdinal
        simpa using this
  · rintro ⟨before, behind, rfl, letterless, blank⟩
    exact (cut_code weekday letterless blank).2.symm

/-- With a weekday code, all depends on the text between the white space in front and the code. -/
theorem parse_of_code (letterless : ∀ c ∈ before, c.isAlpha = false)
    (blank : ∀ c ∈ behind, isBlank c)
    (cut : element = before ++ weekday.code.toList ++ behind) :
    parse element =
      if before.dropWhile isBlank = [] then .ok (every weekday)
      else
        match ordinalRange.read? (before.dropWhile isBlank) with
        | none => .error (.invalidNumber (String.ofList element))
        | some n => .ok ⟨some n, weekday⟩ := by
  have code := ofCode?_eq_some_iff_endsIn.2 ⟨before, behind, cut, letterless, blank⟩
  have ordinal := (cut_code weekday letterless blank).1
  rw [← cut] at ordinal
  cases number : ordinalRange.read? (before.dropWhile isBlank) with
  | none => simp only [parse, code, ordinal, number]
  | some n => simp only [parse, code, ordinal, number]

theorem parse_of_not_endsIn (without : ∀ weekday, ¬EndsIn element weekday) :
    parse element = .error (.invalidWeekday (String.ofList element)) := by
  cases code : Weekday.ofCode? (String.ofList ((trimBlanks element).dropWhile (!·.isAlpha))) with
  | none => simp only [parse, code]
  | some weekday => exact absurd (ofCode?_eq_some_iff_endsIn.1 code) (without weekday)

/-- A text with a weekday code is read, or refused for what stands in front of the code. -/
theorem parse_of_endsIn (endsIn : EndsIn element weekday) :
    (∃ entry, parse element = .ok entry) ∨
      parse element = .error (.invalidNumber (String.ofList element)) := by
  obtain ⟨before, behind, cut, letterless, blank⟩ := endsIn
  rw [parse_of_code letterless blank cut]
  split
  · exact Or.inl ⟨_, rfl⟩
  · split
    · exact Or.inr rfl
    · exact Or.inl ⟨_, rfl⟩

theorem spacedAs_of_cut (cut : element = before ++ weekday.code.toList ++ behind)
    (blank : ∀ c ∈ behind, isBlank c) {ordinal? : Option Int}
    (part : OrdinalPart (before.dropWhile isBlank) ordinal?) :
    SpacedAs ⟨ordinal?, weekday⟩ element := by
  refine ⟨before.takeWhile isBlank, before.dropWhile isBlank ++ weekday.code.toList, behind, ?_,
    ⟨_, rfl, part⟩, List.all_eq_true.1 List.all_takeWhile, blank⟩
  rw [← List.append_assoc, List.takeWhile_append_dropWhile]
  exact cut

/-- A text that denotes an element is read, whatever white space stands around it. -/
theorem parse_of_spacedAs (spaced : entry.SpacedAs element) : parse element = .ok entry := by
  obtain ⟨front, _, behind, cut, ⟨ordinal, rfl, part⟩, frontBlank, blank⟩ := spaced
  have bounds := part.toNat_of_mem
  rw [← List.append_assoc] at cut
  have letterless : ∀ c ∈ front ++ ordinal, c.isAlpha = false := by
    intro c member
    rcases List.mem_append.1 member with inFront | inOrdinal
    · exact isAlpha_of_isBlank (frontBlank c inFront)
    · have := bounds c inOrdinal
      exact isAlpha_eq_false (by omega)
  have reached : (front ++ ordinal).dropWhile isBlank = ordinal := by
    rw [List.dropWhile_append_of_pos frontBlank]
    apply dropWhile_isBlank_eq_self
    intro c first
    have := bounds c (List.mem_of_head? first)
    exact isBlank_eq_false (by omega) (by omega)
  rw [parse_of_code letterless blank cut, reached]
  obtain ⟨ordinal?, weekday⟩ := entry
  cases ordinal? with
  | none =>
    obtain rfl : ordinal = [] := part
    rw [if_pos rfl]
    rfl
  | some n =>
    have denotes : DenotesOrdinal ordinal n := part
    rw [if_neg denotes.ne_nil, read?_ordinalRange_eq_some_iff.2 denotes]

/-- The texts that are read as an element are those that denote it. -/
theorem parse_eq_ok_iff : parse element = .ok entry ↔ entry.SpacedAs element := by
  refine ⟨?_, parse_of_spacedAs⟩
  intro read
  by_cases code : ∃ weekday, EndsIn element weekday
  · obtain ⟨weekday, before, behind, cut, letterless, blank⟩ := code
    rw [parse_of_code letterless blank cut] at read
    split at read
    case isTrue nothing =>
      cases read
      exact spacedAs_of_cut cut blank nothing
    case isFalse =>
      split at read
      case h_1 => cases read
      case h_2 n number =>
        cases read
        exact spacedAs_of_cut cut blank (read?_ordinalRange_eq_some_iff.1 number)
  · rw [parse_of_not_endsIn fun weekday endsIn => code ⟨weekday, endsIn⟩] at read
    cases read

/-- The texts that are not read are refused for what they lack. -/
theorem parse_eq_error_iff {cause : ParseError} :
    parse element = .error cause ↔ RefusedFor element cause := by
  by_cases code : ∃ weekday, EndsIn element weekday
  · obtain ⟨weekday, endsIn⟩ := code
    constructor
    · intro refused
      rcases parse_of_endsIn endsIn with ⟨entry, read⟩ | report
      · rw [read] at refused
        cases refused
      · rw [report] at refused
        cases refused
        refine ⟨rfl, ⟨weekday, endsIn⟩, fun entry spaced => ?_⟩
        rw [parse_of_spacedAs spaced] at report
        cases report
    · intro refused
      cases cause with
      | invalidNumber report =>
        obtain ⟨rfl, -, unread⟩ := refused
        rcases parse_of_endsIn endsIn with ⟨entry, read⟩ | report
        · exact absurd (parse_eq_ok_iff.1 read) (unread entry)
        · exact report
      | invalidWeekday report => exact absurd endsIn (refused.2 weekday)
      | _ => exact absurd refused id
  · have without : ∀ weekday, ¬EndsIn element weekday := not_exists.1 code
    rw [parse_of_not_endsIn without, Except.error.injEq]
    constructor
    · rintro rfl
      exact ⟨rfl, without⟩
    · intro refused
      cases cause with
      | invalidWeekday report => rw [refused.1]
      | invalidNumber report => exact absurd refused.2.1 code
      | _ => exact absurd refused id

theorem valid_of_parse (read : parse element = .ok entry) : entry.Valid := by
  obtain ⟨front, text, behind, -, ⟨ordinal, -, part⟩, -, -⟩ := parse_eq_ok_iff.1 read
  intro n given
  rw [Option.mem_def.1 given] at part
  exact part.1

theorem writtenAs_text (valid : entry.Valid) : entry.WrittenAs entry.text := by
  obtain ⟨ordinal?, weekday⟩ := entry
  refine ⟨_, rfl, ?_⟩
  cases ordinal? with
  | none => rfl
  | some n =>
    have admitted := admits_ordinalRange_iff.2 (valid n rfl)
    exact read?_ordinalRange_eq_some_iff.1
      (NumberRange.read?_ofInt admitted (by decide) (by decide))

theorem parse_text (valid : entry.Valid) : parse entry.text = .ok entry :=
  parse_of_spacedAs ⟨[], entry.text, [], (List.append_nil _).symm, writtenAs_text valid,
    List.forall_mem_nil _, List.forall_mem_nil _⟩

theorem not_mem_text (entry : ByDay) {c : Char}
    (other : c.toNat < 45 ∨ 57 < c.toNat ∧ c.toNat < 65) : c ∉ entry.text := by
  intro member
  rcases List.mem_append.1 member with member | member
  · cases given : entry.ordinal? with
    | none => simp [given] at member
    | some n =>
      rw [given] at member
      have := Decimal.toNat_of_mem_ofInt c member
      omega
  · have := entry.weekday.toNat_of_mem_code c member
    omega

end ByDay

end Recurrence
