import Mathlib.Data.List.Forall2
import Recurrence.Proofs.ByDayText
import Recurrence.Proofs.UntilText
import Recurrence.Rule.Parser

/-!
# The written forms of a part

What a value says depends on the key in front of it: a name, a number, a list of elements or the
end of the recurrence. The texts that are read as a part are those that denote it, and a text
denotes one part at most.

## Main definitions

- `Part.SaidBy` — a value and the part that it is the value of
- `Part.WrittenAs` — a text and the part that it denotes

## Main statements

- `Part.parse_eq_ok_iff` — a text is read as the part that it denotes
- `Part.parseValue_byDay_grammar` — the lists of weekdays that are read, and the first element
  that is at fault in the others
- `Part.WrittenAs.not_mem_semicolon` — the separator of parts does not occur in a part
-/

namespace Recurrence

theorem bind_eq_ok_iff {α β ε : Type} {x : Except ε α} {f : α → Except ε β} {b : β} :
    x >>= f = .ok b ↔ ∃ a, x = .ok a ∧ f a = .ok b := by
  cases x with
  | error cause => simp [bind, Except.bind]
  | ok a => simp [bind, Except.bind]

theorem bind_eq_error_iff {α β ε : Type} {x : Except ε α} {f : α → Except ε β} {cause : ε} :
    x >>= f = .error cause ↔ x = .error cause ∨ ∃ a, x = .ok a ∧ f a = .error cause := by
  cases x <;> simp [bind, Except.bind]

theorem map_eq_ok_iff {α β ε : Type} {f : α → β} {x : Except ε α} {b : β} :
    f <$> x = .ok b ↔ ∃ a, x = .ok a ∧ f a = b := by
  cases x <;> simp [Functor.map, Except.map]

theorem mapM_eq_ok_iff {α β ε : Type} {f : α → Except ε β} {elements : List α}
    {results : List β} :
    elements.mapM f = .ok results ↔
      List.Forall₂ (fun element result => f element = .ok result) elements results := by
  induction elements generalizing results with
  | nil =>
    rw [List.mapM_nil, List.forall₂_nil_left_iff]
    exact ⟨fun equal => (Except.ok.inj equal).symm, fun equal => congrArg Except.ok equal.symm⟩
  | cons element elements ih =>
    rw [List.mapM_cons, List.forall₂_cons_left_iff]
    simp only [bind_eq_ok_iff, ih]
    constructor
    · rintro ⟨first, found, rest, others, equal⟩
      exact ⟨first, rest, found, others, (Except.ok.inj equal).symm⟩
    · rintro ⟨first, rest, found, others, rfl⟩
      exact ⟨first, found, rest, others, rfl⟩

theorem map_eq_error_iff {α β ε : Type} {f : α → β} {x : Except ε α} {cause : ε} :
    f <$> x = .error cause ↔ x = .error cause := by
  cases x <;> simp [Functor.map, Except.map]

/-- The first element that is refused decides the error, whatever comes behind it. -/
theorem mapM_eq_error_iff {α β ε : Type} {f : α → Except ε β} {elements : List α} {cause : ε} :
    elements.mapM f = .error cause ↔
      ∃ before element after, elements = before ++ element :: after ∧
        (∀ other ∈ before, ∃ result, f other = .ok result) ∧ f element = .error cause := by
  induction elements with
  | nil =>
    rw [List.mapM_nil]
    constructor
    · intro refused
      cases refused
    · rintro ⟨before, element, after, split, -⟩
      exact absurd split.symm (by simp)
  | cons first rest ih =>
    have step : (first :: rest).mapM f = .error cause ↔ f first = .error cause ∨
        (∃ result, f first = .ok result) ∧ rest.mapM f = .error cause := by
      rw [List.mapM_cons]
      cases f first <;> cases rest.mapM f <;> simp [bind, Except.bind, pure, Except.pure]
    rw [step, ih]
    constructor
    · rintro (refused | ⟨accepted, before, element, after, rfl, others, refused⟩)
      · exact ⟨[], first, rest, rfl, List.forall_mem_nil _, refused⟩
      · exact ⟨first :: before, element, after, rfl, List.forall_mem_cons.2 ⟨accepted, others⟩,
          refused⟩
    · rintro ⟨before, element, after, split, others, refused⟩
      cases before with
      | nil =>
        cases split
        exact Or.inl refused
      | cons other before =>
        cases split
        obtain ⟨accepted, others⟩ := List.forall_mem_cons.1 others
        exact Or.inr ⟨accepted, before, element, after, rfl, others, refused⟩

theorem forall_mem_of_forall₂ {α β : Type} {R : α → β → Prop} {P : β → Prop}
    {elements : List α} {results : List β} (related : List.Forall₂ R elements results)
    (holds : ∀ element result, R element result → P result) : ∀ result ∈ results, P result := by
  induction related with
  | nil => exact List.forall_mem_nil P
  | cons first _ ih => exact List.forall_mem_cons.2 ⟨holds _ _ first, ih⟩

theorem exists_forall₂_iff {α β : Type} {R : α → β → Prop} {elements : List α} :
    (∃ results, List.Forall₂ R elements results) ↔
      ∀ element ∈ elements, ∃ result, R element result := by
  induction elements with
  | nil => simp
  | cons element elements ih =>
    simp only [List.forall_mem_cons, ← ih, List.forall₂_cons_left_iff]
    constructor
    · rintro ⟨_, first, rest, about, others, rfl⟩
      exact ⟨⟨first, about⟩, rest, others⟩
    · rintro ⟨⟨first, about⟩, rest, others⟩
      exact ⟨first :: rest, first, rest, about, others, rfl⟩

theorem NumberField.parseElement_eq_ok_iff {field : NumberField} {element : List Char} {n : Int} :
    field.parseElement element = .ok n ↔ field.Denotes element n := by
  rw [← read?_eq_some_iff, parseElement]
  cases field.range.read? element <;> simp

theorem parseWord_eq_ok_iff {least word : UInt32} {text : List Char} :
    parseWord least text = .ok word ↔ Decimal.Denotes text word.toNat ∧ least ≤ word := by
  have found : parseWord least text = .ok word ↔
      (Decimal.readWord? text).filter (least ≤ ·) = some word := by
    rw [parseWord]
    cases (Decimal.readWord? text).filter (least ≤ ·) <;> simp
  rw [found, Option.filter_eq_some_iff, Decimal.readWord?_eq_some_iff, decide_eq_true_eq]

theorem Until.parse_eq_ok_iff {text : List Char} {bound : Until} :
    Until.parse text = .ok bound ↔ bound.Writable ∧ bound.text = text := by
  rw [← read?_eq_some_iff, parse]
  cases read? text <;> simp

theorem Key.not_mem_text {c : Char} (key : Key) (other : c.isUpper = false) :
    c ∉ key.text.toList := by
  have upper : key.text.toList.all Char.isUpper := by
    rcases key with _ | _ | _ | _ | (_ | _ | _ | _ | _ | _ | _ | _) | _ | _ <;> rfl
  intro member
  rw [List.all_eq_true.1 upper c member] at other
  cases other

theorem not_mem_intercalate {c separator : Char} {texts : List (List Char)}
    (other : c ≠ separator) (free : ∀ text ∈ texts, c ∉ text) :
    c ∉ List.intercalate [separator] texts := by
  induction texts with
  | nil => simp
  | cons first texts ih =>
    rw [List.forall_mem_cons] at free
    cases texts with
    | nil => simpa using free.1
    | cons second texts =>
      rw [List.intercalate_cons_cons, List.mem_append, List.mem_append, List.mem_singleton]
      exact not_or.2 ⟨not_or.2 ⟨free.1, other⟩, ih free.2⟩

theorem not_mem_of_splitOn {c : Char} (separator : Char) {text : List Char} (other : c ≠ separator)
    (free : ∀ element ∈ text.splitOn separator, c ∉ element) : c ∉ text := by
  have joined := not_mem_intercalate other free
  rwa [List.intercalate_splitOn] at joined

theorem NumberField.Denotes.not_mem_semicolon {field : NumberField} {element : List Char} {n : Int}
    (denotes : field.Denotes element n) : ';' ∉ element := by
  obtain ⟨-, digits, k, numeral, -, form⟩ := denotes
  have free : ';' ∉ digits := Decimal.not_mem_of_isDigit numeral.isDigit rfl
  rcases form with ⟨rfl, -⟩ | ⟨-, ⟨rfl, -⟩ | ⟨rfl, -⟩⟩
  · exact free
  · exact List.not_mem_cons_of_ne_of_not_mem (by decide) free
  · exact List.not_mem_cons_of_ne_of_not_mem (by decide) free

theorem ByDay.SpacedAs.not_mem_semicolon {entry : ByDay} {element : List Char}
    (spaced : entry.SpacedAs element) : ';' ∉ element := by
  obtain ⟨front, _, behind, rfl, ⟨ordinal, rfl, part⟩, frontBlank, behindBlank⟩ := spaced
  have visible {text : List Char} (blank : ∀ c ∈ text, isBlank c) : ';' ∉ text := by
    intro member
    have := blank _ member
    rw [isBlank_eq_false (by decide) (by decide)] at this
    cases this
  have notInOrdinal : ';' ∉ ordinal := by
    intro member
    have := part.toNat_of_mem _ member
    revert this
    decide
  have notInCode : ';' ∉ entry.weekday.code.toList := by
    intro member
    have := entry.weekday.toNat_of_mem_code _ member
    revert this
    decide
  simp only [List.mem_append, not_or]
  exact ⟨⟨visible frontBlank, notInOrdinal, notInCode⟩, visible behindBlank⟩

namespace Part

/-- What a value says, as the value of the key that belongs to the part. -/
def SaidBy (value : List Char) : Part → Prop
  | frequency code => code.code.toList = value
  | untilBound bound => Until.parse value = .ok bound
  | count n => Decimal.Denotes value n.toNat
  | interval n => Decimal.Denotes value n.toNat ∧ 0 < n.toNat
  | numbers field values => List.Forall₂ field.Denotes (value.splitOn ',') values
  | byDay entries =>
    List.Forall₂ (fun element entry => ByDay.parse element = .ok entry) (value.splitOn ',') entries
  | weekStart day => day.code.toList = value

/-- A text denotes a part: it is the name of a key, an equals sign and a value. -/
def WrittenAs (part : Part) (token : List Char) : Prop :=
  ∃ value, token = part.key.text.toList ++ '=' :: value ∧ part.SaidBy value

/-- What separates parts does not occur in one. -/
theorem WrittenAs.not_mem_semicolon {part : Part} {token : List Char}
    (written : part.WrittenAs token) : ';' ∉ token := by
  obtain ⟨value, rfl, said⟩ := written
  have free : ';' ∉ value := by
    cases part with
    | frequency code =>
      obtain rfl : code.code.toList = value := said
      cases code <;> decide
    | weekStart day =>
      obtain rfl : day.code.toList = value := said
      cases day <;> decide
    | untilBound bound =>
      obtain ⟨writable, rfl⟩ := Until.parse_eq_ok_iff.1 said
      exact bound.not_mem_text writable (by decide) rfl
    | count n =>
      have denotes : Decimal.Denotes value n.toNat := said
      exact Decimal.not_mem_of_isDigit denotes.isDigit rfl
    | interval n => exact Decimal.not_mem_of_isDigit said.1.isDigit rfl
    | numbers field values =>
      apply not_mem_of_splitOn ',' (by decide)
      exact forall_mem_of_forall₂ said.flip fun _ _ => NumberField.Denotes.not_mem_semicolon
    | byDay entries =>
      apply not_mem_of_splitOn ',' (by decide)
      exact forall_mem_of_forall₂ said.flip fun _ _ read =>
        (ByDay.parse_eq_ok_iff.1 read).not_mem_semicolon
  simp only [List.mem_append, List.mem_cons, not_or]
  exact ⟨part.key.not_mem_text rfl, by decide, free⟩

theorem parseValue_eq_ok_iff {value : List Char} {key : Key} {part : Part} :
    parseValue value key = .ok part ↔ part.key = key ∧ part.SaidBy value := by
  cases key with
  | frequency =>
    have found : parseValue value .frequency = .ok part ↔
        ∃ code, Frequency.ofCode? (String.ofList value) = some code ∧ frequency code = part := by
      rw [parseValue]
      cases Frequency.ofCode? (String.ofList value) <;> simp
    simp only [found, Frequency.ofCode?_eq_some_iff]
    cases part <;> simp [key, SaidBy, ← String.toList_inj]
  | weekStart =>
    have found : parseValue value .weekStart = .ok part ↔
        ∃ day, Weekday.ofCode? (String.ofList value) = some day ∧ weekStart day = part := by
      rw [parseValue]
      cases Weekday.ofCode? (String.ofList value) <;> simp
    simp only [found, Weekday.ofCode?_eq_some_iff]
    cases part <;> simp [key, SaidBy, ← String.toList_inj]
  | untilBound =>
    simp only [parseValue, map_eq_ok_iff]
    cases part <;> simp [key, SaidBy]
  | count =>
    simp only [parseValue, map_eq_ok_iff, parseWord_eq_ok_iff]
    cases part <;> simp [key, SaidBy]
  | interval =>
    have positive (n : UInt32) : 1 ≤ n ↔ 0 < n.toNat := UInt32.le_iff_toNat_le
    simp only [parseValue, map_eq_ok_iff, parseWord_eq_ok_iff, positive]
    cases part <;> simp [key, SaidBy]
  | numbers field =>
    simp only [parseValue, map_eq_ok_iff, mapM_eq_ok_iff, NumberField.parseElement_eq_ok_iff]
    constructor
    · rintro ⟨values, said, rfl⟩
      exact ⟨rfl, said⟩
    · rintro ⟨about, said⟩
      cases part <;> cases about
      exact ⟨_, said, rfl⟩
  | byDay =>
    simp only [parseValue, map_eq_ok_iff, mapM_eq_ok_iff]
    cases part <;> simp [key, SaidBy]

theorem parse_of_key (key : Key) (value : List Char) :
    parse (key.text.toList ++ '=' :: value) = parseValue value key := by
  have cut : splitFirst? '=' (key.text.toList ++ '=' :: value) = some (key.text.toList, value) :=
    splitFirst?_eq_some_iff.2 ⟨rfl, key.not_mem_text rfl⟩
  have known : Key.ofText? (String.ofList key.text.toList) = some key := by
    rw [String.ofList_toList, Key.ofText?_eq_some_iff]
  -- the reader refuses a part without a key before it looks for the key
  have named : key.text.toList ≠ [] := by
    rcases key with _ | _ | _ | _ | (_ | _ | _ | _ | _ | _ | _ | _) | _ | _ <;> decide
  simp only [parse, cut, known]

theorem parse_eq_ok_iff {token : List Char} {part : Part} :
    parse token = .ok part ↔ part.WrittenAs token := by
  constructor
  · intro read
    simp only [parse] at read
    split at read
    case h_1 | h_2 => cases read
    case h_3 name value _ cut =>
      obtain ⟨rfl, -⟩ := splitFirst?_eq_some_iff.1 cut
      cases known : Key.ofText? (String.ofList name) with
      | none =>
        rw [known] at read
        cases read
      | some key =>
        rw [known] at read
        obtain ⟨rfl, said⟩ := parseValue_eq_ok_iff.1 read
        refine ⟨value, ?_, said⟩
        rw [Key.ofText?_eq_some_iff.1 known, String.toList_ofList]
  · rintro ⟨value, rfl, said⟩
    rw [parse_of_key]
    exact parseValue_eq_ok_iff.2 ⟨rfl, said⟩

/-- A list of weekdays is read exactly if each of its elements denotes an entry, and the list of
    these entries is the result. Otherwise the first element that denotes none decides the error. -/
theorem parseValue_byDay_grammar (value : List Char) :
    (∀ part, parseValue value .byDay = .ok part ↔
      ∃ entries, part = .byDay entries ∧
        List.Forall₂ (fun element (entry : ByDay) => entry.SpacedAs element) (value.splitOn ',')
          entries) ∧
    ∀ cause, parseValue value .byDay = .error cause ↔
      ∃ before element after, value.splitOn ',' = before ++ element :: after ∧
        (∀ other ∈ before, ∃ entry : ByDay, entry.SpacedAs other) ∧
        ByDay.RefusedFor element cause := by
  constructor
  · intro part
    simp only [parseValue, map_eq_ok_iff, mapM_eq_ok_iff, ByDay.parse_eq_ok_iff]
    constructor
    · rintro ⟨entries, denoted, rfl⟩
      exact ⟨entries, rfl, denoted⟩
    · rintro ⟨entries, rfl, denoted⟩
      exact ⟨entries, denoted, rfl⟩
  · intro cause
    rw [parseValue, map_eq_error_iff, mapM_eq_error_iff]
    simp only [ByDay.parse_eq_ok_iff, ByDay.parse_eq_error_iff]

/-- A blank in front of an element does not count, although no entry is written with one. -/
theorem parseValue_byDay_of_blank :
    parseValue " MO".toList .byDay = .ok (.byDay [.every .monday]) ∧
      " MO".toList.splitOn ',' = [" MO".toList] ∧
      ∀ entry : ByDay, ¬entry.WrittenAs " MO".toList := by
  refine ⟨rfl, rfl, ?_⟩
  rintro entry ⟨ordinal, written, part⟩
  have member : ' ' ∈ ordinal ++ entry.weekday.code.toList := written ▸ by decide
  rcases List.mem_append.1 member with inOrdinal | inCode
  · have := part.toNat_of_mem ' ' inOrdinal
    revert this
    decide
  · have := entry.weekday.toNat_of_mem_code ' ' inCode
    revert this
    decide

end Part

end Recurrence
