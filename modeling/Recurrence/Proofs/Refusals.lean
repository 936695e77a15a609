import Recurrence.Proofs.RoundTrip

/-!
# Why a line is refused

The parts of a rule text are read from left to right. The first one that is no part of a rule
decides what is reported, whatever stands behind it. Within a list the same holds of the elements.
Only when all parts are read does it matter whether one of them is a frequency.

## Main definitions

- `FirstRefused` — the first element of a list that is refused, and why
- `Key.Refuses` — a key does not take a value, and what is reported of it
- `Part.RefusedFor` — why a text is no part of a rule
- `Rule.Accepted` — a text that does not keep a line from being read

## Main statements

- `Part.parse_eq_error_iff` — the reports of the parts that are not read
- `Rule.ofValue_eq_error_iff` — the reports of the rules that are not read
- `Rule.ofLine_error_of_first_refused` — the first refused part decides, whatever surrounds it
-/

namespace Recurrence

variable {element value token : List Char} {cause : ParseError}

/-- Some elements are accepted, the next one is refused for `cause`, and there may be others behind
    it. -/
def FirstRefused {α ε : Type} (Accepted : α → Prop) (RefusedFor : α → ε → Prop)
    (elements : List α) (cause : ε) : Prop :=
  ∃ before element after, elements = before ++ element :: after ∧
    (∀ other ∈ before, Accepted other) ∧ RefusedFor element cause

theorem mapM_eq_error_iff_firstRefused {α β ε : Type} {f : α → Except ε β} {R : α → β → Prop}
    {RefusedFor : α → ε → Prop}
    (accepts : ∀ element result, f element = .ok result ↔ R element result)
    (refuses : ∀ element cause, f element = .error cause ↔ RefusedFor element cause)
    {elements : List α} {cause : ε} :
    elements.mapM f = .error cause ↔
      FirstRefused (fun element => ∃ result, R element result) RefusedFor elements cause := by
  rw [mapM_eq_error_iff, FirstRefused]
  simp only [accepts, refuses]

/-- A name is looked up in vain if nothing has it. -/
theorem lookup_eq_none_iff {α : Type} {lookup? : String → Option α} {name : α → String}
    (finds : ∀ {text a}, lookup? text = some a ↔ name a = text) :
    lookup? (String.ofList value) = none ↔ ∀ a, (name a).toList ≠ value := by
  simp only [Option.eq_none_iff_forall_ne_some, ne_eq, finds, ← String.toList_inj,
    String.toList_ofList]

/-- What an element of a list of numbers is refused for: it denotes no number of the list. -/
def NumberField.RefusedFor (field : NumberField) (element : List Char) (cause : ParseError) :
    Prop :=
  cause = .invalidNumber (String.ofList element) ∧ ∀ n, ¬field.Denotes element n

theorem NumberField.parseElement_eq_error_iff {field : NumberField} :
    field.parseElement element = .error cause ↔ field.RefusedFor element cause := by
  simp only [RefusedFor, ← read?_eq_some_iff, parseElement]
  cases field.range.read? element <;> simp [eq_comm]

theorem parseWord_eq_error_iff {least : UInt32} :
    parseWord least value = .error cause ↔
      cause = .invalidNumber (String.ofList value) ∧
        ∀ word : UInt32, least ≤ word → ¬Decimal.Denotes value word.toNat := by
  have unread : (Decimal.readWord? value).filter (least ≤ ·) = none ↔
      ∀ word : UInt32, least ≤ word → ¬Decimal.Denotes value word.toNat := by
    simp only [Option.filter_eq_none_iff, Decimal.readWord?_eq_some_iff, decide_eq_true_eq]
    exact forall_congr' fun word => imp_not_comm
  rw [← unread, parseWord]
  cases (Decimal.readWord? value).filter (least ≤ ·) <;> simp [eq_comm]

theorem Until.parse_eq_error_iff :
    Until.parse value = .error cause ↔
      cause = .invalidUntil (String.ofList value) ∧
        ∀ bound : Until, bound.Writable → bound.text ≠ value := by
  have unread : read? value = none ↔ ∀ bound : Until, bound.Writable → bound.text ≠ value := by
    simp only [Option.eq_none_iff_forall_ne_some, ne_eq, read?_eq_some_iff, not_and]
  rw [← unread, parse]
  cases read? value <;> simp [eq_comm]

/-- A key does not take a value, and what is reported of it. Of a list, it is the first element that
    denotes nothing. -/
def Key.Refuses (value : List Char) (cause : ParseError) : Key → Prop
  | frequency => cause = .invalidFrequency (String.ofList value) ∧
      ∀ code : Frequency, code.code.toList ≠ value
  | untilBound => cause = .invalidUntil (String.ofList value) ∧
      ∀ bound : Until, bound.Writable → bound.text ≠ value
  | count => cause = .invalidNumber (String.ofList value) ∧
      ∀ n : UInt32, ¬Decimal.Denotes value n.toNat
  | interval => cause = .invalidNumber (String.ofList value) ∧
      ∀ n : UInt32, 0 < n → ¬Decimal.Denotes value n.toNat
  | numbers field => FirstRefused (fun element => ∃ n, field.Denotes element n) field.RefusedFor
      (value.splitOn ',') cause
  | byDay => FirstRefused (fun element => ∃ entry : ByDay, entry.SpacedAs element)
      ByDay.RefusedFor (value.splitOn ',') cause
  | weekStart => cause = .invalidWeekStart (String.ofList value) ∧
      ∀ day : Weekday, day.code.toList ≠ value

namespace Part

theorem parseValue_eq_error_iff {key : Key} :
    parseValue value key = .error cause ↔ key.Refuses value cause := by
  cases key with
  | frequency =>
    rw [Key.Refuses, ← lookup_eq_none_iff Frequency.ofCode?_eq_some_iff, parseValue]
    cases Frequency.ofCode? (String.ofList value) <;> simp [eq_comm]
  | weekStart =>
    rw [Key.Refuses, ← lookup_eq_none_iff Weekday.ofCode?_eq_some_iff, parseValue]
    cases Weekday.ofCode? (String.ofList value) <;> simp [eq_comm]
  | untilBound => rw [parseValue, map_eq_error_iff, Until.parse_eq_error_iff, Key.Refuses]
  | count =>
    rw [parseValue, map_eq_error_iff, parseWord_eq_error_iff, Key.Refuses]
    simp
  | interval =>
    have positive (n : UInt32) : 1 ≤ n ↔ 0 < n := UInt32.le_iff_toNat_le
    rw [parseValue, map_eq_error_iff, parseWord_eq_error_iff, Key.Refuses]
    simp only [positive]
  | numbers field =>
    rw [parseValue, map_eq_error_iff]
    exact mapM_eq_error_iff_firstRefused (fun _ _ => NumberField.parseElement_eq_ok_iff)
      fun _ _ => NumberField.parseElement_eq_error_iff
  | byDay =>
    rw [parseValue, map_eq_error_iff]
    exact mapM_eq_error_iff_firstRefused (fun _ _ => ByDay.parse_eq_ok_iff)
      fun _ _ => ByDay.parse_eq_error_iff

/-- A text is no part of a rule, and what is reported of it. -/
inductive RefusedFor : List Char → ParseError → Prop
  | noEqualsSign {token : List Char} (uncut : '=' ∉ token) :
    RefusedFor token (.malformedPart (String.ofList token))
  | noKey (value : List Char) :
    RefusedFor ('=' :: value) (.malformedPart (String.ofList ('=' :: value)))
  | unknownKey {name : List Char} (value : List Char) (given : name ≠ []) (cut : '=' ∉ name)
    (unknown : ∀ key : Key, key.text.toList ≠ name) :
    RefusedFor (name ++ '=' :: value) (.unknownKey (String.ofList name))
  | invalidValue {key : Key} {value : List Char} {cause : ParseError}
    (refuses : key.Refuses value cause) : RefusedFor (key.text.toList ++ '=' :: value) cause

theorem parse_of_unknown {name : List Char} (value : List Char) (given : name ≠ [])
    (cut : '=' ∉ name) (unknown : ∀ key : Key, key.text.toList ≠ name) :
    parse (name ++ '=' :: value) = .error (.unknownKey (String.ofList name)) := by
  have pieces : splitFirst? '=' (name ++ '=' :: value) = some (name, value) :=
    splitFirst?_eq_some_iff.2 ⟨rfl, cut⟩
  have unlisted : Key.ofText? (String.ofList name) = none :=
    (lookup_eq_none_iff Key.ofText?_eq_some_iff).2 unknown
  simp only [parse, pieces, unlisted]

/-- The texts that are not read are refused for what they lack. -/
theorem parse_eq_error_iff : parse token = .error cause ↔ RefusedFor token cause := by
  constructor
  · intro refused
    cases pieces : splitFirst? '=' token with
    | none =>
      simp only [parse, pieces] at refused
      cases refused
      exact .noEqualsSign (splitFirst?_eq_none_iff.1 pieces)
    | some pair =>
      obtain ⟨name, value⟩ := pair
      obtain ⟨rfl, cut⟩ := splitFirst?_eq_some_iff.1 pieces
      by_cases known : ∃ key : Key, key.text.toList = name
      · obtain ⟨key, rfl⟩ := known
        rw [parse_of_key] at refused
        exact .invalidValue (parseValue_eq_error_iff.1 refused)
      · by_cases given : name = []
        · subst given
          cases refused
          exact .noKey value
        · rw [parse_of_unknown value given cut (not_exists.1 known)] at refused
          cases refused
          exact .unknownKey value given cut (not_exists.1 known)
  · intro refused
    cases refused with
    | noEqualsSign uncut => simp only [parse, splitFirst?_eq_none_iff.2 uncut]
    | noKey value => rfl
    | unknownKey value given cut unknown => exact parse_of_unknown value given cut unknown
    | invalidValue refuses => rw [parse_of_key, parseValue_eq_error_iff.2 refuses]

/-- A text is refused exactly if it denotes no part. -/
theorem exists_refusedFor_iff :
    (∃ cause, RefusedFor token cause) ↔ ¬∃ part : Part, part.WrittenAs token := by
  simp only [← parse_eq_error_iff, ← parse_eq_ok_iff]
  cases parse token <;> simp

end Part

namespace Rule

/-- A text between semicolons that does not keep a line from being read. -/
def Accepted (token : List Char) : Prop :=
  token = [] ∨ ∃ part : Part, part.WrittenAs token

/-- The line of a calendar file that has the given texts between its semicolons. -/
def lineOf (texts : List (List Char)) : String :=
  String.ofList (propertyName.toList ++ ':' :: List.intercalate [';'] texts)

theorem Accepted.not_mem_semicolon (accepted : Accepted token) : ';' ∉ token := by
  rcases accepted with rfl | ⟨part, written⟩
  · exact List.not_mem_nil
  · exact written.not_mem_semicolon

theorem flatMap_tokens_of_accepted {texts : List (List Char)}
    (accepted : ∀ token ∈ texts, Accepted token) :
    texts.flatMap tokens = texts.filter (· ≠ []) :=
  flatMap_tokens fun token member => (accepted token member).not_mem_semicolon

theorem exists_writtenAs_of_mem_tokens {texts : List (List Char)}
    (accepted : ∀ token ∈ texts, Accepted token) :
    ∀ token ∈ texts.flatMap tokens, ∃ part : Part, part.WrittenAs token := by
  intro token member
  rw [flatMap_tokens_of_accepted accepted, List.mem_filter, decide_eq_true_eq] at member
  exact (accepted token member.1).resolve_left member.2

theorem ofLine_lineOf (texts : List (List Char)) :
    ofLine (lineOf texts) = ofValue (String.ofList (List.intercalate [';'] texts)) := by
  have cut : splitFirst? ':' (lineOf texts).toList =
      some (propertyName.toList, List.intercalate [';'] texts) :=
    splitFirst?_eq_some_iff.2 ⟨String.toList_ofList, by decide⟩
  simp only [ofLine, cut, String.ofList_toList, if_true]

theorem ofParts?_eq_none_iff {parts : List Part} :
    ofParts? parts = none ↔ ∀ part ∈ parts, part.key ≠ .frequency := by
  rw [ofParts?, Option.map_eq_none_iff, List.findSome?_eq_none_iff]
  simp only [Option.eq_none_iff_forall_ne_some, ne_eq, ← Part.exists_frequency?_iff, not_exists]

theorem key_ne_iff_not_introduces {tokens : List (List Char)} {parts : List Part} {key : Key}
    (written : List.Forall₂ (fun token part => part.WrittenAs token) tokens parts) :
    (∀ part ∈ parts, part.key ≠ key) ↔ ∀ token ∈ tokens, ¬key.Introduces token := by
  induction written with
  | nil => simp
  | cons first _ ih =>
    rw [List.forall_mem_cons, List.forall_mem_cons, ih, ne_eq, first.introduces_iff]

/-- The rules that are not read, and what is reported: why the first refused part is refused, or
    that all parts are read and none of them is a frequency. -/
theorem ofValue_eq_error_iff :
    ofValue (String.ofList value) = .error cause ↔
      FirstRefused (fun token => ∃ part : Part, part.WrittenAs token) Part.RefusedFor
          (tokens value) cause ∨
        (∀ token ∈ tokens value, ∃ part : Part, part.WrittenAs token) ∧
          cause = .missingFrequency ∧ ∀ token ∈ tokens value, ¬Key.frequency.Introduces token := by
  have refused : parseParts value = .error cause ↔
      FirstRefused (fun token => ∃ part : Part, part.WrittenAs token) Part.RefusedFor
        (tokens value) cause :=
    mapM_eq_error_iff_firstRefused (fun _ _ => Part.parse_eq_ok_iff)
      fun _ _ => Part.parse_eq_error_iff
  simp only [ofValue, String.toList_ofList, bind_eq_error_iff, refused, parseParts_eq_ok_iff,
    ← exists_forall₂_iff, ← exists_and_right]
  apply or_congr_right
  apply exists_congr
  intro parts
  apply and_congr_right
  intro written
  rw [← key_ne_iff_not_introduces written, ← ofParts?_eq_none_iff]
  cases ofParts? parts <;> simp [eq_comm]

/-- Each text denotes a part or is refused. A line is refused for its first part that is refused,
    whatever parts come before that one and whatever texts behind it. If there is no such part, it
    is refused exactly if no part is a frequency, and for that. -/
theorem ofLine_error_of_first_refused :
    (∀ token, (∃ cause, Part.RefusedFor token cause) ↔ ¬∃ part : Part, part.WrittenAs token) ∧
    (∀ before bad after cause, (∀ token ∈ before, Accepted token) → bad ≠ [] → ';' ∉ bad →
      Part.RefusedFor bad cause → ofLine (lineOf (before ++ bad :: after)) = .error cause) ∧
    ∀ texts cause, (∀ token ∈ texts, Accepted token) →
      (ofLine (lineOf texts) = .error cause ↔
        cause = .missingFrequency ∧ ∀ token ∈ texts, ¬Key.frequency.Introduces token) := by
  refine ⟨fun _ => Part.exists_refusedFor_iff, ?_, ?_⟩
  · intro before bad after cause accepted given free refused
    rw [ofLine_lineOf, ofValue_eq_error_iff, tokens_intercalate, List.flatMap_append,
      List.flatMap_cons, tokens_of_not_mem free, List.filter_singleton, decide_eq_true given]
    exact Or.inl ⟨_, bad, _, rfl, exists_writtenAs_of_mem_tokens accepted, refused⟩
  · intro texts cause accepted
    have written := exists_writtenAs_of_mem_tokens accepted
    rw [ofLine_lineOf, ofValue_eq_error_iff, tokens_intercalate]
    constructor
    · rintro (⟨before, bad, after, split, -, refused⟩ | ⟨-, same, others⟩)
      · have member : bad ∈ texts.flatMap tokens := split ▸ by simp
        exact absurd (written bad member) (Part.exists_refusedFor_iff.1 ⟨cause, refused⟩)
      · refine ⟨same, fun token member introduces => ?_⟩
        apply others token ?_ introduces
        rw [flatMap_tokens_of_accepted accepted, List.mem_filter, decide_eq_true_eq]
        exact ⟨member, introduces.ne_nil⟩
    · rintro ⟨same, others⟩
      refine Or.inr ⟨written, same, fun token member => others token ?_⟩
      rw [flatMap_tokens_of_accepted accepted] at member
      exact List.mem_of_mem_filter member

/-- The third text is refused for the second of its elements. It does not matter that a later one
    with the same key can be read, that the last one cannot, and that none is a frequency. -/
theorem ofLine_error_of_refused_month :
    ofLine "RRULE:COUNT=3;;BYMONTH=1,x,13;BYMONTH=1;WKST" = .error (.invalidNumber "x") := by
  refine ofLine_error_of_first_refused.2.1 ["COUNT=3".toList, []] "BYMONTH=1,x,13".toList
    ["BYMONTH=1".toList, "WKST".toList] _ ?accepted ?given ?free ?refused
  case accepted =>
    rw [List.forall_mem_cons, List.forall_mem_singleton]
    exact ⟨Or.inr ⟨.count 3, Part.parse_eq_ok_iff.1 (by decide)⟩, Or.inl rfl⟩
  case given => decide
  case free => decide
  case refused => exact Part.parse_eq_error_iff.1 (by decide)

end Rule

end Recurrence
