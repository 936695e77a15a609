import Recurrence.Proofs.ByDayText
import Recurrence.Proofs.Grammar

/-!
# Writing a rule and reading it again

A rule that was made by hand may hold numbers that no text denotes. The rules that some line
denotes are exactly those that come back when they are written and read again.
-/

namespace Recurrence

/-- A list that was written element by element is read element by element. -/
theorem forall₂_splitOn_intercalate {α : Type} {R : List Char → α → Prop} {separator : Char}
    {write : α → List Char} {values : List α} (given : values ≠ [])
    (free : ∀ value ∈ values, separator ∉ write value)
    (reads : ∀ value ∈ values, R (write value) value) :
    List.Forall₂ R ((List.intercalate [separator] (values.map write)).splitOn separator)
      values := by
  rw [List.splitOn_intercalate separator (List.forall_mem_map.2 free) (by simpa using given),
    List.forall₂_map_left_iff, List.forall₂_same]
  exact reads

namespace Part

variable {part : Part}

/-- What a part of a valid rule looks like. -/
def Valid : Part → Prop
  | untilBound bound => bound.Writable
  | interval n => 0 < n.toNat
  | numbers field values => ∀ n ∈ values, field.Allows n
  | byDay entries => ∀ entry ∈ entries, entry.Valid
  | _ => True

theorem valid_of_saidBy {value : List Char} (said : part.SaidBy value) : part.Valid := by
  cases part with
  | untilBound bound => exact (Until.parse_eq_ok_iff.1 said).1
  | interval n => exact said.2
  | numbers field values => exact forall_mem_of_forall₂ said fun element n denotes => denotes.1
  | byDay entries => exact forall_mem_of_forall₂ said fun element entry => ByDay.valid_of_parse
  | _ => trivial

/-- The written form of a valid part says this part. -/
theorem saidBy_valueText (valid : part.Valid) (filled : part.Filled) :
    part.SaidBy part.valueText := by
  cases part with
  | frequency code => rfl
  | weekStart day => rfl
  | untilBound bound => exact Until.parse_eq_ok_iff.2 ⟨valid, rfl⟩
  | count n => exact Decimal.denotes_ofNat n.toNat
  | interval n => exact ⟨Decimal.denotes_ofNat n.toNat, valid⟩
  | numbers field values =>
    apply forall₂_splitOn_intercalate filled
    · exact fun n _ => Decimal.not_mem_ofInt (by decide)
    · exact fun n member => field.denotes_ofInt (valid n member)
  | byDay entries =>
    apply forall₂_splitOn_intercalate filled
    · exact fun entry _ => entry.not_mem_text (by decide)
    · exact fun entry member => ByDay.parse_text (valid entry member)

theorem writtenAs_text (valid : part.Valid) (filled : part.Filled) : part.WrittenAs part.text :=
  ⟨part.valueText, rfl, saidBy_valueText valid filled⟩

end Part

namespace Rule

variable {rule : Rule} {text : String}

/-- The rules that a text can denote: an interval is positive, the end can be written, and the
    numbers in the lists lie in their ranges. -/
structure Valid (rule : Rule) : Prop where
  interval : rule.interval? ≠ some 0
  untilBound : ∀ bound ∈ rule.until?, bound.Writable
  numbers : ∀ field, ∀ n ∈ rule.numbers field, field.Allows n
  byDay : ∀ entry ∈ rule.byDay, entry.Valid

/-- Each part of a valid rule is valid. -/
theorem Valid.of_part? {key : Key} {part : Part} (valid : rule.Valid)
    (shown : rule.part? key = some part) : part.Valid := by
  cases key with
  | untilBound =>
    obtain ⟨bound, given, rfl⟩ := Option.map_eq_some_iff.1 shown
    exact valid.untilBound bound given
  | interval =>
    obtain ⟨n, given, rfl⟩ := Option.map_eq_some_iff.1 shown
    apply Nat.pos_of_ne_zero
    intro zero
    exact valid.interval (given.trans (congrArg some (UInt32.toNat_inj.1 zero)))
  | numbers field =>
    obtain ⟨-, rfl⟩ := part?_numbers_eq_some_iff.1 shown
    exact valid.numbers field
  | byDay =>
    obtain ⟨-, rfl⟩ := part?_byDay_eq_some_iff.1 shown
    exact valid.byDay
  | frequency =>
    cases shown
    trivial
  | count | weekStart =>
    obtain ⟨_, -, rfl⟩ := Option.map_eq_some_iff.1 shown
    trivial

/-- A rule is valid if each of its parts is. -/
theorem valid_of_parts (parts : ∀ key, ∀ part ∈ rule.part? key, part.Valid) : rule.Valid := by
  refine ⟨?interval, ?untilBound, ?numbers, ?byDay⟩
  case interval =>
    intro zero
    have positive := parts .interval (.interval 0) (congrArg (Option.map Part.interval) zero)
    exact absurd positive (Nat.lt_irrefl 0)
  case untilBound =>
    intro bound given
    exact parts .untilBound (.untilBound bound) (congrArg (Option.map Part.untilBound) given)
  case numbers =>
    intro field n member
    have given := List.ne_nil_of_mem member
    exact parts (.numbers field) _ (part?_numbers_eq_some_iff.2 ⟨given, rfl⟩) n member
  case byDay =>
    intro entry member
    have given := List.ne_nil_of_mem member
    exact parts .byDay _ (part?_byDay_eq_some_iff.2 ⟨given, rfl⟩) entry member

theorem writtenAs_of_mem_parts {part : Part} (valid : rule.Valid) (member : part ∈ rule.parts) :
    part.WrittenAs part.text := by
  obtain ⟨key, -, shown⟩ := List.mem_filterMap.1 member
  exact part.writtenAs_text (valid.of_part? shown) (filled_of_part? shown)

theorem frequency_mem_parts : Part.frequency rule.frequency ∈ rule.parts :=
  List.mem_filterMap.2 ⟨.frequency, Key.mem_all _, rfl⟩

/-- The parts of a text are those that were written. -/
theorem tokens_toValue (valid : rule.Valid) :
    tokens rule.toValue.toList = rule.parts.map Part.text := by
  have free : ∀ token ∈ rule.parts.map Part.text, ';' ∉ token := by
    rw [List.forall_mem_map]
    exact fun part member => (writtenAs_of_mem_parts valid member).not_mem_semicolon
  rw [toValue, String.toList_ofList, tokens_intercalate, flatMap_tokens free,
    List.filter_eq_self, List.forall_mem_map]
  intro part _
  simp [Part.text]

theorem ofLine_toLine_of_valid (valid : rule.Valid) : ofLine rule.toLine = .ok rule := by
  rw [ofLine_eq_ok_iff]
  refine ⟨rule.toValue.toList, rule.parts, ?line, ?written, ?frequency, fun _ => last?_parts.symm⟩
  case line => simp [toLine, String.toList_append]
  case written =>
    rw [tokens_toValue valid, List.forall₂_map_left_iff, List.forall₂_same]
    exact fun part member => writtenAs_of_mem_parts valid member
  case frequency => exact ⟨_, frequency_mem_parts, rfl⟩

theorem valid_of_ofLine (read : ofLine text = .ok rule) : rule.Valid := by
  obtain ⟨value, parts, -, written, -, shown⟩ := ofLine_eq_ok_iff.1 read
  have valid : ∀ part ∈ parts, part.Valid :=
    forall_mem_of_forall₂ written fun _ _ ⟨_, _, said⟩ => Part.valid_of_saidBy said
  apply valid_of_parts
  intro key part here
  rw [shown] at here
  exact valid part (Part.of_last?_eq_some here).1

/-- A rule that is read is valid, and a rule is valid if and only if it reads back. -/
theorem ofLine_toLine_iff_valid (text : String) (rule : Rule) :
    (ofLine text = .ok rule → rule.Valid) ∧ (ofLine rule.toLine = .ok rule ↔ rule.Valid) :=
  ⟨valid_of_ofLine, valid_of_ofLine, ofLine_toLine_of_valid⟩

theorem ofLine_toLine_last_friday :
    ∃ date ∈ Date.ofYmd? 2018 3 17,
      ofLine "RRULE:UNTIL=20180317;BYDAY=-01FR;FREQ=MONTHLY" =
        .ok { frequency := .monthly, until? := some (.day date), byDay := [⟨some (-1), .friday⟩] } ∧
      Rule.Valid
        { frequency := .monthly, until? := some (.day date), byDay := [⟨some (-1), .friday⟩] } := by
  refine ⟨_, rfl, ?read, ?valid⟩
  case read => decide +kernel
  case valid =>
    apply (ofLine_toLine_iff_valid "RRULE:UNTIL=20180317;BYDAY=-01FR;FREQ=MONTHLY" _).1
    decide +kernel

end Rule

end Recurrence
