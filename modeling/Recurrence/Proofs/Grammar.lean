import Mathlib.Data.List.Perm.Basic
import Recurrence.Proofs.PartText
import Recurrence.Proofs.Parts

/-!
# Which lines are rules

A line denotes a rule if it names the property and if its parts can be read one by one, one of them
being a frequency. The rule shows the last part with each key. It does not matter in which order
parts with different keys stand.
-/

namespace Recurrence

theorem Part.writtenAs_rightUnique :
    Relator.RightUnique fun (token : List Char) (part : Part) => part.WrittenAs token := by
  intro token a b writtenA writtenB
  rw [← parse_eq_ok_iff] at writtenA writtenB
  exact Except.ok.inj (writtenA.symm.trans writtenB)

theorem Part.WrittenAs.filled {part : Part} {token : List Char} (written : part.WrittenAs token) :
    part.Filled := by
  obtain ⟨value, -, said⟩ := written
  cases part with
  | numbers field values =>
    rintro rfl
    exact List.splitOn_ne_nil ',' value (List.forall₂_nil_right_iff.1 said)
  | byDay entries =>
    rintro rfl
    exact List.splitOn_ne_nil ',' value (List.forall₂_nil_right_iff.1 said)
  | _ => trivial

/-- A text begins with the name of a key and an equals sign. -/
def Key.Introduces (key : Key) (token : List Char) : Prop :=
  key.text.toList ++ ['='] <+: token

instance (key : Key) (token : List Char) : Decidable (key.Introduces token) :=
  inferInstanceAs (Decidable (_ <+: _))

theorem Key.Introduces.ne_nil {key : Key} {token : List Char} (introduces : key.Introduces token) :
    token ≠ [] := by
  obtain ⟨rest, rfl⟩ := introduces
  simp

theorem Part.WrittenAs.introduces_iff {part : Part} {token : List Char} {key : Key}
    (written : part.WrittenAs token) : key.Introduces token ↔ part.key = key := by
  obtain ⟨value, rfl, -⟩ := written
  constructor
  · rintro ⟨rest, equal⟩
    rw [List.append_assoc, List.singleton_append] at equal
    have cut := splitFirst?_eq_some_iff.2 ⟨equal.symm, key.not_mem_text rfl⟩
    rw [splitFirst?_eq_some_iff.2 ⟨rfl, part.key.not_mem_text rfl⟩, Option.some.injEq,
      Prod.mk.injEq, String.toList_inj] at cut
    have known := Key.ofText?_eq_some_iff.2 cut.1
    rw [Key.ofText?_eq_some_iff.2 rfl] at known
    exact (Option.some.inj known).symm
  · rintro rfl
    exact ⟨value, by rw [List.append_assoc, List.singleton_append]⟩

namespace Rule

variable {text : String} {value : List Char} {rule : Rule}

/-- The parts of a text. Those that are empty do not count. -/
def tokens (value : List Char) : List (List Char) :=
  (value.splitOn ';').filter (· ≠ [])

theorem tokens_append_cons (first rest : List Char) :
    tokens (first ++ ';' :: rest) = tokens first ++ tokens rest := by
  rw [tokens, List.splitOn_append_cons_self, List.filter_append, tokens, tokens]

theorem tokens_intercalate (texts : List (List Char)) :
    tokens (List.intercalate [';'] texts) = texts.flatMap tokens := by
  induction texts with
  | nil => rfl
  | cons first rest ih =>
    rw [List.flatMap_cons, ← ih]
    cases rest with
    | nil => simp [tokens]
    | cons second rest =>
      rw [List.intercalate_cons_cons, List.append_assoc, List.singleton_append, tokens_append_cons]

theorem tokens_of_not_mem {token : List Char} (free : ';' ∉ token) :
    tokens token = [token].filter (· ≠ []) := by
  rw [tokens, List.splitOn_eq_singleton free]

theorem flatMap_tokens {texts : List (List Char)} (free : ∀ token ∈ texts, ';' ∉ token) :
    texts.flatMap tokens = texts.filter (· ≠ []) := by
  induction texts with
  | nil => rfl
  | cons first rest ih =>
    rw [List.forall_mem_cons] at free
    rw [List.flatMap_cons, tokens_of_not_mem free.1, ih free.2, ← List.filter_append,
      List.singleton_append]

theorem filled_of_written {tokens : List (List Char)} {parts : List Part}
    (written : List.Forall₂ (fun token part => part.WrittenAs token) tokens parts) :
    ∀ part ∈ parts, part.Filled :=
  forall_mem_of_forall₂ written fun _ _ => Part.WrittenAs.filled

theorem parseParts_eq_ok_iff {parts : List Part} :
    parseParts value = .ok parts ↔
      List.Forall₂ (fun token part => part.WrittenAs token) (tokens value) parts := by
  simp only [parseParts, mapM_eq_ok_iff, Part.parse_eq_ok_iff]
  rfl

theorem ofValue_eq_ok_iff :
    ofValue (String.ofList value) = .ok rule ↔
      ∃ parts, List.Forall₂ (fun token part => part.WrittenAs token) (tokens value) parts ∧
        (∃ part ∈ parts, part.key = .frequency) ∧
        ∀ key, rule.part? key = Part.last? key parts := by
  simp only [ofValue, String.toList_ofList, bind_eq_ok_iff, parseParts_eq_ok_iff]
  apply exists_congr
  intro parts
  apply and_congr_right
  intro written
  rw [← ofParts?_eq_some_iff (filled_of_written written)]
  cases ofParts? parts <;> simp

/-- The lines that are read, and the rules that they denote. -/
theorem ofLine_eq_ok_iff :
    ofLine text = .ok rule ↔
      ∃ value parts, text.toList = propertyName.toList ++ ':' :: value ∧
        List.Forall₂ (fun token part => part.WrittenAs token) (tokens value) parts ∧
        (∃ part ∈ parts, part.key = .frequency) ∧
        ∀ key, rule.part? key = Part.last? key parts := by
  constructor
  · intro read
    simp only [ofLine] at read
    split at read
    case h_1 => cases read
    case h_2 name value cut =>
      split at read
      case isFalse => cases read
      case isTrue named =>
        obtain ⟨parts, shown⟩ := ofValue_eq_ok_iff.1 read
        refine ⟨value, parts, ?_, shown⟩
        rw [(splitFirst?_eq_some_iff.1 cut).1, ← named, String.toList_ofList]
  · rintro ⟨value, parts, line, shown⟩
    have cut : splitFirst? ':' text.toList = some (propertyName.toList, value) :=
      splitFirst?_eq_some_iff.2 ⟨line, by decide⟩
    simp only [ofLine, cut, String.ofList_toList, if_true]
    exact ofValue_eq_ok_iff.2 ⟨parts, shown⟩

/-- Two lists of parts hold the same parts, those with the same key in the same order. -/
structure SameOrder (first second : List (List Char)) : Prop where
  perm : first.Perm second
  filter_eq : ∀ key : Key, first.filter key.Introduces = second.filter key.Introduces

theorem SameOrder.symm {first second : List (List Char)} (same : SameOrder first second) :
    SameOrder second first :=
  ⟨same.perm.symm, fun key => (same.filter_eq key).symm⟩

theorem forall₂_filter_key {tokens : List (List Char)} {parts : List Part}
    (written : List.Forall₂ (fun token part => part.WrittenAs token) tokens parts) (key : Key) :
    List.Forall₂ (fun token part => part.WrittenAs token) (tokens.filter key.Introduces)
      (parts.filter (·.key = key)) := by
  apply List.rel_filter _ written
  intro token part about
  simpa using about.introduces_iff

/-- The parts of a reordered text are those of the text, in another order. -/
theorem SameOrder.exists_parts {first second : List (List Char)} {parts : List Part}
    (same : SameOrder first second)
    (written : List.Forall₂ (fun token part => part.WrittenAs token) first parts) :
    ∃ others, List.Forall₂ (fun token part => part.WrittenAs token) second others ∧
      (∀ part, part ∈ others ↔ part ∈ parts) ∧
      ∀ key, Part.last? key others = Part.last? key parts := by
  obtain ⟨others, others_written, perm⟩ := List.perm_comp_forall₂ same.perm.symm written
  refine ⟨others, others_written, fun part => perm.mem_iff, fun key => ?_⟩
  have here := forall₂_filter_key written key
  have there := forall₂_filter_key others_written key
  rw [← same.filter_eq key] at there
  rw [Part.last?, Part.last?, Part.writtenAs_rightUnique.forall₂ there here]

theorem SameOrder.ofLine_eq_ok {first second : List Char}
    (same : SameOrder (tokens first) (tokens second))
    (read : ofLine (String.ofList (propertyName.toList ++ ':' :: first)) = .ok rule) :
    ofLine (String.ofList (propertyName.toList ++ ':' :: second)) = .ok rule := by
  rw [ofLine_eq_ok_iff] at read ⊢
  obtain ⟨value, parts, line, written, ⟨part, member, about⟩, shown⟩ := read
  obtain rfl : first = value := by simpa using line
  obtain ⟨others, others_written, members, lasts⟩ := same.exists_parts written
  refine ⟨second, others, by simp, others_written, ⟨part, (members part).2 member, about⟩, ?_⟩
  intro key
  rw [shown, lasts]

/-- A line denotes a rule if it names the property, if each part that is not empty denotes the
    part of some rule and if one of these is a frequency. Each part of the rule is the last one
    with its key. Parts with different keys may change places. -/
theorem ofLine_grammar (text : String) (rule : Rule) :
    (ofLine text = .ok rule ↔
      ∃ value parts, text.toList = propertyName.toList ++ ':' :: value ∧
        List.Forall₂ (fun token part => part.WrittenAs token) (tokens value) parts ∧
        (∃ part ∈ parts, part.key = .frequency) ∧
        ∀ key, rule.part? key = Part.last? key parts) ∧
    ∀ first second, SameOrder (tokens first) (tokens second) →
      (ofLine (String.ofList (propertyName.toList ++ ':' :: first)) = .ok rule ↔
        ofLine (String.ofList (propertyName.toList ++ ':' :: second)) = .ok rule) :=
  ⟨ofLine_eq_ok_iff, fun _ _ same => ⟨same.ofLine_eq_ok, same.symm.ofLine_eq_ok⟩⟩

theorem ofLine_grammar_count_first :
    ofLine (String.ofList
        (propertyName.toList ++ ':' :: "COUNT=3;;FREQ=DAILY;FREQ=WEEKLY".toList)) =
      .ok { frequency := .weekly, count? := some 3 } := by
  have same : SameOrder (tokens "FREQ=DAILY;COUNT=3;FREQ=WEEKLY".toList)
      (tokens "COUNT=3;;FREQ=DAILY;FREQ=WEEKLY".toList) := by
    refine ⟨by decide, fun key => ?_⟩
    rcases key with _ | _ | _ | _ | (_ | _ | _ | _ | _ | _ | _ | _) | _ | _ <;> decide
  exact ((ofLine_grammar "" { frequency := .weekly, count? := some 3 }).2 _ _ same).1 (by decide)

end Rule

end Recurrence
