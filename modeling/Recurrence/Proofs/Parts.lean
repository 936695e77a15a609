import Recurrence.Rule.Basic

/-!
# A rule as its parts

A rule is determined by its parts. Making a rule from a list of parts keeps the last part with each
key and nothing else, so that the order of parts with different keys has no effect.
-/

namespace Recurrence

variable {rule : Rule} {part : Part} {parts : List Part} {key : Key}

namespace Part

/-- The last of the parts with a given key. -/
def last? (key : Key) (parts : List Part) : Option Part :=
  (parts.filter (·.key = key)).getLast?

/-- A rule does not tell an empty list from an absent one. -/
def Filled : Part → Prop
  | numbers _ values => values ≠ []
  | byDay entries => entries ≠ []
  | _ => True

theorem last?_cons :
    last? key (part :: parts) =
      (last? key parts).or (if part.key = key then some part else none) := by
  by_cases same : part.key = key
  · rw [last?, List.filter_cons_of_pos (by simpa using same), List.getLast?_cons, if_pos same,
      last?]
    cases (parts.filter (·.key = key)).getLast? <;> rfl
  · rw [last?, List.filter_cons_of_neg (by simpa using same), if_neg same, Option.or_none, last?]

theorem last?_isSome_iff : (last? key parts).isSome ↔ ∃ part ∈ parts, part.key = key := by
  simp [last?, Option.isSome_iff_ne_none]

theorem of_last?_eq_some (last : last? key parts = some part) :
    part ∈ parts ∧ part.key = key := by
  simpa using List.mem_of_getLast? last

theorem exists_frequency?_iff : (∃ code, part.frequency? = some code) ↔ part.key = .frequency := by
  cases part <;> simp [frequency?, key]

end Part

namespace Rule

theorem part?_numbers_eq_some_iff {field : NumberField} :
    rule.part? (.numbers field) = some part ↔
      rule.numbers field ≠ [] ∧ .numbers field (rule.numbers field) = part := by
  simp only [part?, Option.ite_none_left_eq_some, Option.some.injEq, ne_eq]

theorem part?_byDay_eq_some_iff :
    rule.part? .byDay = some part ↔ rule.byDay ≠ [] ∧ .byDay rule.byDay = part := by
  simp only [part?, Option.ite_none_left_eq_some, Option.some.injEq, ne_eq]

theorem filled_of_part? (shown : rule.part? key = some part) : part.Filled := by
  cases key with
  | numbers field =>
    obtain ⟨given, rfl⟩ := part?_numbers_eq_some_iff.1 shown
    exact given
  | byDay =>
    obtain ⟨given, rfl⟩ := part?_byDay_eq_some_iff.1 shown
    exact given
  | frequency =>
    cases shown
    trivial
  | _ =>
    obtain ⟨_, -, rfl⟩ := Option.map_eq_some_iff.1 shown
    trivial

theorem list_eq_of_ite_eq {α : Type} [DecidableEq α] {f : List α → Part} {a b : List α}
    (injective : ∀ a b, f a = f b → a = b)
    (same : (if a = [] then none else some (f a)) = if b = [] then none else some (f b)) :
    a = b := by
  by_cases emptyA : a = []
  · by_cases emptyB : b = []
    · rw [emptyA, emptyB]
    · rw [if_pos emptyA, if_neg emptyB] at same
      cases same
  · by_cases emptyB : b = []
    · rw [if_neg emptyA, if_pos emptyB] at same
      cases same
    · rw [if_neg emptyA, if_neg emptyB] at same
      exact injective a b (Option.some.inj same)

theorem eq_of_part?_eq {a b : Rule} (same : ∀ key, a.part? key = b.part? key) : a = b := by
  have frequency := Part.frequency.inj (Option.some.inj (same .frequency))
  have interval := Option.map_injective (fun _ _ => Part.interval.inj) (same .interval)
  have bound := Option.map_injective (fun _ _ => Part.untilBound.inj) (same .untilBound)
  have count := Option.map_injective (fun _ _ => Part.count.inj) (same .count)
  have weekStart := Option.map_injective (fun _ _ => Part.weekStart.inj) (same .weekStart)
  have byDay := list_eq_of_ite_eq (fun _ _ => Part.byDay.inj) (same .byDay)
  have numbers (field : NumberField) : a.numbers field = b.numbers field :=
    list_eq_of_ite_eq (fun _ _ equal => (Part.numbers.inj equal).2) (same (.numbers field))
  cases a
  cases b
  simp only [mk.injEq]
  exact ⟨frequency, interval, bound, count, weekStart, numbers .second, numbers .minute,
    numbers .hour, byDay, numbers .monthDay, numbers .yearDay, numbers .weekNumber,
    numbers .month, numbers .position⟩

/-- The parts of a rule after an assignment. -/
theorem part?_assign (filled : part.Filled) :
    (rule.assign part).part? key = if part.key = key then some part else rule.part? key := by
  split
  case isFalse other => exact part?_assign_of_ne other
  case isTrue same =>
    subst same
    rcases part with _ | _ | _ | _ | ⟨field, _⟩ | _ | _
    case numbers => cases field <;> exact if_neg filled
    case byDay => exact if_neg filled
    all_goals rfl

/-- The parts of a rule after some assignments. -/
theorem part?_foldl_assign (filled : ∀ part ∈ parts, part.Filled) :
    (parts.foldl assign rule).part? key = (Part.last? key parts).or (rule.part? key) := by
  induction parts generalizing rule with
  | nil => rfl
  | cons part parts ih =>
    rw [List.forall_mem_cons] at filled
    rw [List.foldl_cons, ih filled.2, part?_assign filled.1, Part.last?_cons, Option.or_assoc]
    by_cases same : part.key = key
    · rw [if_pos same, if_pos same, Option.some_or]
    · rw [if_neg same, if_neg same, Option.none_or]

theorem part?_of_frequency {code : Frequency} (other : key ≠ .frequency) :
    part? { frequency := code } key = none := by
  rcases key with _ | _ | _ | _ | field | _ | _
  case frequency => contradiction
  case numbers => cases field <;> rfl
  all_goals rfl

/-- Parts make a rule if one of them is a frequency. The rule has the last part with each key. -/
theorem ofParts?_eq_some_iff (filled : ∀ part ∈ parts, part.Filled) :
    ofParts? parts = some rule ↔
      (∃ part ∈ parts, part.key = .frequency) ∧ ∀ key, rule.part? key = Part.last? key parts := by
  have parts_of (code : Frequency) (given : ∃ part ∈ parts, part.key = .frequency) (key : Key) :
      (parts.foldl assign { frequency := code }).part? key = Part.last? key parts := by
    rw [part?_foldl_assign filled]
    by_cases other : key = .frequency
    · obtain ⟨last, found⟩ := Option.isSome_iff_exists.1 (Part.last?_isSome_iff.2 given)
      rw [other, found, Option.some_or]
    · rw [part?_of_frequency other, Option.or_none]
  simp only [ofParts?, Option.map_eq_some_iff]
  constructor
  · rintro ⟨code, found, rfl⟩
    obtain ⟨part, member, code_of⟩ := List.exists_of_findSome?_eq_some found
    have given : ∃ part ∈ parts, part.key = .frequency :=
      ⟨part, member, Part.exists_frequency?_iff.1 ⟨code, code_of⟩⟩
    exact ⟨given, parts_of code given⟩
  · rintro ⟨given, shows⟩
    obtain ⟨part, member, about⟩ := given
    obtain ⟨code, found⟩ : ∃ code, parts.findSome? Part.frequency? = some code := by
      rw [← Option.isSome_iff_exists, List.findSome?_isSome_iff]
      exact ⟨part, member, Option.isSome_iff_exists.2 (Part.exists_frequency?_iff.2 about)⟩
    refine ⟨code, found, eq_of_part?_eq fun key => ?_⟩
    rw [parts_of code ⟨part, member, about⟩, shows]

theorem last?_filterMap_part? {keys : List Key} :
    Part.last? key (keys.filterMap rule.part?) =
      if key ∈ keys then rule.part? key else none := by
  induction keys with
  | nil => rfl
  | cons first keys ih =>
    by_cases same : first = key
    · subst same
      rw [if_pos List.mem_cons_self]
      cases given : rule.part? first with
      | none =>
        rw [List.filterMap_cons_none given, ih, given]
        exact ite_self _
      | some part =>
        rw [List.filterMap_cons_some given, Part.last?_cons, ih, given,
          if_pos (key_of_part? given)]
        split <;> rfl
    · have membership : key ∈ first :: keys ↔ key ∈ keys := by
        rw [List.mem_cons, or_iff_right fun equal => same equal.symm]
      simp only [membership]
      cases given : rule.part? first with
      | none => rw [List.filterMap_cons_none given, ih]
      | some part =>
        have other : part.key ≠ key := by rwa [key_of_part? given]
        rw [List.filterMap_cons_some given, Part.last?_cons, ih, if_neg other, Option.or_none]

/-- A rule has one part with each key at most. -/
theorem last?_parts : Part.last? key rule.parts = rule.part? key := by
  rw [parts, last?_filterMap_part?, if_pos (Key.mem_all key)]

end Rule

end Recurrence
