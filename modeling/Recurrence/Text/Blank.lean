/-!
# Blank characters

The characters with the Unicode property `White_Space`, and texts without them at either end.
-/

namespace Recurrence

/-- The ranges of code points that have the property `White_Space`. -/
def blankRanges : List (Nat × Nat) :=
  [(0x9, 0xD), (0x20, 0x20), (0x85, 0x85), (0xA0, 0xA0), (0x1680, 0x1680), (0x2000, 0x200A),
    (0x2028, 0x2029), (0x202F, 0x202F), (0x205F, 0x205F), (0x3000, 0x3000)]

/-- Whether a character is white space. -/
def isBlank (c : Char) : Bool :=
  blankRanges.any fun (first, last) => first ≤ c.toNat && c.toNat ≤ last

/-- A text without the blanks in front and behind. -/
def trimBlanks (text : List Char) : List Char :=
  ((text.dropWhile isBlank).reverse.dropWhile isBlank).reverse

theorem dropWhile_isBlank_eq_self {text : List Char} (front : ∀ c ∈ text.head?, isBlank c = false) :
    text.dropWhile isBlank = text := by
  cases text with
  | nil => rfl
  | cons c rest => simp [List.dropWhile, front c (by simp)]

/-- Trimming takes nothing but blanks away, at the ends of a text. -/
theorem exists_trimBlanks (text : List Char) :
    ∃ front behind, text = front ++ trimBlanks text ++ behind ∧ (∀ c ∈ front, isBlank c) ∧
      ∀ c ∈ behind, isBlank c := by
  refine ⟨text.takeWhile isBlank,
    ((text.dropWhile isBlank).reverse.takeWhile isBlank).reverse, ?_, ?_, ?_⟩
  · rw [trimBlanks, List.append_assoc, ← List.reverse_append, List.takeWhile_append_dropWhile,
      List.reverse_reverse, List.takeWhile_append_dropWhile]
  · exact List.all_eq_true.1 List.all_takeWhile
  · intro c member
    exact List.all_eq_true.1 List.all_takeWhile c (List.mem_reverse.1 member)

/-- A text that ends in visible characters, apart from the blanks behind them, is trimmed at its
    front only. -/
theorem trimBlanks_append (before : List Char) {visible behind : List Char} (given : visible ≠ [])
    (shows : ∀ c ∈ visible, isBlank c = false) (blank : ∀ c ∈ behind, isBlank c) :
    trimBlanks (before ++ visible ++ behind) = before.dropWhile isBlank ++ visible := by
  obtain ⟨first, rest, rfl⟩ := List.exists_cons_of_ne_nil given
  have front : (before ++ (first :: rest ++ behind)).dropWhile isBlank =
      before.dropWhile isBlank ++ (first :: rest ++ behind) := by
    rw [List.dropWhile_append]
    split
    case isTrue empty =>
      rw [List.isEmpty_iff.1 empty, List.nil_append]
      exact dropWhile_isBlank_eq_self (by simpa using shows first List.mem_cons_self)
    case isFalse => rfl
  have back : ((first :: rest).reverse ++ (before.dropWhile isBlank).reverse).dropWhile isBlank =
      (first :: rest).reverse ++ (before.dropWhile isBlank).reverse := by
    apply dropWhile_isBlank_eq_self
    intro last isLast
    rw [List.head?_append, List.head?_reverse, List.getLast?_cons, Option.some_or,
      ← List.getLast?_cons] at isLast
    exact shows last (List.mem_of_getLast? isLast)
  rw [trimBlanks, List.append_assoc, front, ← List.append_assoc, List.reverse_append,
    List.dropWhile_append_of_pos (by simpa using blank), List.reverse_append, back,
    ← List.reverse_append, List.reverse_reverse]

end Recurrence
