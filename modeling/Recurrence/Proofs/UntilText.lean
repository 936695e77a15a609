import Recurrence.Proofs.Dates
import Recurrence.Proofs.Numerals
import Recurrence.Rule.Until

/-!
# The written form of the end of a recurrence

A date is read from eight digits and a time of day from six. No two texts denote the same end, and
the ends that some text denotes are those of a year with four digits and of a full second.
-/

namespace Recurrence

/-- Three numerals one after another. The first one has `width` digits, the others have two. -/
theorem Decimal.readNat?_fields_iff {text : List Char} {a b c width : Nat}
    (positive : 0 < width) :
    text.length = width + 4 ∧ readNat? (text.take width) = some a ∧
        readNat? ((text.drop width).take 2) = some b ∧
        readNat? (text.drop (width + 2)) = some c ↔
      a < 10 ^ width ∧ b < 10 ^ 2 ∧ c < 10 ^ 2 ∧
        padded width a ++ padded 2 b ++ padded 2 c = text := by
  constructor
  · rintro ⟨length, readA, readB, readC⟩
    obtain ⟨boundA, writtenA⟩ := (readNat?_eq_some_iff_padded positive).1
      ⟨by rw [List.length_take]; omega, readA⟩
    obtain ⟨boundB, writtenB⟩ := (readNat?_eq_some_iff_padded Nat.two_pos).1
      ⟨by rw [List.length_take, List.length_drop]; omega, readB⟩
    obtain ⟨boundC, writtenC⟩ := (readNat?_eq_some_iff_padded Nat.two_pos).1
      ⟨by rw [List.length_drop]; omega, readC⟩
    refine ⟨boundA, boundB, boundC, ?_⟩
    rw [writtenA, writtenB, writtenC, List.append_assoc, ← List.drop_drop,
      List.take_append_drop, List.take_append_drop]
  · rintro ⟨boundA, boundB, boundC, rfl⟩
    have lengthA := length_padded positive boundA
    have lengthB := length_padded Nat.two_pos boundB
    have lengthC := length_padded Nat.two_pos boundC
    refine ⟨by simp only [List.length_append]; omega, ?_, ?_, ?_⟩
    · rw [List.append_assoc, List.take_left' lengthA]
      exact readNat?_padded width a
    · rw [List.append_assoc, List.drop_left' lengthA, List.take_left' lengthB]
      exact readNat?_padded 2 b
    · rw [List.drop_left' (by rw [List.length_append]; omega)]
      exact readNat?_padded 2 c

namespace Until

variable {text : List Char} {date : Date} {time : Time} {bound : Until}

/-- An end that can be written has a year with four digits, and a moment is a full second. -/
def Writable : Until → Prop
  | day date => 0 ≤ date.year ∧ date.year ≤ 9999
  | moment value _ => 0 ≤ value.date.year ∧ value.date.year ≤ 9999 ∧ value.time.nano = 0

theorem yearText_eq {year : Int} (lower : 0 ≤ year) (upper : year ≤ 9999) :
    yearText year = Decimal.padded 4 year.toNat := by
  rw [yearText, if_neg (by omega), if_pos upper, show year.natAbs = year.toNat by omega]

theorem readDate?_eq_some_iff :
    readDate? text = some date ↔
      0 ≤ date.year ∧ date.year ≤ 9999 ∧ dateText date = text := by
  simp only [readDate?, Option.bind_eq_bind, Option.bind_eq_some_iff, Option.guard_eq_some',
    exists_const, Date.ofYmd?_eq_some_iff]
  constructor
  · rintro ⟨length, year, readYear, month, readMonth, day, readDay, yearIs, rfl, rfl⟩
    obtain ⟨fourDigits, -, -, written⟩ :=
      (Decimal.readNat?_fields_iff (by decide)).1 ⟨length, readYear, readMonth, readDay⟩
    refine ⟨by omega, by omega, ?_⟩
    rw [dateText, yearText_eq (by omega) (by omega), yearIs, Int.toNat_natCast]
    exact written
  · rintro ⟨lower, upper, written⟩
    have inYear := date.month_bounds
    have inMonth := date.day_bounds.2.2
    have shortMonth := monthLength_le date.year date.month
    rw [dateText, yearText_eq lower upper] at written
    obtain ⟨length, readYear, readMonth, readDay⟩ :=
      (Decimal.readNat?_fields_iff (by decide)).2 ⟨by omega, by omega, by omega, written⟩
    exact ⟨length, _, readYear, _, readMonth, _, readDay, by omega, rfl, rfl⟩

theorem readTime?_eq_some_iff :
    readTime? text = some time ↔ time.nano = 0 ∧ timeText time = text := by
  simp only [readTime?, Option.bind_eq_bind, Option.bind_eq_some_iff, Option.guard_eq_some',
    exists_const, Time.ofHms?_eq_some_iff]
  constructor
  · rintro ⟨length, hour, readHour, minute, readMinute, second, readSecond, rfl, rfl, rfl, whole⟩
    obtain ⟨-, -, -, written⟩ :=
      (Decimal.readNat?_fields_iff (by decide)).1 ⟨length, readHour, readMinute, readSecond⟩
    exact ⟨whole, written⟩
  · rintro ⟨whole, written⟩
    have inDay := time.nanos_lt
    simp only [nanosPerDay, nanosPerSecond] at inDay
    obtain ⟨length, readHour, readMinute, readSecond⟩ :=
      (Decimal.readNat?_fields_iff (by decide)).2 ⟨by simp only [Time.hour, nanosPerSecond]; omega,
        by simp only [Time.minute]; omega, by simp only [Time.second]; omega, written⟩
    exact ⟨length, _, readHour, _, readMinute, _, readSecond, rfl, rfl, rfl, whole⟩

theorem isDigit_of_mem_dateText (lower : 0 ≤ date.year) (upper : date.year ≤ 9999) :
    ∀ c ∈ dateText date, c.isDigit := by
  intro c member
  rw [dateText, yearText_eq lower upper, List.mem_append, List.mem_append] at member
  rcases member with (member | member) | member <;> exact Decimal.isDigit_of_mem_padded member

theorem isDigit_of_mem_timeText : ∀ c ∈ timeText time, c.isDigit := by
  intro c member
  rw [timeText, List.mem_append, List.mem_append] at member
  rcases member with (member | member) | member <;> exact Decimal.isDigit_of_mem_padded member

/-- What stands behind the separator: a time of day, and a mark for universal time. -/
theorem readTime?_of_marked_iff {rest : List Char} {utc : Bool} :
    readTime? (if rest.getLast? = some 'Z' then rest.dropLast else rest) = some time ∧
        decide (rest.getLast? = some 'Z') = utc ↔
      time.nano = 0 ∧ (timeText time ++ if utc then ['Z'] else []) = rest := by
  constructor
  · rintro ⟨read, rfl⟩
    by_cases marked : rest.getLast? = some 'Z'
    · rw [if_pos marked, readTime?_eq_some_iff] at read
      refine ⟨read.1, ?_⟩
      rw [decide_eq_true marked, if_pos rfl, read.2]
      exact List.dropLast_append_getLast? 'Z' marked
    · rw [if_neg marked, readTime?_eq_some_iff] at read
      refine ⟨read.1, ?_⟩
      rw [decide_eq_false marked, if_neg Bool.false_ne_true, List.append_nil]
      exact read.2
  · rintro ⟨whole, rfl⟩
    have read := readTime?_eq_some_iff.2 ⟨whole, rfl⟩
    cases utc with
    | true => simp [read]
    | false =>
      have unmarked : (timeText time).getLast? ≠ some 'Z' := by
        intro marked
        exact Decimal.not_mem_of_isDigit isDigit_of_mem_timeText rfl (List.mem_of_getLast? marked)
      simp [unmarked, read]

/-- The texts that are read are the written forms of the ends that can be written. -/
theorem read?_eq_some_iff : read? text = some bound ↔ bound.Writable ∧ bound.text = text := by
  simp only [read?]
  constructor
  · intro read
    split at read
    case h_1 =>
      obtain ⟨date, readDate, rfl⟩ := Option.map_eq_some_iff.1 read
      obtain ⟨lower, upper, written⟩ := readDate?_eq_some_iff.1 readDate
      exact ⟨⟨lower, upper⟩, written⟩
    case h_2 dateDigits rest cut =>
      simp only [Option.bind_eq_bind, Option.bind_eq_some_iff, Option.some.injEq] at read
      obtain ⟨date, readDate, time, readTime, rfl⟩ := read
      obtain ⟨rfl, -⟩ := splitFirst?_eq_some_iff.1 cut
      obtain ⟨lower, upper, rfl⟩ := readDate?_eq_some_iff.1 readDate
      obtain ⟨whole, written⟩ := readTime?_of_marked_iff.1 ⟨readTime, rfl⟩
      refine ⟨⟨lower, upper, whole⟩, ?_⟩
      rw [Until.text, List.append_assoc, List.cons_append, written]
  · rintro ⟨writable, rfl⟩
    cases bound with
    | day date =>
      obtain ⟨lower, upper⟩ := writable
      have uncut : splitFirst? 'T' (dateText date) = none := by
        rw [splitFirst?_eq_none_iff]
        exact Decimal.not_mem_of_isDigit (isDigit_of_mem_dateText lower upper) rfl
      simp only [Until.text, uncut, readDate?_eq_some_iff.2 ⟨lower, upper, rfl⟩, Option.map_some]
    | moment value utc =>
      obtain ⟨lower, upper, whole⟩ := writable
      obtain ⟨readTime, marked⟩ := (@readTime?_of_marked_iff value.time _ utc).2 ⟨whole, rfl⟩
      have cut : splitFirst? 'T' (Until.moment value utc).text =
          some (dateText value.date, timeText value.time ++ if utc then ['Z'] else []) := by
        rw [splitFirst?_eq_some_iff, Until.text, List.append_assoc, List.cons_append]
        exact ⟨rfl, Decimal.not_mem_of_isDigit (isDigit_of_mem_dateText lower upper) rfl⟩
      simp only [cut, readDate?_eq_some_iff.2 ⟨lower, upper, rfl⟩, readTime, marked,
        Option.bind_eq_bind, Option.bind_some]

theorem not_mem_text {c : Char} (writable : bound.Writable)
    (other : c ≠ 'T' ∧ c ≠ 'Z') (notDigit : c.isDigit = false) : c ∉ bound.text := by
  cases bound with
  | day date =>
    exact Decimal.not_mem_of_isDigit (isDigit_of_mem_dateText writable.1 writable.2) notDigit
  | moment value utc =>
    have date := Decimal.not_mem_of_isDigit
      (isDigit_of_mem_dateText writable.1 writable.2.1) notDigit
    have time : c ∉ timeText value.time :=
      Decimal.not_mem_of_isDigit isDigit_of_mem_timeText notDigit
    have mark : c ∉ (if utc then ['Z'] else []) := by
      cases utc <;> simp [other.2]
    rw [text, List.append_assoc, List.cons_append, List.mem_append, List.mem_cons, List.mem_append]
    exact not_or.2 ⟨date, not_or.2 ⟨other.1, not_or.2 ⟨time, mark⟩⟩⟩

end Until

end Recurrence
