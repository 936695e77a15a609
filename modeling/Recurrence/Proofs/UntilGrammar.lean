import Recurrence.Proofs.Refusals

/-!
# The grammar of the end of a recurrence

The end of a recurrence is spelled with digits of fixed places: eight for a date, and behind a `T`
six for a time of day, which a `Z` may follow. Reading takes these spellings and nothing else, and
printing gives back the one spelling that was read.
-/

namespace Recurrence

/-- A number is written with `width` digits. -/
structure Decimal.Field (width : Nat) (text : List Char) (n : Nat) : Prop extends
    Decimal.Denotes text n where
  length : text.length = width

/-- A field is a number below `10 ^ width`, filled up with zeros. -/
theorem Decimal.field_iff_padded {width n : Nat} {text : List Char} (positive : 0 < width) :
    Field width text n ↔ n < 10 ^ width ∧ padded width n = text := by
  rw [← readNat?_eq_some_iff_padded positive, readNat?_eq_some_iff]
  constructor
  · intro field
    exact ⟨field.length, field.toDenotes⟩
  · rintro ⟨length, denotes⟩
    exact ⟨denotes, length⟩

/-- Eight digits name a date: four name the year, two the month and two the day. -/
def Date.SpelledBy (text : List Char) (date : Date) : Prop :=
  ∃ year month day, text = year ++ month ++ day ∧
    (0 ≤ date.year ∧ Decimal.Field 4 year date.year.toNat) ∧
      Decimal.Field 2 month date.month ∧ Decimal.Field 2 day date.day

/-- Six digits name a time of day, which is a full second: two name the hour, two the minute and
    two the second. -/
def Time.SpelledBy (text : List Char) (time : Time) : Prop :=
  time.nano = 0 ∧ ∃ hour minute second, text = hour ++ minute ++ second ∧
    Decimal.Field 2 hour time.hour ∧ Decimal.Field 2 minute time.minute ∧
      Decimal.Field 2 second time.second

namespace Until

variable {text : List Char} {date : Date} {time : Time} {bound : Until}

/-- The spellings of the end of a recurrence: a date, a date with a time of day, and the same in
    universal time. -/
inductive Spelled : List Char → Until → Prop where
  | day {date : Date} {dateDigits : List Char} :
    date.SpelledBy dateDigits → Spelled dateDigits (.day date)
  | floating {date : Date} {time : Time} {dateDigits timeDigits : List Char} :
    date.SpelledBy dateDigits → time.SpelledBy timeDigits →
      Spelled (dateDigits ++ 'T' :: timeDigits) (.moment ⟨date, time⟩ false)
  | universal {date : Date} {time : Time} {dateDigits timeDigits : List Char} :
    date.SpelledBy dateDigits → time.SpelledBy timeDigits →
      Spelled (dateDigits ++ 'T' :: timeDigits ++ ['Z']) (.moment ⟨date, time⟩ true)

theorem spelledBy_date_iff :
    date.SpelledBy text ↔ 0 ≤ date.year ∧ date.year ≤ 9999 ∧ dateText date = text := by
  have inYear := date.month_bounds
  have inMonth := date.day_bounds.2.2
  have shortMonth := monthLength_le date.year date.month
  simp only [Date.SpelledBy, Decimal.field_iff_padded (show 0 < 4 by decide),
    Decimal.field_iff_padded Nat.two_pos]
  constructor
  · rintro ⟨_, _, _, rfl, ⟨lower, upper, rfl⟩, ⟨-, rfl⟩, -, rfl⟩
    refine ⟨lower, by omega, ?_⟩
    rw [dateText, yearText_eq lower (by omega)]
  · rintro ⟨lower, upper, rfl⟩
    rw [dateText, yearText_eq lower upper]
    exact ⟨_, _, _, rfl, ⟨lower, by omega, rfl⟩, ⟨by omega, rfl⟩, by omega, rfl⟩

theorem spelledBy_time_iff : time.SpelledBy text ↔ time.nano = 0 ∧ timeText time = text := by
  have inDay := time.nanos_lt
  simp only [nanosPerDay, nanosPerSecond] at inDay
  have hours : time.hour < 10 ^ 2 := by simp only [Time.hour, nanosPerSecond]; omega
  have minutes : time.minute < 10 ^ 2 := by simp only [Time.minute]; omega
  have seconds : time.second < 10 ^ 2 := by simp only [Time.second]; omega
  simp only [Time.SpelledBy, Decimal.field_iff_padded Nat.two_pos]
  apply and_congr_right
  rintro -
  constructor
  · rintro ⟨_, _, _, rfl, ⟨-, rfl⟩, ⟨-, rfl⟩, -, rfl⟩
    rfl
  · rintro rfl
    exact ⟨_, _, _, rfl, ⟨hours, rfl⟩, ⟨minutes, rfl⟩, seconds, rfl⟩

/-- The only spelling of an end is its written form, and the ends that can be written have one. -/
theorem spelled_iff : Spelled text bound ↔ bound.Writable ∧ bound.text = text := by
  constructor
  · intro spelled
    cases spelled with
    | day spellsDate =>
      obtain ⟨lower, upper, rfl⟩ := spelledBy_date_iff.1 spellsDate
      exact ⟨⟨lower, upper⟩, rfl⟩
    | floating spellsDate spellsTime =>
      obtain ⟨lower, upper, rfl⟩ := spelledBy_date_iff.1 spellsDate
      obtain ⟨whole, rfl⟩ := spelledBy_time_iff.1 spellsTime
      exact ⟨⟨lower, upper, whole⟩, List.append_nil _⟩
    | universal spellsDate spellsTime =>
      obtain ⟨lower, upper, rfl⟩ := spelledBy_date_iff.1 spellsDate
      obtain ⟨whole, rfl⟩ := spelledBy_time_iff.1 spellsTime
      exact ⟨⟨lower, upper, whole⟩, rfl⟩
  · rintro ⟨writable, rfl⟩
    cases bound with
    | day date =>
      obtain ⟨lower, upper⟩ := writable
      exact .day (spelledBy_date_iff.2 ⟨lower, upper, rfl⟩)
    | moment value utc =>
      obtain ⟨lower, upper, whole⟩ := writable
      have spellsDate := spelledBy_date_iff.2 ⟨lower, upper, rfl⟩
      have spellsTime := spelledBy_time_iff.2 ⟨whole, rfl⟩
      cases utc with
      | false =>
        rw [Until.text, if_neg Bool.false_ne_true, List.append_nil]
        exact .floating spellsDate spellsTime
      | true =>
        rw [Until.text, if_pos rfl]
        exact .universal spellsDate spellsTime

/-- Texts and ends of recurrences correspond one to one. A text is read exactly if it spells an end,
    and that end is the result; what is read is printed as the same text, and every end that can be
    written is read from its printed form. All other texts are refused, and reported as they are. -/
theorem parse_one_to_one :
    (∀ text bound, parse text = .ok bound ↔ Spelled text bound) ∧
      (∀ text bound, parse text = .ok bound ↔ bound.Writable ∧ bound.text = text) ∧
        ∀ text cause, parse text = .error cause ↔
          cause = .invalidUntil (String.ofList text) ∧ ∀ bound, ¬Spelled text bound := by
  refine ⟨fun text bound => ?_, fun text bound => parse_eq_ok_iff, fun text cause => ?_⟩
  · rw [parse_eq_ok_iff, spelled_iff]
  · simp only [parse_eq_error_iff, spelled_iff, not_and, ne_eq]

end Until

end Recurrence
