import Recurrence.Proofs.TracedSearch

/-!
# Which words a search computes

The words of a search are those for the place of the anchor and for the periods that are visited,
and the numbers of dates that are counted. Most of them hold their numbers, whatever the period is.
There are two exceptions: the year after the last one that has 32 bits, which the length of one
month takes, and the number of a month, as the number of the period may be as great as a word.

## Main definitions

- `Traced.Within` — all words of a computation have a property
- `Word.yearBeyond` — the year after the last one that has 32 bits

## Main statements

- `TracedPeriods.within_firstOnOrAfter?` — where the words of a search come from
- `TracedPeriods.within_weeks_candidates`, `TracedPeriods.within_months_candidates`,
  `TracedPeriods.within_years_candidates` — the words for one period
- `TracedPeriods.mem_words_scan` — a search in vain computes the words of all periods in its reach

## Design notes

The lemmas are about any property of words that those have which hold their numbers, so they also
tell which words do not come up.
-/

namespace Recurrence

namespace Traced

variable {α β : Type} {property : Word → Prop}

/-- All words of a computation have a property. -/
def Within (property : Word → Prop) (x : Traced α) : Prop :=
  ∀ word ∈ x.words, property word

theorem within_pure (a : α) : Within property (pure a : Traced α) :=
  List.forall_mem_nil _

theorem mem_words_bind {x : Traced α} {f : α → Traced β} {word : Word} :
    word ∈ (x >>= f).words ↔ word ∈ x.words ∨ word ∈ (f x.value).words :=
  List.mem_append

theorem mem_words_compute {width : Width} {n : Int} {word : Word} :
    word ∈ (compute width n).words ↔ word = ⟨width, n⟩ :=
  List.mem_singleton

theorem within_bind {x : Traced α} {f : α → Traced β} :
    Within property (x >>= f) ↔ Within property x ∧ Within property (f x.value) :=
  List.forall_mem_append

theorem within_map {x : Traced α} {f : α → β} :
    Within property (f <$> x) ↔ Within property x := by
  have words : (f <$> x).words = x.words ++ [] := rfl
  rw [Within, words, List.append_nil]
  rfl

theorem within_compute {width : Width} {n : Int} :
    Within property (compute width n) ↔ property ⟨width, n⟩ :=
  List.forall_mem_singleton

theorem within_checked {width : Width} {n : Int}
    (holds : Word.Fits ⟨width, n⟩ → property ⟨width, n⟩) : Within property (checked width n) := by
  by_cases fits : Word.Fits ⟨width, n⟩
  · rw [checked_of_fits fits]
    exact List.forall_mem_singleton.2 (holds fits)
  · rw [checked_of_not_fits fits]
    exact List.forall_mem_nil _

theorem within_flatMap {f : α → Traced (List β)} {list : List α}
    (each : ∀ a ∈ list, Within property (f a)) : Within property (flatMap f list) := by
  induction list with
  | nil => exact within_pure _
  | cons a list ih =>
    obtain ⟨first, rest⟩ := List.forall_mem_cons.1 each
    rw [flatMap, within_bind, within_bind]
    exact ⟨first, ih rest, within_pure _⟩

end Traced

open Traced

/-- The year after the last one that has 32 bits. It is computed for one month only, which is the
    last one of that year. -/
def Word.yearBeyond : Word := ⟨.int32, 0x80000000⟩

section Calendar

variable {year months : Int} {month : Nat}

theorem within_tracedMonthLength (short : Word.Fits ⟨.int32, year⟩) (small : month < 256) :
    Within (fun word => word.Fits ∨ word = .yearBeyond) (tracedMonthLength year month) := by
  simp only [Word.Fits, Width.least, Width.greatest] at short
  simp only [tracedMonthLength]
  split
  case isTrue =>
    rw [within_bind, within_map, within_compute]
    refine ⟨?_, within_pure _⟩
    by_cases last : year = 0x7fffffff
    · right
      rw [last]
      rfl
    · left
      simp only [Word.Fits, Width.least, Width.greatest]
      omega
  case isFalse =>
    rw [within_bind, within_map, within_compute]
    refine ⟨Or.inl ?_, within_pure _⟩
    simp only [Word.Fits, Width.least, Width.greatest]
    omega

theorem within_tracedMonthDays (rule : Rule) (startDay : Nat) (short : Word.Fits ⟨.int32, year⟩)
    (small : month < 256) :
    Within (fun word => word.Fits ∨ word = .yearBeyond)
      (rule.tracedMonthDays startDay year month) := by
  simp only [Rule.tracedMonthDays]
  split
  · exact within_pure _
  · rw [within_bind]
    exact ⟨within_tracedMonthLength short small, within_pure _⟩

/-- The number of a later month is the only one in the arithmetic of months that a word may not
    hold. -/
theorem within_tracedAddMonths {property : Word → Prop} (fine : ∀ word, word.Fits → property word)
    (years : firstYear ≤ year ∧ year ≤ lastYear) (inYear : 1 ≤ month ∧ month ≤ 12)
    (later : 0 ≤ months ∧ months ≤ maxIndex)
    (holds : property ⟨.int64, monthNumber year month + months⟩) :
    Within property (tracedAddMonths year month months) := by
  simp only [firstYear, lastYear] at years
  have number : year * 12 + month - 1 + months = monthNumber year month + months := by
    simp only [monthNumber]
    omega
  have small : -0x400000 < monthNumber year month + months ∧
      monthNumber year month + months < maxIndex + 0x400000 := by
    simp only [monthNumber]
    omega
  have long {n : Int} (bounds : -0x8000000000000000 ≤ n ∧ n ≤ maxIndex) : property ⟨.int64, n⟩ :=
    fine _ bounds
  simp only [maxIndex] at small long
  simp only [tracedAddMonths, within_bind, within_compute, value_compute, number]
  refine ⟨long (by omega), long (by omega), long (by omega), holds, long (by omega),
    within_checked (fine _), ?_⟩
  split
  · simp only [within_bind, within_compute, value_compute]
    exact ⟨long (by omega), long (by omega), within_pure _⟩
  · exact within_pure _

end Calendar

theorem capIndex_mono {a b : Int} (le : a ≤ b) : capIndex a ≤ capIndex b := by
  simp only [capIndex]
  omega

/-- Cutting a number off changes nothing if the sum with a natural number is cut off as well. -/
theorem capIndex_add (index : Int) (n : Nat) :
    capIndex (capIndex index + n) = capIndex (index + n) := by
  simp only [capIndex]
  omega

namespace TracedPeriods

variable {traced : TracedPeriods} {property : Word → Prop} {wanted : Date → Bool}
  {start anchor date : Date} {interval count steps seen : Nat} {index : Int}

/-- A date that is found lies in the period in which the search begins, or in a later one. -/
theorem exists_le_of_mem_scan
    (found : date ∈ (traced.scan wanted interval steps (capIndex index)).value) :
    ∃ later, capIndex index ≤ later ∧ date ∈ (traced.candidates later).value := by
  induction steps generalizing index with
  | zero => cases found
  | succ steps ih =>
    rw [scan, value_bind] at found
    cases first : (traced.candidates (capIndex index)).value.find? wanted with
    | some earliest =>
      rw [first] at found
      cases found
      exact ⟨_, le_refl _, List.mem_of_find?_eq_some first⟩
    | none =>
      rw [first] at found
      dsimp only at found
      rw [capIndex_add] at found
      obtain ⟨later, le, member⟩ := ih found
      exact ⟨later, le_trans (capIndex_mono (by omega)) le, member⟩

/-- The words of a search are those of the periods that it visits. It visits none beyond the one in
    which it finds a date. -/
theorem within_scan
    (each : ∀ k < steps,
      (∀ date ∈ (traced.scan wanted interval steps (capIndex index)).value,
        ∃ later, capIndex (index + (k : Int) * interval) ≤ later ∧
          date ∈ (traced.candidates later).value) →
      Within property (traced.candidates (capIndex (index + (k : Int) * interval)))) :
    Within property (traced.scan wanted interval steps (capIndex index)) := by
  induction steps generalizing index with
  | zero => exact within_pure _
  | succ steps ih =>
    have first := each 0 (Nat.zero_lt_succ _)
    rw [Nat.cast_zero, zero_mul, add_zero] at first
    rw [scan, within_bind]
    refine ⟨first fun date => exists_le_of_mem_scan, ?_⟩
    cases found : (traced.candidates (capIndex index)).value.find? wanted with
    | some date => exact within_pure _
    | none =>
      dsimp only
      rw [capIndex_add]
      refine ih fun k less onlyLater => ?_
      have next := each (k + 1) (Nat.succ_lt_succ less)
      rw [← add_steps] at next
      refine next fun date member => onlyLater date ?_
      rw [scan, value_bind, found] at member
      dsimp only at member
      rwa [capIndex_add] at member

theorem mem_of_tally {dates : List Date}
    (found : (tally start anchor count dates seen).value = .error (some date)) : date ∈ dates := by
  induction dates generalizing seen with
  | nil => cases found
  | cons first dates ih =>
    rw [tally] at found
    split at found
    · exact List.mem_cons_of_mem _ (ih found)
    · split at found
      · cases found
      · split at found
        · cases found
          exact List.mem_cons_self
        · exact List.mem_cons_of_mem _ (ih found)

theorem within_tally {dates : List Date}
    (counting : ∀ n : Nat, 0 < n → n ≤ count → property ⟨.word32, n⟩) :
    Within property (tally start anchor count dates seen) := by
  induction dates generalizing seen with
  | nil => exact within_pure _
  | cons first dates ih =>
    rw [tally]
    split
    · exact ih
    · split
      · exact within_pure _
      · split
        · exact within_pure _
        · rw [within_bind, within_compute]
          exact ⟨counting (seen + 1) (by omega) (by omega), ih⟩

theorem exists_le_of_mem_scanCounted
    (found : date ∈ (traced.scanCounted start anchor interval count steps index seen).value) :
    ∃ later, index ≤ later ∧ date ∈ (traced.candidates later).value := by
  induction steps generalizing index seen with
  | zero => cases found
  | succ steps ih =>
    rw [scanCounted, value_bind, value_bind] at found
    cases ended : (tally start anchor count (traced.candidates index).value seen).value with
    | error result =>
      rw [ended] at found
      obtain rfl : result = some date := found
      exact ⟨index, le_refl _, mem_of_tally ended⟩
    | ok next =>
      rw [ended] at found
      obtain ⟨later, le, member⟩ := ih found
      exact ⟨later, by omega, member⟩

/-- The words of a search that counts are those of the periods that it visits, and the numbers of
    dates. -/
theorem within_scanCounted
    (counting : ∀ n : Nat, 0 < n → n ≤ count → property ⟨.word32, n⟩)
    (each : ∀ k < steps,
      (∀ date ∈ (traced.scanCounted start anchor interval count steps index seen).value,
        ∃ later, index + (k : Int) * interval ≤ later ∧
          date ∈ (traced.candidates later).value) →
      Within property (traced.candidates (index + (k : Int) * interval))) :
    Within property (traced.scanCounted start anchor interval count steps index seen) := by
  induction steps generalizing index seen with
  | zero => exact within_pure _
  | succ steps ih =>
    have first := each 0 (Nat.zero_lt_succ _)
    rw [Nat.cast_zero, zero_mul, add_zero] at first
    rw [scanCounted, within_bind, within_bind]
    refine ⟨first fun date => exists_le_of_mem_scanCounted, within_tally counting, ?_⟩
    cases ended : (tally start anchor count (traced.candidates index).value seen).value with
    | error result => exact within_pure _
    | ok next =>
      refine ih fun k less onlyLater => ?_
      have step := each (k + 1) (Nat.succ_lt_succ less)
      rw [← add_steps] at step
      refine step fun date member => onlyLater date ?_
      rwa [scanCounted, value_bind, value_bind, ended] at member

theorem within_roundUp (fine : ∀ word, word.Fits → property word) (positive : 0 < interval)
    (nonneg : 0 ≤ index) (small : index + interval ≤ maxIndex) :
    Within property (roundUp index interval) := by
  have beyond := Int.emod_nonneg index (b := interval) (by omega)
  have beyondLt := Int.emod_lt_of_pos index (b := interval) (by omega)
  have ahead := Int.emod_nonneg (interval - index % interval) (b := interval) (by omega)
  have aheadLt := Int.emod_lt_of_pos (interval - index % interval) (b := interval) (by omega)
  have long {n : Int} (bounds : 0 ≤ n ∧ n ≤ maxIndex) : property ⟨.int64, n⟩ := by
    refine fine _ ⟨?_, bounds.2⟩
    simp only [Width.least]
    omega
  simp only [roundUp, within_bind, within_compute, value_compute]
  exact ⟨long (by omega), long (by omega), long (by omega), long (by omega)⟩

/-- The words of a search are those of the place of the anchor, the numbers of dates, and those of
    the periods that are visited. No period is visited beyond the one in which a date is found. -/
theorem within_firstOnOrAfter? {limit : Nat} {count? : Option Nat}
    (fine : ∀ word, word.Fits → property word) (positive : 0 < interval)
    (small : max 0 (traced.indexOf anchor).value + interval < maxIndex)
    (current : Within property (traced.indexOf anchor))
    (counting : ∀ count ∈ count?, ∀ n : Nat, 0 < n → n ≤ count → property ⟨.word32, n⟩)
    (each : ∀ index : Int, (interval : Int) ∣ index → 0 ≤ index →
      Visits interval limit count? (max 0 (traced.indexOf anchor).value) index →
      (∀ date ∈ (traced.firstOnOrAfter? start anchor interval limit count?).value,
        ∃ later, capIndex index ≤ later ∧ date ∈ (traced.candidates later).value) →
      Within property (traced.candidates (capIndex index))) :
    Within property (traced.firstOnOrAfter? start anchor interval limit count?) := by
  have nonneg : 0 ≤ max 0 (traced.indexOf anchor).value := le_max_left _ _
  rw [firstOnOrAfter?, within_bind]
  refine ⟨current, ?_⟩
  cases count? with
  | none =>
    have bounds := roundUp_bounds (max 0 (traced.indexOf anchor).value) positive
    have capped : capIndex (Recurrence.roundUp (max 0 (traced.indexOf anchor).value) interval) =
        Recurrence.roundUp (max 0 (traced.indexOf anchor).value) interval := min_eq_left (by omega)
    dsimp only
    rw [within_bind, value_roundUp]
    refine ⟨within_roundUp fine positive nonneg (by omega), ?_⟩
    rw [← capped]
    refine within_scan fun k less onlyLater => ?_
    obtain ⟨⟨multiple, notBefore⟩, visits⟩ := (exists_lt_roundUp_add_iff positive).1 ⟨k, less, rfl⟩
    refine each _ multiple (by omega) visits fun date found => onlyLater date ?_
    rw [capped]
    exact found
  | some count =>
    refine within_scanCounted (counting count rfl) fun k less onlyLater => ?_
    rw [zero_add] at onlyLater ⊢
    have stretch : 0 ≤ (limit : Int) * interval := Int.mul_nonneg (by omega) (by omega)
    have step : 0 ≤ (k : Int) * interval := Int.mul_nonneg (by omega) (by omega)
    have last := (lt_steps_iff positive (by simp only [capIndex]; omega)).1 less
    have capped : capIndex ((k : Int) * interval) = k * interval := min_eq_left (by omega)
    obtain ⟨multiple, visits⟩ :=
      (exists_lt_steps_iff count positive nonneg step (by omega)).1 ⟨k, less, rfl⟩
    rw [← capped]
    refine each _ multiple step visits fun date found => ?_
    rw [capped]
    exact onlyLater date found

/-- A search that finds nothing shows the words of all periods that it visits. -/
theorem mem_words_scan {word : Word} {k : Nat}
    (nothing : (traced.scan wanted interval steps (capIndex index)).value = none) (less : k < steps)
    (member : word ∈ (traced.candidates (capIndex (index + (k : Int) * interval))).words) :
    word ∈ (traced.scan wanted interval steps (capIndex index)).words := by
  induction steps generalizing index k with
  | zero => exact absurd less (Nat.not_lt_zero k)
  | succ steps ih =>
    rw [scan, value_bind] at nothing
    rw [scan, mem_words_bind]
    cases found : (traced.candidates (capIndex index)).value.find? wanted with
    | some date =>
      rw [found] at nothing
      cases nothing
    | none =>
      rw [found] at nothing
      cases k with
      | zero =>
        rw [Nat.cast_zero, zero_mul, add_zero] at member
        exact Or.inl member
      | succ k =>
        rw [← add_steps] at member
        dsimp only at nothing ⊢
        rw [capIndex_add] at nothing ⊢
        exact Or.inr (ih nothing (by omega) member)

theorem fits_weeks_indexOf (origin date : Date) :
    Word.Fits ⟨.int32, (date.number - origin.number) / 7⟩ := by
  have apart := Date.fits_number_sub date origin
  simp only [Word.Fits, Width.least, Width.greatest] at *
  omega

theorem fits_years_indexOf (start date : Date) : Word.Fits ⟨.int32, date.year - start.year⟩ := by
  have bounds := And.intro start.year_bounds date.year_bounds
  simp only [firstYear, lastYear] at bounds
  simp only [Word.Fits, Width.least, Width.greatest]
  omega

section Frequencies

variable {rule : Rule} (fine : ∀ word, word.Fits → property word)

include fine

theorem within_weeks_indexOf (origin : Date) (days : List Weekday) (listed : List Int) :
    Within property ((weeks origin days listed).indexOf date) :=
  within_compute.2 (fine _ (Word.fits_int64 (fits_weeks_indexOf origin date)))

theorem within_weeks_candidates (origin : Date) (days : List Weekday) (listed : List Int) :
    Within property ((weeks origin days listed).candidates index) := by
  simp only [weeks]
  rw [within_bind]
  refine ⟨within_checked (fine _), ?_⟩
  split <;> exact within_pure _

theorem within_months_indexOf : Within property ((months rule start).indexOf date) := by
  have years := And.intro start.year_bounds date.year_bounds
  have inYear := And.intro start.month_bounds date.month_bounds
  simp only [firstYear, lastYear] at years
  have long {n : Int} (bounds : -0x80000000 ≤ n ∧ n ≤ 0x7fffffff) : property ⟨.int64, n⟩ :=
    fine _ (Word.fits_int64 bounds)
  simp only [months, within_bind, within_compute, value_compute]
  exact ⟨long (by omega), long (by omega), long (by omega), long (by omega)⟩

theorem within_months_candidates (bounds : 0 ≤ index ∧ index ≤ maxIndex)
    (holds : property ⟨.int64, start.monthNumber + index⟩)
    (days : ∀ (year : Int) (month : Nat), Word.Fits ⟨.int32, year⟩ → month < 256 →
      Within property (rule.tracedMonthDays start.day year month)) :
    Within property ((months rule start).candidates index) := by
  simp only [months]
  rw [within_bind, value_tracedAddMonths]
  refine ⟨within_tracedAddMonths fine start.year_bounds start.month_bounds bounds holds, ?_⟩
  by_cases fits : Word.Fits ⟨.int32, (monthNumber start.year start.month + index) / 12⟩
  · rw [if_pos fits]
    dsimp only
    split
    · exact within_map.2 (days _ _ fits (by omega))
    · exact within_pure _
  · rw [if_neg fits]
    exact within_pure _

theorem within_years_indexOf : Within property ((years rule start).indexOf date) :=
  within_compute.2 (fine _ (Word.fits_int64 (fits_years_indexOf start date)))

theorem within_years_candidates
    (days : ∀ (year : Int) (month : Nat), Word.Fits ⟨.int32, year⟩ → month < 256 →
      Within property (rule.tracedMonthDays start.day year month)) :
    Within property ((years rule start).candidates index) := by
  have sum : Within property (tracedAddYears start.year index) := by
    rw [tracedAddYears, within_bind]
    refine ⟨within_checked (fine _), ?_⟩
    split
    · exact within_checked (fine _)
    · exact within_pure _
  simp only [years]
  rw [within_bind, value_tracedAddYears]
  refine ⟨sum, ?_⟩
  by_cases fits : Word.Fits ⟨.int32, start.year + index⟩
  · rw [if_pos fits]
    dsimp only
    split
    · exact within_pure _
    · refine within_map.2 (within_flatMap fun month listed => days _ _ fits ?_)
      exact List.mem_range.1 (List.mem_filter.1 listed).1
  · rw [if_neg fits]
    exact within_pure _

end Frequencies

/-- In each period, a monthly search computes the number of the month. -/
theorem mem_words_months_candidates (rule : Rule) (start : Date) (index : Int) :
    ⟨.int64, start.monthNumber + index⟩ ∈ ((months rule start).candidates index).words := by
  have number : start.monthNumber + index = start.year * 12 + start.month - 1 + index := by
    simp only [Date.monthNumber, monthNumber]
    omega
  rw [number]
  simp only [months]
  rw [mem_words_bind]
  left
  simp only [tracedAddMonths, mem_words_bind, mem_words_compute, value_compute]
  tauto

end TracedPeriods

end Recurrence
