import Recurrence.Proofs.CountedSearch
import Recurrence.Proofs.WordBounds

/-!
# When a search overruns its machine words

Numbers of periods are cut off at the greatest one of 64 bits. A monthly search adds the number of
the month in which the event starts after that, and so it may get to a month whose number has more
bits. It gets there only if it finds nothing, and after so many intervals that their number of
months hardly has 64 bits.

## Main definitions

- `Rule.searchWords` — the words of a search
- `Rule.Overruns` — a monthly search gets beyond the months whose numbers have 64 bits

## Main statements

- `Rule.searchWords_fit` — the words hold their numbers unless the search overruns
- `Rule.not_overruns_of_le`, `Rule.overruns_of_far` — when it does not and when it does
-/

namespace Recurrence

open Traced

/-- The months of the calendar have numbers far within 64 bits. -/
theorem Date.monthNumber_bounds (date : Date) :
    -0x400000 ≤ date.monthNumber ∧ date.monthNumber ≤ 0x400000 := by
  have years := date.year_bounds
  have inYear := date.month_bounds
  simp only [firstYear, lastYear] at years
  simp only [monthNumber, Recurrence.monthNumber]
  omega

namespace Rule

variable {rule : Rule} {settings : Settings} {start anchor date : Date} {context : Context}

/-- The words of a search. -/
def searchWords (rule : Rule) (context : Context) (settings : Settings) : List Word :=
  (rule.tracedSearch context.start.date context.anchor.date settings).words

/-- A monthly search that finds nothing runs beyond the months whose numbers have 64 bits. -/
def Overruns (rule : Rule) (context : Context) (settings : Settings) : Prop :=
  rule.frequency = .monthly ∧
    rule.search? context.start.date context.anchor.date settings = none ∧
      ∃ index : Int, (rule.interval : Int) ∣ index ∧
        Visits rule.interval settings.maxPeriods.toNat (rule.count?.map UInt32.toNat)
            (rule.distance context.start.date context.anchor.date) index ∧
          maxIndex < context.start.date.monthNumber + capIndex index

theorem interval_lt (rule : Rule) : rule.interval < 0x100000000 := by
  simp only [interval]
  cases rule.interval? with
  | none => decide
  | some interval =>
    have bound := interval.toNat_lt_size
    simp only [UInt32.size] at bound
    simp only [Option.map_some, Option.getD_some]
    omega

theorem fits_of_le_count {count : Nat} (given : count ∈ rule.count?.map UInt32.toNat) {n : Nat}
    (le : n ≤ count) : Word.Fits ⟨.word32, n⟩ := by
  obtain ⟨number, -, rfl⟩ := Option.map_eq_some_iff.1 given
  have bound := number.toNat_lt_size
  simp only [UInt32.size] at bound
  simp only [Word.Fits, Width.least, Width.greatest]
  omega

/-- A monthly search finds a date in the month that has its number. -/
theorem monthNumber_of_mem_candidates (monthly : rule.frequency = .monthly) {index : Int}
    (nonneg : 0 ≤ index)
    (member : date ∈ ((TracedPeriods.months rule start).candidates index).value) :
    date.monthNumber = start.monthNumber + index := by
  change date ∈ (TracedPeriods.months rule start).periods.candidates index at member
  rw [TracedPeriods.periods_months, (months_enumerates monthly).mem_candidates_iff nonneg] at member
  have holds := member.2
  simp only [Periods.months] at holds
  omega

theorem tracedSearch_of_monthly (monthly : rule.frequency = .monthly) :
    rule.tracedSearch start anchor settings =
      (TracedPeriods.months rule start).firstOnOrAfter? start anchor rule.interval
        settings.maxPeriods.toNat (rule.count?.map UInt32.toNat) := by
  have notWeekly : ¬rule.EveryWeek := by
    rintro ⟨weekly, -⟩
    rw [monthly] at weekly
    cases weekly
  rw [tracedSearch, if_neg notWeekly, tracedPeriods?, monthly]

section Words

variable {property : Word → Prop} (fine : ∀ word, word.Fits → property word)
  (days : ∀ (year : Int) (month : Nat), Word.Fits ⟨.int32, year⟩ → month < 256 →
    Within property (rule.tracedMonthDays start.day year month))

include fine days

/-- Of the words of a monthly search, only the number of a month may be too great, and it is not if
    a date is found in that month or later. -/
theorem within_tracedSearch_of_monthly (monthly : rule.frequency = .monthly) (le : start ≤ anchor)
    (holds : ∀ index : Int, (rule.interval : Int) ∣ index → 0 ≤ index →
      Visits rule.interval settings.maxPeriods.toNat (rule.count?.map UInt32.toNat)
        (rule.distance start anchor) index →
      (∀ date ∈ rule.search? start anchor settings,
        start.monthNumber + capIndex index ≤ date.monthNumber) →
      property ⟨.int64, start.monthNumber + capIndex index⟩) :
    Within property (rule.tracedSearch start anchor settings) := by
  have interval := rule.interval_lt
  have near := rule.distance_lt start anchor
  have notBefore := Date.monthNumber_mono le
  have place := TracedPeriods.value_months_indexOf rule start anchor
  rw [← distance_of_monthly start anchor monthly] at place
  have current : max 0 (rule.distance start anchor) = rule.distance start anchor := by
    rw [distance_of_monthly start anchor monthly]
    omega
  have search := rule.value_tracedSearch start anchor settings
  rw [tracedSearch_of_monthly monthly] at search ⊢
  refine TracedPeriods.within_firstOnOrAfter? fine rule.interval_pos
    (by simp only [maxIndex]; omega) (TracedPeriods.within_months_indexOf fine)
    (fun count given n _ le => fine _ (fits_of_le_count given le))
    fun index multiple nonneg visits onlyLater => ?_
  rw [place, current] at visits
  have cut : 0 ≤ capIndex index ∧ capIndex index ≤ maxIndex := by
    simp only [capIndex, maxIndex]
    omega
  refine TracedPeriods.within_months_candidates fine cut
    (holds index multiple nonneg visits fun date found => ?_) days
  rw [← search] at found
  obtain ⟨later, after, member⟩ := onlyLater date found
  rw [monthNumber_of_mem_candidates monthly (by omega) member]
  omega

/-- All words of a weekly or yearly search hold their numbers, as far as those for the days of a
    month do. -/
theorem within_tracedSearch_of_not_monthly (other : rule.frequency ≠ .monthly) :
    Within property (rule.tracedSearch start anchor settings) := by
  have interval := rule.interval_lt
  have counting : ∀ count ∈ rule.count?.map UInt32.toNat, ∀ n : Nat, 0 < n → n ≤ count →
      property ⟨.word32, n⟩ :=
    fun count given n _ le => fine _ (fits_of_le_count given le)
  rw [tracedSearch]
  split
  case isTrue => exact within_pure _
  case isFalse =>
    rw [tracedPeriods?]
    cases frequency : rule.frequency with
    | weekly =>
      dsimp only
      cases start.weekStart? rule.weekStart with
      | none => exact within_pure _
      | some origin =>
        have place : ((TracedPeriods.weeks origin (rule.weekdays start) rule.byMonth).indexOf
            anchor).value ≤ 0x7fffffff := (TracedPeriods.fits_weeks_indexOf origin anchor).2
        exact TracedPeriods.within_firstOnOrAfter? fine rule.interval_pos
          (by simp only [maxIndex]; omega) (TracedPeriods.within_weeks_indexOf fine origin _ _)
          counting fun _ _ _ _ _ => TracedPeriods.within_weeks_candidates fine origin _ _
    | monthly => exact absurd frequency other
    | yearly =>
      have place : ((TracedPeriods.years rule start).indexOf anchor).value ≤ 0x7fffffff :=
        (TracedPeriods.fits_years_indexOf start anchor).2
      exact TracedPeriods.within_firstOnOrAfter? fine rule.interval_pos
        (by simp only [maxIndex]; omega) (TracedPeriods.within_years_indexOf fine)
        counting fun _ _ _ _ _ => TracedPeriods.within_years_candidates fine days
    | _ => exact within_pure _

end Words

/-- Without a number of occurrences, a monthly search that finds nothing shows the words of each
    month that it gets to. -/
theorem mem_searchWords_of_visits (monthly : rule.frequency = .monthly)
    (uncounted : rule.count? = none)
    (nothing : rule.search? context.start.date context.anchor.date settings = none) {index : Int}
    (multiple : (rule.interval : Int) ∣ index)
    (later : rule.distance context.start.date context.anchor.date ≤ index)
    (visits : Visits rule.interval settings.maxPeriods.toNat none
      (rule.distance context.start.date context.anchor.date) index) {word : Word}
    (member : word ∈
      ((TracedPeriods.months rule context.start.date).candidates (capIndex index)).words) :
    word ∈ rule.searchWords context settings := by
  have positive := rule.interval_pos
  have interval := rule.interval_lt
  have near := rule.distance_lt context.start.date context.anchor.date
  have notBefore := Date.monthNumber_mono (DateTime.date_le_of_le context.start_le_anchor)
  have distance := distance_of_monthly context.start.date context.anchor.date monthly
  have current : max 0 (rule.distance context.start.date context.anchor.date) =
      rule.distance context.start.date context.anchor.date := by omega
  have first := roundUp_bounds (rule.distance context.start.date context.anchor.date) positive
  have capped : capIndex (roundUp (rule.distance context.start.date context.anchor.date)
      rule.interval) = roundUp (rule.distance context.start.date context.anchor.date)
        rule.interval := min_eq_left (by simp only [maxIndex]; omega)
  obtain ⟨k, less, rfl⟩ := (exists_lt_roundUp_add_iff positive).2 ⟨⟨multiple, later⟩, visits⟩
  rw [← value_tracedSearch, tracedSearch_of_monthly monthly, uncounted] at nothing
  rw [searchWords, tracedSearch_of_monthly monthly, uncounted]
  simp only [TracedPeriods.firstOnOrAfter?, Option.map_none, value_bind, mem_words_bind,
    TracedPeriods.value_months_indexOf, TracedPeriods.value_roundUp] at nothing ⊢
  rw [← distance, current, ← capped] at nothing ⊢
  exact Or.inr (Or.inr (TracedPeriods.mem_words_scan nothing less member))

/-- A search that overruns computes the number of a month that has more than 64 bits, unless it
    counts occurrences and stops with the last one. -/
theorem exists_unfit_of_overruns (uncounted : rule.count? = none)
    (overruns : rule.Overruns context settings) :
    ∃ word ∈ rule.searchWords context settings, ¬word.Fits ∧ word ≠ .yearBeyond := by
  obtain ⟨monthly, nothing, index, multiple, visits, beyond⟩ := overruns
  have small := context.start.date.monthNumber_bounds
  have near := rule.distance_lt context.start.date context.anchor.date
  have later : rule.distance context.start.date context.anchor.date ≤ index := by
    simp only [capIndex, maxIndex] at beyond
    omega
  rw [uncounted, Option.map_none] at visits
  refine ⟨⟨.int64, context.start.date.monthNumber + capIndex index⟩, ?_,
    fun fits => not_le_of_gt beyond fits.2, by rintro ⟨⟩⟩
  exact mem_searchWords_of_visits monthly uncounted nothing multiple later visits
    (TracedPeriods.mem_words_months_candidates _ _ _)

/-- A search does not overrun if as many intervals as it visits, counted from the anchor, end in a
    month whose number has 64 bits. -/
theorem not_overruns_of_le
    (reached : context.anchor.date.monthNumber + settings.maxPeriods.toNat * rule.interval ≤
      maxIndex) : ¬rule.Overruns context settings := by
  rintro ⟨monthly, -, index, multiple, visits, beyond⟩
  have le := visits.index_le rule.interval_pos multiple
  rw [distance_of_monthly _ _ monthly] at le
  simp only [capIndex] at beyond
  omega

/-- The search shows the words of what is computed. Each of them holds its number unless the search
    overruns, the year after the last one that has 32 bits excepted; and without a number of
    occurrences some word does not if it does. -/
theorem searchWords_fit (rule : Rule) (context : Context) (settings : Settings) :
    (rule.tracedSearch context.start.date context.anchor.date settings).value =
        rule.search? context.start.date context.anchor.date settings ∧
      (¬rule.Overruns context settings →
        ∀ word ∈ rule.searchWords context settings, word.Fits ∨ word = .yearBeyond) ∧
      (rule.count? = none → rule.Overruns context settings →
        ∃ word ∈ rule.searchWords context settings, ¬word.Fits ∧ word ≠ .yearBeyond) := by
  refine ⟨rule.value_tracedSearch _ _ _, fun within => ?_, exists_unfit_of_overruns⟩
  have fine : ∀ word : Word, word.Fits → word.Fits ∨ word = .yearBeyond := fun _ fits => Or.inl fits
  have days : ∀ (year : Int) (month : Nat), Word.Fits ⟨.int32, year⟩ → month < 256 →
      Within (fun word => word.Fits ∨ word = .yearBeyond)
        (rule.tracedMonthDays context.start.date.day year month) :=
    fun _ _ short small => within_tracedMonthDays rule _ short small
  by_cases monthly : rule.frequency = .monthly
  · refine within_tracedSearch_of_monthly fine days monthly
      (DateTime.date_le_of_le context.start_le_anchor)
      fun index multiple nonneg visits notBefore => Or.inl ?_
    have small := context.start.date.monthNumber_bounds
    refine ⟨by simp only [Width.least, capIndex, maxIndex]; omega, ?_⟩
    by_contra beyond
    rw [not_le] at beyond
    cases found : rule.search? context.start.date context.anchor.date settings with
    | none => exact within ⟨monthly, found, index, multiple, visits, beyond⟩
    | some date =>
      have early := notBefore date found
      have bounds := date.monthNumber_bounds
      simp only [Width.greatest, maxIndex] at beyond
      omega
  · exact within_tracedSearch_of_not_monthly fine days monthly

/-- With the default settings, every 4294967295th month from January 2018 on can be searched. -/
theorem searchWords_fit_of_greatest_interval :
    ∃ start ∈ Date.ofYmd? 2018 1 15, ∃ now ∈ Date.ofYmd? 2018 2 15,
      ∀ word ∈ Rule.searchWords { frequency := .monthly, interval? := some 4294967295 }
        ⟨.atMidnight start, .atMidnight now⟩ {}, word.Fits ∨ word = .yearBeyond := by
  refine ⟨_, rfl, _, rfl, (searchWords_fit _ _ _).2.1 (not_overruns_of_le ?_)⟩
  decide +kernel

/-- A rule for months whose interval is greater than the calendar finds nothing after the month of
    the event start. -/
theorem search?_eq_none_of_far (monthly : rule.frequency = .monthly)
    (resolved : rule.unsupported? = none) (far : 0x80000000 ≤ rule.interval) (le : start ≤ anchor)
    (after : start.monthNumber < anchor.monthNumber) :
    rule.search? start anchor settings = none := by
  rw [Option.eq_none_iff_forall_ne_some]
  intro date found
  have begins := begins_of_search?_eq_some found
  obtain ⟨⟨⟨occurs, notBefore⟩, -⟩, -⟩ := (search?_eq_some_iff resolved begins le).1 found
  have distance := distance_of_monthly start date monthly
  have near := rule.distance_lt start date
  have later := Date.monthNumber_mono notBefore
  have divides := Int.le_of_dvd (by omega) occurs.interval_dvd
  omega

/-- So it overruns, if its search goes through so many intervals that 64 bits do not hold them. -/
theorem overruns_of_far (monthly : rule.frequency = .monthly) (uncounted : rule.count? = none)
    (resolved : rule.unsupported? = none) (far : 0x80000000 ≤ rule.interval)
    (started : 0 < context.start.date.monthNumber)
    (after : context.start.date.monthNumber < context.anchor.date.monthNumber)
    (beyond : maxIndex < settings.maxPeriods.toNat * rule.interval) :
    rule.Overruns context settings := by
  have positive := rule.interval_pos
  have le := DateTime.date_le_of_le context.start_le_anchor
  have near := rule.distance_lt context.start.date context.anchor.date
  have distance := distance_of_monthly context.start.date context.anchor.date monthly
  have bounds := roundUp_bounds (rule.distance context.start.date context.anchor.date) positive
  have first := Int.le_of_dvd (by omega)
    (dvd_roundUp (rule.distance context.start.date context.anchor.date) rule.interval)
  refine ⟨monthly, search?_eq_none_of_far monthly resolved far le after,
    settings.maxPeriods.toNat * rule.interval, Int.dvd_mul_left _ _, ?_, ?_⟩
  · have later : rule.distance context.start.date context.anchor.date ≤
        settings.maxPeriods.toNat * rule.interval := by
      simp only [maxIndex] at beyond
      omega
    obtain ⟨k, reached⟩ :=
      (exists_roundUp_add_iff positive).2 ⟨Int.dvd_mul_left _ _, later⟩
    have less : k < settings.maxPeriods.toNat := by
      by_contra notLess
      have : (settings.maxPeriods.toNat : Int) * rule.interval ≤ k * rule.interval :=
        Int.mul_le_mul_of_nonneg_right (by omega) (by omega)
      omega
    rw [uncounted]
    exact ((exists_lt_roundUp_add_iff positive).1 ⟨k, less, reached⟩).2
  · simp only [capIndex]
    omega

/-- After 2147483649 of these intervals, the number of the month has more than 64 bits. The year
    after the last one that has 32 bits does not come up. -/
theorem searchWords_unfit_of_greatest_interval :
    ∃ start ∈ Date.ofYmd? 2018 1 15, ∃ now ∈ Date.ofYmd? 2018 2 15,
      (∃ word ∈ Rule.searchWords { frequency := .monthly, interval? := some 4294967295 }
        ⟨.atMidnight start, .atMidnight now⟩ { maxPeriods := 2147483649 }, ¬word.Fits) ∧
      .yearBeyond ∉ Rule.searchWords { frequency := .monthly, interval? := some 4294967295 }
        ⟨.atMidnight start, .atMidnight now⟩ { maxPeriods := 2147483649 } := by
  refine ⟨_, rfl, _, rfl, ?_, fun computed => ?_⟩
  · refine (exists_unfit_of_overruns rfl (overruns_of_far rfl rfl rfl ?far ?started ?after
      ?beyond)).imp fun word found => ⟨found.1, found.2.1⟩
    case far => decide
    case started => decide +kernel
    case after => decide +kernel
    case beyond => decide
  · have fine : ∀ word : Word, word.Fits → word ≠ .yearBeyond := by
      rintro word fits rfl
      exact absurd fits (by decide)
    refine within_tracedSearch_of_monthly fine (fun year month _ _ => ?_) rfl
      (DateTime.date_le_of_le (Context.start_le_anchor _)) (fun _ _ _ _ _ => nofun) _ computed rfl
    rw [tracedMonthDays, if_pos ⟨rfl, rfl⟩]
    exact within_pure _

end Rule

end Recurrence
