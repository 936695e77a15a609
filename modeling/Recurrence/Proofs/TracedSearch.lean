import Mathlib.Data.List.Sort
import Recurrence.Proofs.EveryWeek
import Recurrence.Proofs.NextDate

/-!
# Searching with machine words

Numbers of periods, months and years have no bound in the definition of the search; a program
computes them in machine words. Here the search is written once more, so that it shows every number
that such a program computes on the way. It finds the same date.

## Main definitions

- `Width`, `Word` — the machine types, and a number that is computed for one of them
- `Traced` — a computation that shows the words that it computes
- `TracedPeriods` — periods whose functions show their words
- `Rule.tracedSearch` — the search

## Main statements

- `Rule.value_tracedSearch` — the search finds the same date whether or not it shows its words

## Design notes

Where a number is cut off at the greatest one of its type, no word is shown, as nothing can go
wrong. A number that is checked shows its word if the check succeeds. Arithmetic on dates is no
arithmetic of the search: it is bounded by the calendar.
-/

namespace Recurrence

/-- The machine types of numbers: signed ones of 32 and of 64 bits, and an unsigned one. -/
inductive Width where
  | int32
  | int64
  | word32
  deriving DecidableEq

namespace Width

/-- The least number of a machine type. -/
def least : Width → Int
  | int32 => -0x80000000
  | int64 => -0x8000000000000000
  | word32 => 0

/-- The greatest number of a machine type. -/
def greatest : Width → Int
  | int32 => 0x7fffffff
  | int64 => maxIndex
  | word32 => 0xffffffff

end Width

/-- A number that is computed for a machine type. -/
structure Word where
  width : Width
  value : Int
  deriving DecidableEq

/-- The machine type holds the number. -/
def Word.Fits (word : Word) : Prop :=
  word.width.least ≤ word.value ∧ word.value ≤ word.width.greatest

instance (word : Word) : Decidable word.Fits :=
  inferInstanceAs (Decidable (_ ∧ _))

/-- A number that has 32 bits has 64 bits. -/
theorem Word.fits_int64 {n : Int} (short : Fits ⟨.int32, n⟩) : Fits ⟨.int64, n⟩ := by
  simp only [Fits, Width.least, Width.greatest, maxIndex] at *
  omega

/-- A result together with the words that are computed on the way to it. -/
structure Traced (α : Type) where
  value : α
  words : List Word

namespace Traced

instance : Monad Traced where
  pure a := ⟨a, []⟩
  bind x f := ⟨(f x.value).value, x.words ++ (f x.value).words⟩

/-- A number that is computed for a machine type. -/
def compute (width : Width) (n : Int) : Traced Int :=
  ⟨n, [⟨width, n⟩]⟩

/-- A number that is refused if the machine type does not hold it. -/
def checked (width : Width) (n : Int) : Traced (Option Int) :=
  if Word.Fits ⟨width, n⟩ then ⟨some n, [⟨width, n⟩]⟩ else ⟨none, []⟩

/-- The results for the elements of a list, one behind the other. -/
def flatMap {α β : Type} (f : α → Traced (List β)) : List α → Traced (List β)
  | [] => pure []
  | a :: list => do return (← f a) ++ (← flatMap f list)

variable {α β : Type}

@[simp] theorem value_pure (a : α) : (pure a : Traced α).value = a := rfl

@[simp] theorem value_bind (x : Traced α) (f : α → Traced β) :
    (x >>= f).value = (f x.value).value := rfl

@[simp] theorem value_map (x : Traced α) (f : α → β) : (f <$> x).value = f x.value := rfl

@[simp] theorem value_compute (width : Width) (n : Int) : (compute width n).value = n := rfl

theorem checked_of_fits {width : Width} {n : Int} (fits : Word.Fits ⟨width, n⟩) :
    checked width n = ⟨some n, [⟨width, n⟩]⟩ :=
  if_pos fits

theorem checked_of_not_fits {width : Width} {n : Int} (unfit : ¬Word.Fits ⟨width, n⟩) :
    checked width n = ⟨none, []⟩ :=
  if_neg unfit

@[simp] theorem value_flatMap (f : α → Traced (List β)) (list : List α) :
    (flatMap f list).value = list.flatMap fun a => (f a).value := by
  induction list with
  | nil => rfl
  | cons a list ih => simp [flatMap, ih]

end Traced

open Traced

section Calendar

/-- The length of a month, from the day before the first one of the next month. -/
def tracedMonthLength (year : Int) (month : Nat) : Traced Nat := do
  let next ←
    if month = 12 then (Date.ofYmd? · 1 1) <$> compute .int32 (year + 1)
    else (Date.ofYmd? year ·.toNat 1) <$> compute .word32 (month + 1)
  return (next.bind (·.addDays? (-1))).elim 31 Date.day

/-- The year and the month that are some months later, if the year has 32 bits. -/
def tracedAddMonths (year : Int) (month : Nat) (months : Int) : Traced (Option (Int × Nat)) := do
  let january ← compute .int64 (year * 12)
  let next ← compute .int64 (january + month)
  let number ← compute .int64 (next - 1)
  let later ← compute .int64 (number + months)
  let some year ← checked .int32 (← compute .int64 (later / 12)) | return none
  let place ← compute .int64 (later % 12)
  return some (year, (← compute .int64 (place + 1)).toNat)

/-- The year that is some years later, if it has 32 bits. -/
def tracedAddYears (year years : Int) : Traced (Option Int) := do
  let some later ← checked .int64 (year + years) | return none
  checked .int32 later

/-- The days of a month that a rule picks. The length of the month is only needed for days counted
    from its end and for weekdays. -/
def Rule.tracedMonthDays (rule : Rule) (startDay : Nat) (year : Int) (month : Nat) :
    Traced (List Date) :=
  if rule.byMonthDay = [] ∧ rule.byDay = [] then
    return (Date.ofYmd? year month startDay).toList
  else do
    let length ← tracedMonthLength year month
    return (Date.ofYmd? year month 1).elim [] fun first =>
      (List.range' 1 length).filterMap fun day =>
        if rule.PicksDay startDay length day then
          (first.addDays? (day - 1)).filter fun date => rule.PicksWeekday length day date.weekday
        else none

section MonthLength

variable {year : Int} {month : Nat} {first next : Date}

theorem Date.number_next_month (found : Date.ofYmd? year month 1 = some first)
    (isNext : Date.ofYmd? year (month + 1) 1 = some next) :
    next.number = first.number + monthLength year month := by
  obtain ⟨firstYear, firstMonth, firstDay⟩ := ofYmd?_eq_some_iff.1 found
  obtain ⟨nextYear, nextMonth, nextDay⟩ := ofYmd?_eq_some_iff.1 isNext
  have number := first.number_eq
  have nextNumber := next.number_eq
  have monthEnd := daysBeforeMonth_add_one year month
  rw [firstYear, firstMonth, firstDay] at number
  rw [nextYear, nextMonth, nextDay] at nextNumber
  omega

theorem Date.number_next_january (found : Date.ofYmd? year 12 1 = some first)
    (isNext : Date.ofYmd? (year + 1) 1 1 = some next) :
    next.number = first.number + monthLength year 12 := by
  obtain ⟨firstYear, firstMonth, firstDay⟩ := ofYmd?_eq_some_iff.1 found
  obtain ⟨nextYear, nextMonth, nextDay⟩ := ofYmd?_eq_some_iff.1 isNext
  have number := first.number_eq
  have nextNumber := next.number_eq
  have monthEnd : daysBeforeMonth year 13 = _ := daysBeforeMonth_add_one year 12
  have twelve := daysBeforeMonth_thirteen year
  have yearEnd := daysBeforeYear_add_one year
  have newYear : daysBeforeMonth (year + 1) 1 = 0 := rfl
  rw [firstYear, firstMonth, firstDay] at number
  rw [nextYear, nextMonth, nextDay, newYear] at nextNumber
  omega

/-- The day before the first one of the next month is the last one of a month. -/
theorem Date.day_before_next (found : Date.ofYmd? year month 1 = some first)
    (number : next.number = first.number + monthLength year month) :
    (next.addDays? (-1)).elim 31 Date.day = monthLength year month := by
  have long := le_monthLength year ((ofYmd?_eq_some_iff.1 found).2.1 ▸ first.month_bounds)
  obtain ⟨last, isLast⟩ := exists_last_of_first found
  have reached := Date.addDays?_of_first found (show 1 ≤ monthLength year month ∧
    monthLength year month ≤ monthLength year month by omega)
  rw [isLast, Date.addDays?_eq_some_iff] at reached
  have before : next.addDays? (-1) = some last := by
    rw [Date.addDays?_eq_some_iff]
    omega
  rw [before, Option.elim_some, (Date.ofYmd?_eq_some_iff.1 isLast).2.2]

/-- A month that has a first day has the length that is found from the next month. -/
theorem value_tracedMonthLength (found : Date.ofYmd? year month 1 = some first) :
    (tracedMonthLength year month).value = monthLength year month := by
  simp only [tracedMonthLength]
  split
  case isTrue december =>
    subst december
    simp only [value_bind, value_map, value_compute, value_pure]
    cases isNext : Date.ofYmd? (year + 1) 1 1 with
    | none => rfl
    | some january => exact Date.day_before_next found (Date.number_next_january found isNext)
  case isFalse other =>
    obtain ⟨sameYear, sameMonth, -⟩ := Date.ofYmd?_eq_some_iff.1 found
    have inYear := first.month_bounds
    have long := le_monthLength year (show 1 ≤ month + 1 ∧ month + 1 ≤ 12 by omega)
    obtain ⟨next, isNext⟩ : ∃ next, Date.ofYmd? year (month + 1) 1 = some next :=
      Date.exists_ofYmd? (sameYear ▸ first.year_bounds) (by omega)
    have following : ((month : Int) + 1).toNat = month + 1 := rfl
    simp only [value_bind, value_map, value_compute, value_pure]
    rw [following, isNext]
    exact Date.day_before_next found (Date.number_next_month found isNext)

end MonthLength

/-- Without days of the month and weekdays, a rule picks one day of a month, if the month has it. -/
theorem Rule.monthDays_of_no_days {rule : Rule} {startDay : Nat} {year : Int} {month : Nat}
    (noDay : rule.byMonthDay = []) (noWeekday : rule.byDay = []) :
    rule.monthDays startDay year month = (Date.ofYmd? year month startDay).toList := by
  refine List.Pairwise.eq_of_mem_iff Rule.monthDays_ascending ?_ fun date => ?_
  · cases Date.ofYmd? year month startDay <;> simp
  · rw [Rule.mem_monthDays_iff, Option.mem_toList, Date.ofYmd?_eq_some_iff]
    simp only [Rule.PicksInMonth, noDay, noWeekday, true_or]
    tauto

theorem value_tracedMonthDays (rule : Rule) (startDay : Nat) (year : Int) (month : Nat) :
    (rule.tracedMonthDays startDay year month).value = rule.monthDays startDay year month := by
  simp only [Rule.tracedMonthDays]
  split
  case isTrue neither => exact (Rule.monthDays_of_no_days neither.1 neither.2).symm
  case isFalse =>
    simp only [value_bind, value_pure, Rule.monthDays]
    cases found : Date.ofYmd? year month 1 with
    | none => rfl
    | some first =>
      rw [value_tracedMonthLength found]
      rfl

/-- A year or a month that the calendar does not have contributes no days. -/
theorem Rule.monthDays_eq_nil {rule : Rule} {startDay : Nat} {year : Int} {month : Nat}
    (outside : ¬((firstYear ≤ year ∧ year ≤ lastYear) ∧ 1 ≤ month ∧ month ≤ 12)) :
    rule.monthDays startDay year month = [] := by
  rw [List.eq_nil_iff_forall_not_mem]
  intro date member
  obtain ⟨⟨rfl, rfl⟩, -⟩ := Rule.mem_monthDays_iff.1 member
  exact outside ⟨date.year_bounds, date.month_bounds⟩

/-- Of the numbers below 256, only those of the twelve months contribute days. -/
theorem Rule.flatMap_monthDays_range (rule : Rule) (startDay : Nat) (year : Int)
    (listed : Nat → Bool) :
    ((List.range 256).filter listed).flatMap (rule.monthDays startDay year) =
      ((List.range' 1 12).filter listed).flatMap (rule.monthDays startDay year) := by
  have range : List.range 256 = List.range' 0 1 ++ List.range' 1 12 ++ List.range' 13 243 := by
    rw [List.range_eq_range', List.range'_append_1, List.range'_append_1]
  have outside (first length : Nat)
      (none : ∀ month ∈ List.range' first length, ¬(1 ≤ month ∧ month ≤ 12)) :
      ((List.range' first length).filter listed).flatMap (rule.monthDays startDay year) = [] := by
    rw [List.flatMap_eq_nil_iff]
    intro month member
    exact monthDays_eq_nil fun inside => none month (List.mem_filter.1 member).1 inside.2
  have before := outside 0 1 (by decide)
  have after := outside 13 243 fun month member => by
    rw [List.mem_range'_1] at member
    omega
  rw [range, List.filter_append, List.filter_append, List.flatMap_append, List.flatMap_append,
    before, after, List.nil_append, List.append_nil]

theorem Position.select_nil {α : Type} (positions : List Int) :
    select positions ([] : List α) = [] :=
  List.sublist_nil.1 (select_sublist positions [])

/-- Any two dates are less than 32 bits of days apart. -/
theorem Date.fits_number_sub (a b : Date) : Word.Fits ⟨.int32, a.number - b.number⟩ := by
  have boundsOfA := And.intro a.first_le a.le_last
  have boundsOfB := And.intro b.first_le b.le_last
  have range : lastDayNumber - firstDayNumber < 0x80000000 := by decide
  simp only [Word.Fits, Width.least, Width.greatest]
  omega

theorem fits_of_calendar {year : Int} (years : firstYear ≤ year ∧ year ≤ lastYear) :
    Word.Fits ⟨.int32, year⟩ := by
  simp only [firstYear, lastYear] at years
  simp only [Word.Fits, Width.least, Width.greatest]
  omega

theorem value_tracedAddMonths (year : Int) (month : Nat) (months : Int) :
    (tracedAddMonths year month months).value =
      if Word.Fits ⟨.int32, (monthNumber year month + months) / 12⟩ then
        some ((monthNumber year month + months) / 12,
          ((monthNumber year month + months) % 12).toNat + 1)
      else none := by
  have number : year * 12 + month - 1 + months = monthNumber year month + months := by
    simp only [monthNumber]
    omega
  have place : ((monthNumber year month + months) % 12 + 1).toNat =
      ((monthNumber year month + months) % 12).toNat + 1 := by omega
  simp only [tracedAddMonths, value_bind, value_compute, number]
  by_cases fits : Word.Fits ⟨.int32, (monthNumber year month + months) / 12⟩
  · rw [if_pos fits, checked_of_fits fits]
    simp only [value_bind, value_compute, value_pure, place]
  · rw [if_neg fits, checked_of_not_fits fits]
    rfl

theorem value_tracedAddYears (year years : Int) :
    (tracedAddYears year years).value =
      if Word.Fits ⟨.int32, year + years⟩ then some (year + years) else none := by
  simp only [tracedAddYears, value_bind]
  by_cases short : Word.Fits ⟨.int32, year + years⟩
  · rw [if_pos short, checked_of_fits (Word.fits_int64 short)]
    exact congrArg value (checked_of_fits short)
  · rw [if_neg short]
    by_cases long : Word.Fits ⟨.int64, year + years⟩
    · rw [checked_of_fits long]
      exact congrArg value (checked_of_not_fits short)
    · rw [checked_of_not_fits long]
      rfl

end Calendar

/-- A division of time into numbered periods, with the words that are computed for it. -/
structure TracedPeriods where
  indexOf : Date → Traced Int
  candidates : Int → Traced (List Date)

namespace TracedPeriods

/-- The same periods without the words. -/
def periods (traced : TracedPeriods) : Periods where
  indexOf date := (traced.indexOf date).value
  candidates index := (traced.candidates index).value

/-- The weeks, of which number 0 begins on `origin`. -/
def weeks (origin : Date) (days : List Weekday) (months : List Int) : TracedPeriods where
  indexOf date := compute .int64 ((date.number - origin.number) / 7)
  candidates index := do
    let some _ ← checked .int64 (7 * index) | return []
    return (Periods.weeks origin days months).candidates index

/-- The months of `rule`, of which number 0 holds the date `start`. -/
def months (rule : Rule) (start : Date) : TracedPeriods where
  indexOf date := do
    let years ← compute .int64 (date.year - start.year)
    let months ← compute .int64 (years * 12)
    let months ← compute .int64 (months + date.month)
    compute .int64 (months - start.month)
  candidates index := do
    let some (year, month) ← tracedAddMonths start.year start.month index | return []
    if rule.byMonth = [] ∨ (month : Int) ∈ rule.byMonth then
      Position.select rule.byPosition <$> rule.tracedMonthDays start.day year month
    else return []

/-- The years of `rule`, of which number 0 holds the date `start`. A month that a rule lists is a
    number below 256, be there such a month or not. -/
def years (rule : Rule) (start : Date) : TracedPeriods where
  indexOf date := compute .int64 (date.year - start.year)
  candidates index := do
    let some year ← tracedAddYears start.year index | return []
    if rule.byMonth = [] then return (Date.ofYmd? year start.month start.day).toList
    else
      let months := (List.range 256).filter fun (month : Nat) => (month : Int) ∈ rule.byMonth
      Position.select rule.byPosition <$>
        Traced.flatMap (rule.tracedMonthDays start.day year) months

theorem periods_weeks (origin : Date) (days : List Weekday) (months : List Int) :
    (weeks origin days months).periods = .weeks origin days months := by
  have candidates (index : Int) : ((weeks origin days months).candidates index).value =
      (Periods.weeks origin days months).candidates index := by
    by_cases fits : Word.Fits ⟨.int64, 7 * index⟩
    · simp only [weeks, value_bind, checked_of_fits fits, value_pure]
    · -- a week that many days away would lie outside of the calendar
      have outside : origin.addDays? (7 * index) = none := by
        rw [Option.eq_none_iff_forall_ne_some]
        intro first found
        rw [Date.addDays?_eq_some_iff] at found
        have short := Date.fits_number_sub first origin
        rw [found, add_sub_cancel_left] at short
        exact fits (Word.fits_int64 short)
      simp only [weeks, value_bind, checked_of_not_fits fits, value_pure, Periods.weeks, outside]
  simp only [periods, candidates]
  rfl

theorem value_months_indexOf (rule : Rule) (start date : Date) :
    ((months rule start).indexOf date).value = date.monthNumber - start.monthNumber := by
  simp only [months, value_bind, value_compute, Date.monthNumber, monthNumber]
  omega

theorem periods_months (rule : Rule) (start : Date) :
    (months rule start).periods = .months rule start := by
  have candidates (index : Int) : ((months rule start).candidates index).value =
      (Periods.months rule start).candidates index := by
    have number : monthNumber start.year start.month = start.monthNumber := rfl
    simp only [months, Periods.months, value_bind, value_tracedAddMonths, number]
    by_cases fits : Word.Fits ⟨.int32, (start.monthNumber + index) / 12⟩
    · rw [if_pos fits]
      dsimp only
      split
      · rw [value_map, value_tracedMonthDays]
      · rfl
    · rw [if_neg fits, value_pure,
        Rule.monthDays_eq_nil fun inside => fits (fits_of_calendar inside.1),
        Position.select_nil, ite_self]
  simp only [periods, candidates, value_months_indexOf]
  rfl

theorem periods_years (rule : Rule) (start : Date) :
    (years rule start).periods = .years rule start := by
  have candidates (index : Int) : ((years rule start).candidates index).value =
      (Periods.years rule start).candidates index := by
    simp only [years, Periods.years, value_bind, value_tracedAddYears]
    by_cases fits : Word.Fits ⟨.int32, start.year + index⟩
    · rw [if_pos fits]
      dsimp only
      split
      · rfl
      · simp only [value_map, value_flatMap, value_tracedMonthDays]
        rw [Rule.flatMap_monthDays_range]
    · have outside : ¬(firstYear ≤ start.year + index ∧ start.year + index ≤ lastYear) :=
        fun years => fits (fits_of_calendar years)
      have noDate : Date.ofYmd? (start.year + index) start.month start.day = none := by
        rw [Option.eq_none_iff_forall_ne_some]
        intro date found
        rw [Date.ofYmd?_eq_some_iff] at found
        exact outside (found.1 ▸ date.year_bounds)
      have noDays (months : List Nat) :
          months.flatMap (rule.monthDays start.day (start.year + index)) = [] :=
        List.flatMap_eq_nil_iff.2 fun _ _ => Rule.monthDays_eq_nil fun inside => outside inside.1
      rw [if_neg fits, value_pure, noDate, noDays, Position.select_nil, Option.toList_none,
        ite_self]
  simp only [periods, candidates]
  rfl

variable (traced : TracedPeriods)

/-- The search through `steps` periods that lie `interval` apart and begin with the period
    `index`. -/
def scan (wanted : Date → Bool) (interval : Nat) : (steps : Nat) → (index : Int) →
    Traced (Option Date)
  | 0, _ => return none
  | steps + 1, index => do
    match (← traced.candidates index).find? wanted with
    | some date => return some date
    | none => scan wanted interval steps (capIndex (index + interval))

theorem value_scan (wanted : Date → Bool) (interval steps : Nat) (index : Int) :
    (traced.scan wanted interval steps index).value =
      traced.periods.scan wanted interval steps index := by
  induction steps generalizing index with
  | zero => rfl
  | succ steps ih =>
    simp only [scan, Periods.scan, periods, value_bind]
    cases (traced.candidates index).value.find? wanted with
    | some date => rfl
    | none => exact ih _

/-- Goes through the candidates of a period, of which those on or after `start` are counted. The
    search is over with a date on or after `anchor`, or with one that comes after the last one of
    `count`. Otherwise it goes on with the number of dates seen so far. -/
def tally (start anchor : Date) (count : Nat) : List Date → (seen : Nat) →
    Traced (Except (Option Date) Nat)
  | [], seen => return .ok seen
  | date :: dates, seen =>
    if date < start then tally start anchor count dates seen
    else if count ≤ seen then return .error none
    else if anchor ≤ date then return .error (some date)
    else do
      let seen ← compute .word32 (seen + 1)
      tally start anchor count dates seen.toNat

/-- The search that counts, through `steps` periods that lie `interval` apart and begin with the
    period `index`. -/
def scanCounted (start anchor : Date) (interval count : Nat) : (steps : Nat) → (index : Int) →
    (seen : Nat) → Traced (Option Date)
  | 0, _, _ => return none
  | steps + 1, index, seen => do
    match ← tally start anchor count (← traced.candidates index) seen with
    | .error result => return result
    | .ok seen => scanCounted start anchor interval count steps (index + interval) seen

/-- What a period leads to depends on its dates on or after `start`. -/
theorem value_tally (start anchor : Date) (count : Nat) (dates : List Date) {seen : Nat}
    (le : seen ≤ count) :
    (tally start anchor count dates seen).value =
      (((dates.filter (start ≤ ·)).take (count - seen)).find? (anchor ≤ ·)).elim
        (if count - seen < (dates.filter (start ≤ ·)).length then .error none
          else .ok (seen + (dates.filter (start ≤ ·)).length))
        fun date => .error (some date) := by
  induction dates generalizing seen with
  | nil => simp [tally]
  | cons date dates ih =>
    rw [tally]
    by_cases early : date < start
    · rw [if_pos early, ih le, List.filter_cons_of_neg (by simpa using early)]
    · rw [if_neg early, List.filter_cons_of_pos (by simpa using early)]
      by_cases spent : count ≤ seen
      · have none : count - seen = 0 := by omega
        rw [if_pos spent, none]
        simp
      · obtain ⟨left, remaining⟩ : ∃ left, count - seen = left + 1 := ⟨count - seen - 1, by omega⟩
        rw [if_neg spent, remaining, List.take_succ_cons, List.find?_cons]
        by_cases late : anchor ≤ date
        · simp [late]
        · have next : count - (seen + 1) = left := by omega
          have seenNext : seen + 1 + (dates.filter (start ≤ ·)).length =
              seen + ((dates.filter (start ≤ ·)).length + 1) := by omega
          simp [late, ih (show seen + 1 ≤ count by omega), next, seenNext]

/-- A search for no occurrences finds none. -/
theorem scanCounted_zero (periods : Periods) (start anchor : Date) (interval steps : Nat)
    (index : Int) : periods.scanCounted start anchor interval steps index 0 = none := by
  cases steps <;> simp [Periods.scanCounted]

/-- A search that goes on until it comes to one date too many finds what one finds that stops with
    the last date. -/
theorem value_scanCounted (start anchor : Date) (interval count steps : Nat) (index : Int)
    {seen : Nat} (le : seen ≤ count) :
    (traced.scanCounted start anchor interval count steps index seen).value =
      traced.periods.scanCounted start anchor interval steps index (count - seen) := by
  induction steps generalizing index seen with
  | zero => rfl
  | succ steps ih =>
    have candidates : traced.periods.candidates index = (traced.candidates index).value := rfl
    rw [scanCounted, Periods.scanCounted, value_bind, value_bind,
      value_tally start anchor count _ le, candidates]
    generalize (traced.candidates index).value.filter (start ≤ ·) = due
    cases (due.take (count - seen)).find? (anchor ≤ ·) with
    | some date => rfl
    | none =>
      rw [Option.elim_none]
      dsimp only
      by_cases spent : count - seen < due.length
      · rw [if_pos spent, if_pos (by omega)]
        rfl
      · rw [if_neg spent]
        dsimp only
        rw [ih _ (by omega)]
        by_cases last : count - seen ≤ due.length
        · have nothing : count - (seen + due.length) = 0 := by omega
          rw [if_pos last, nothing, scanCounted_zero]
        · have left : count - (seen + due.length) = count - seen - due.length := by omega
          rw [if_neg last, left]

/-- The first multiple of `interval` that is not below `index`. -/
def roundUp (index : Int) (interval : Nat) : Traced Int := do
  let beyond ← compute .int64 (index % interval)
  let missing ← compute .int64 (interval - beyond)
  let ahead ← compute .int64 (missing % interval)
  compute .int64 (index + ahead)

theorem value_roundUp (index : Int) (interval : Nat) :
    (roundUp index interval).value = Recurrence.roundUp index interval := rfl

/-- The first occurrence on or after `anchor`. -/
def firstOnOrAfter? (start anchor : Date) (interval limit : Nat) (count? : Option Nat) :
    Traced (Option Date) := do
  let current := max 0 (← traced.indexOf anchor)
  match count? with
  | none =>
    traced.scan (fun date => anchor ≤ date ∧ start ≤ date) interval limit
      (← roundUp current interval)
  | some count =>
    let last := capIndex (current + capIndex (limit * interval))
    let steps := (min last (maxIndex - 1) / interval).toNat + 1
    traced.scanCounted start anchor interval count steps 0 0

theorem value_firstOnOrAfter? (start anchor : Date) (interval limit : Nat)
    (count? : Option Nat) :
    (traced.firstOnOrAfter? start anchor interval limit count?).value =
      traced.periods.firstOnOrAfter? start anchor interval limit count? := by
  cases count? with
  | none => exact value_scan traced _ _ _ _
  | some count => exact value_scanCounted traced _ _ _ _ _ _ (Nat.zero_le count)

end TracedPeriods

namespace Rule

/-- The periods in which a rule repeats. -/
def tracedPeriods? (rule : Rule) (start : Date) : Option TracedPeriods :=
  match rule.frequency with
  | .weekly =>
    (start.weekStart? rule.weekStart).map fun origin =>
      .weeks origin (rule.weekdays start) rule.byMonth
  | .monthly => some (.months rule start)
  | .yearly => some (.years rule start)
  | _ => none

/-- The first occurrence on or after `anchor`, the end of the recurrence aside. -/
def tracedSearch (rule : Rule) (start anchor : Date) (settings : Settings) :
    Traced (Option Date) :=
  if rule.EveryWeek then return anchor.nearest? (rule.weekdays start)
  else
    match rule.tracedPeriods? start with
    | none => return none
    | some traced =>
      traced.firstOnOrAfter? start anchor rule.interval settings.maxPeriods.toNat
        (rule.count?.map UInt32.toNat)

theorem map_periods_tracedPeriods? (rule : Rule) (start : Date) :
    (rule.tracedPeriods? start).map TracedPeriods.periods = rule.periods? start := by
  simp only [tracedPeriods?, periods?]
  cases rule.frequency with
  | weekly =>
    simp only [Option.map_map]
    congr 1
    funext origin
    exact TracedPeriods.periods_weeks _ _ _
  | monthly => exact congrArg some (TracedPeriods.periods_months rule start)
  | yearly => exact congrArg some (TracedPeriods.periods_years rule start)
  | _ => rfl

/-- Showing the words does not change what is found. -/
theorem value_tracedSearch (rule : Rule) (start anchor : Date) (settings : Settings) :
    (rule.tracedSearch start anchor settings).value = rule.search? start anchor settings := by
  simp only [tracedSearch, search?]
  split
  case isTrue => rfl
  case isFalse =>
    rw [← map_periods_tracedPeriods?]
    cases rule.tracedPeriods? start with
    | none => rfl
    | some traced => exact traced.value_firstOnOrAfter? _ _ _ _ _

end Rule

end Recurrence
