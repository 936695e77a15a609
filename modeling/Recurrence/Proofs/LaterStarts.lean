import Recurrence.Proofs.EquivalentRules

/-!
# The phase of the interval

Periods are numbered from the one in which the event starts, so the start decides which of them an
interval leaves out. An event that starts some whole intervals later, on the same weekday, day of
the month or day of the year, has the same periods under other numbers. From then on the two
events recur on the same dates, and a search for the one gets as far as a search for the other.
-/

namespace Recurrence

/-- Numbers of periods may be counted from another multiple of the interval. -/
theorem visits_shift_iff {interval limit : Nat} {current index shift : Int}
    (whole : (interval : Int) ∣ shift) :
    Visits interval limit none (shift + current) (shift + index) ↔
      Visits interval limit none current index := by
  have shifted : {n : Int | (interval : Int) ∣ n ∧ shift + current ≤ n ∧ n ≤ shift + index} =
      (shift + ·) '' {n : Int | (interval : Int) ∣ n ∧ current ≤ n ∧ n ≤ index} := by
    ext n
    constructor
    · rintro ⟨divides, lower, upper⟩
      exact ⟨n - shift, ⟨dvd_sub divides whole, by omega, by omega⟩, add_sub_cancel shift n⟩
    · rintro ⟨m, ⟨divides, lower, upper⟩, rfl⟩
      exact ⟨dvd_add whole divides, Int.add_le_add_left lower shift,
        Int.add_le_add_left upper shift⟩
  rw [Visits, shifted, Set.ncard_image_of_injective _ (add_right_injective shift), Visits]

/-- Dates are ordered by their months and, within a month, by their days. -/
theorem Date.le_of_monthNumber_le {a b : Date} (months : a.monthNumber ≤ b.monthNumber)
    (days : a.day = b.day) : a ≤ b := by
  by_contra later
  have back := Date.monthNumber_mono (le_of_lt (not_le.1 later))
  have monthOfA := a.month_bounds
  have monthOfB := b.month_bounds
  have numberOfA := a.number_eq
  have same : a.year = b.year ∧ a.month = b.month := by
    simp only [Date.monthNumber, Recurrence.monthNumber] at months back
    omega
  rw [same.1, same.2, days, ← b.number_eq] at numberOfA
  exact later (Date.le_iff.2 (le_of_eq numberOfA))

/-- As a later date lies in no earlier week, the calendar holds the first day of its week too. -/
theorem Date.exists_weekStart?_of_le {start later : Date} {weekStart : Weekday} (le : start ≤ later)
    (weekBegins : ∃ first, start.weekStart? weekStart = some first) :
    ∃ first, later.weekStart? weekStart = some first := by
  obtain ⟨first, began⟩ := weekBegins
  have number := weekStart?_eq_some_iff.1 began
  have forward := weekNumber_mono weekStart le
  have notAfter : 7 * later.weekNumber weekStart + weekStart.index ≤ later.number := by
    simp only [weekNumber]
    omega
  obtain ⟨laterFirst, laterNumber⟩ := exists_of_between (a := first) (b := later)
    (n := 7 * later.weekNumber weekStart + weekStart.index) (by omega) notAfter
  exact ⟨laterFirst, weekStart?_eq_some_iff.2 laterNumber⟩

namespace Rule

variable {rule : Rule} {settings : Settings} {start later anchor date : Date} {k : Nat}

/-- The event start moved by `k` intervals: by whole weeks, or to the same day of a later month or
    year, if there is such a day. -/
def laterStart? (rule : Rule) (start : Date) (k : Nat) : Option Date :=
  match rule.frequency with
  | .weekly => start.addDays? (7 * (rule.interval * k : Nat))
  | .monthly =>
    let number := start.monthNumber + (rule.interval * k : Nat)
    Date.ofYmd? (number / 12) ((number % 12).toNat + 1) start.day
  | .yearly => Date.ofYmd? (start.year + (rule.interval * k : Nat)) start.month start.day
  | _ => none

theorem laterStart?_of_weekly (weekly : rule.frequency = .weekly) :
    rule.laterStart? start k = some later ↔
      later.number = start.number + 7 * (rule.interval * k : Nat) := by
  rw [laterStart?, weekly]
  exact Date.addDays?_eq_some_iff

theorem laterStart?_of_monthly (monthly : rule.frequency = .monthly) :
    rule.laterStart? start k = some later ↔
      later.monthNumber = start.monthNumber + (rule.interval * k : Nat) ∧
        later.day = start.day := by
  rw [laterStart?, monthly]
  simp only [Date.ofYmd?_eq_some_iff, ← and_assoc, Date.eq_div_iff_monthNumber_eq]

theorem laterStart?_of_yearly (yearly : rule.frequency = .yearly) :
    rule.laterStart? start k = some later ↔
      later.year = start.year + (rule.interval * k : Nat) ∧ later.month = start.month ∧
        later.day = start.day := by
  rw [laterStart?, yearly]
  exact Date.ofYmd?_eq_some_iff

/-- An event that starts on `later` has the periods of one that starts on `start`, from some
    multiple of the interval on, and the rule picks the same dates for both. -/
structure SamePhase (rule : Rule) (start later : Date) : Prop where
  le : start ≤ later
  interval_dvd : (rule.interval : Int) ∣ rule.distance start later
  picks_iff : ∀ date, rule.Picks later date ↔ rule.Picks start date

theorem samePhase_of_laterStart? (moved : rule.laterStart? start k = some later) :
    rule.SamePhase start later := by
  have whole : (rule.interval : Int) ∣ (rule.interval * k : Nat) :=
    Int.natCast_dvd_natCast.2 (Nat.dvd_mul_right _ _)
  cases frequency : rule.frequency with
  | weekly =>
    rw [laterStart?_of_weekly frequency] at moved
    have weekday : later.weekday = start.weekday := Date.weekday_eq_iff.2 (by omega)
    refine ⟨Date.le_iff.2 (by omega), ?_, fun date => ?_⟩
    · have apart : rule.distance start later = (rule.interval * k : Nat) := by
        rw [distance_of_weekly _ _ frequency, Date.weekNumber, Date.weekNumber, moved]
        omega
      rwa [apart]
    · rw [picks_of_weekly _ _ frequency, picks_of_weekly _ _ frequency, weekdays, weekdays, weekday]
  | monthly =>
    obtain ⟨month, day⟩ := (laterStart?_of_monthly frequency).1 moved
    refine ⟨Date.le_of_monthNumber_le (by omega) day.symm, ?_, fun date => ?_⟩
    · rwa [distance_of_monthly _ _ frequency, month, add_sub_cancel_left]
    · rw [picks_of_monthly _ _ frequency, picks_of_monthly _ _ frequency, day]
  | yearly =>
    obtain ⟨year, month, day⟩ := (laterStart?_of_yearly frequency).1 moved
    refine ⟨Date.le_of_monthNumber_le ?_ day.symm, ?_, fun date => ?_⟩
    · simp only [Date.monthNumber, monthNumber]
      omega
    · rwa [distance_of_yearly _ _ frequency, year, add_sub_cancel_left]
    · rw [picks_of_yearly _ _ frequency, picks_of_yearly _ _ frequency, month, day]
  | _ => simp [laterStart?, frequency] at moved

theorem distance_add (rule : Rule) (start later date : Date) :
    rule.distance start date = rule.distance start later + rule.distance later date := by
  simp only [distance]
  split <;> omega

namespace SamePhase

variable (phase : rule.SamePhase start later)

include phase

/-- The numbers of two periods differ by the same amount for both events, so that the same dates
    share a period. -/
theorem pickedWith_eq : rule.pickedWith later date = rule.pickedWith start date := by
  ext other
  have otherNumber := rule.distance_add start later other
  have number := rule.distance_add start later date
  simp only [pickedWith, Set.mem_ofPred_eq, phase.picks_iff]
  exact and_congr_right fun _ => by omega

theorem selects_iff : rule.Selects later date ↔ rule.Selects start date := by
  rw [Selects, Selects, phase.picks_iff, phase.pickedWith_eq]

/-- From the later start on, both events recur on the same dates. -/
theorem occurs_iff (started : later ≤ date) : rule.Occurs later date ↔ rule.Occurs start date := by
  have divides : (rule.interval : Int) ∣ rule.distance later date ↔
      (rule.interval : Int) ∣ rule.distance start date := by
    rw [rule.distance_add start later, Int.dvd_add_right phase.interval_dvd]
  constructor
  · intro occurs
    exact ⟨le_trans phase.le started, divides.1 occurs.interval_dvd,
      phase.selects_iff.1 occurs.selects⟩
  · intro occurs
    exact ⟨started, divides.2 occurs.interval_dvd, phase.selects_iff.2 occurs.selects⟩

/-- A search for one event gets as far as a search for the other. -/
theorem reaches_iff (uncounted : rule.count? = none) :
    rule.Reaches settings later anchor date ↔ rule.Reaches settings start anchor date := by
  rw [Reaches, Reaches, uncounted, Option.map_none, rule.distance_add start later anchor,
    rule.distance_add start later date, visits_shift_iff phase.interval_dvd]

end SamePhase

/-- At a moment after the later start, the same date is next for both events. -/
theorem SamePhase.isNext_iff {start later now : DateTime}
    (phase : rule.SamePhase start.date later.date) (uncounted : rule.count? = none)
    (started : later.date ≤ now.date) :
    rule.IsNext ⟨later, now⟩ settings date ↔ rule.IsNext ⟨start, now⟩ settings date := by
  have laterAnchor : (Context.mk later now).anchor.date = now.date := by
    rw [Context.anchor_date]
    exact max_eq_right started
  have anchor : (Context.mk start now).anchor.date = now.date := by
    rw [Context.anchor_date]
    exact max_eq_right (le_trans phase.le started)
  have sameDates : {other | rule.Occurs later.date other ∧ now.date ≤ other} =
      {other | rule.Occurs start.date other ∧ now.date ≤ other} := by
    ext other
    exact and_congr_left fun notBefore => phase.occurs_iff (le_trans started notBefore)
  constructor
  · rintro ⟨least, notEnded, clamped, -, reaches⟩
    rw [laterAnchor] at least reaches
    refine ⟨?_, notEnded, clamped, by simp [uncounted], ?_⟩
    · rw [anchor, ← sameDates]
      exact least
    · rw [anchor]
      exact (phase.reaches_iff uncounted).1 reaches
  · rintro ⟨least, notEnded, clamped, -, reaches⟩
    rw [anchor] at least reaches
    refine ⟨?_, notEnded, clamped, by simp [uncounted], ?_⟩
    · rw [laterAnchor, sameDates]
      exact least
    · rw [laterAnchor]
      exact (phase.reaches_iff uncounted).2 reaches

/-- An event start may be moved by whole intervals, to the same weekday, day of the month or day of
    the year. From then on the next occurrence is the same, however far the search goes. -/
theorem next_laterStart (uncounted : rule.count? = none) {start now : DateTime}
    (moved : rule.laterStart? start.date k = some later)
    (weekBegins : rule.frequency = .weekly →
      ∃ first, start.date.weekStart? rule.weekStart = some first)
    (notBefore : DateTime.mk later start.time ≤ now) (settings : Settings) :
    rule.next ⟨start, now⟩ settings = rule.next ⟨⟨later, start.time⟩, now⟩ settings := by
  have phase : rule.SamePhase start.date (DateTime.mk later start.time).date :=
    samePhase_of_laterStart? moved
  have started := DateTime.date_le_of_le notBefore
  apply next_eq_of_found_iff rfl
  intro date
  constructor
  · intro found
    have resolved := resolved_of_next found
    rw [next_eq_some_iff resolved, phase.isNext_iff uncounted started]
    refine ⟨?_, ((next_eq_some_iff resolved).1 found).2⟩
    exact begins_of_weekly_imp resolved fun weekly =>
      Date.exists_weekStart?_of_le phase.le (weekBegins weekly)
  · intro found
    have resolved := resolved_of_next found
    rw [next_eq_some_iff resolved, ← phase.isNext_iff uncounted started]
    exact ⟨begins_of_weekly_imp resolved weekBegins, ((next_eq_some_iff resolved).1 found).2⟩

/-- Every third week on Tuesday and Sunday, where weeks begin on Sunday. An event that starts on the
    Tuesday of the third of these weeks comes next on a Sunday, as one that started in the first. -/
theorem next_laterStart_every_third_week :
    ∃ later ∈ Date.ofYmd? 1997 9 16, ∃ now ∈ Date.ofYmd? 1997 9 17, ∃ date ∈ Date.ofYmd? 1997 10 5,
      Rule.next
          { frequency := .weekly
            interval? := some 3
            byDay := [⟨none, .tuesday⟩, ⟨none, .sunday⟩]
            weekStart? := some .sunday }
          ⟨.atMidnight later, .atMidnight now⟩ {} = .ok (some date) := by
  obtain ⟨start, august⟩ : ∃ start, start ∈ Date.ofYmd? 1997 8 5 := ⟨_, rfl⟩
  refine ⟨_, rfl, _, rfl, _, rfl, ?_⟩
  refine Eq.trans (@next_laterStart _ _ 2 ?uncounted (.atMidnight start) _ ?moved ?weekBegins
    ?notBefore _).symm ?found
  case uncounted => rfl
  case moved =>
    cases august
    rfl
  case weekBegins =>
    cases august
    exact fun _ => ⟨_, rfl⟩
  case notBefore =>
    cases august
    decide
  case found =>
    cases august
    rfl

end Rule

end Recurrence
