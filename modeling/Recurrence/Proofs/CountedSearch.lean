import Mathlib.Data.Set.Finite.Basic
import Recurrence.Proofs.Walk

/-!
# Searching with and without a number of occurrences

A search that counts occurrences goes through the periods from the event start on; a search that
does not begins at the anchor. Both find the same date or none, except that they do not stop at
the same period: if the period that holds the anchor is one of those that the rule visits, the
search that counts visits one more.

## Main definitions

- `Rule.setCount` — the rule with another number of occurrences, or without one
- `Rule.past` — the occurrences before a date
- `Settings.onePeriodMore` — the settings of a search that goes one period further

## Main statements

- `visits_some_iff` — how far a search that counts gets, in terms of one that does not
- `Rule.next_setCount` — what a number of occurrences does to the next occurrence
-/

namespace Recurrence

/-- The settings with one more period to search, if there is a greater number. -/
def Settings.onePeriodMore (settings : Settings) : Settings :=
  if settings.maxPeriods.toNat + 1 < UInt32.size then
    { settings with maxPeriods := settings.maxPeriods + 1 }
  else settings

theorem Settings.toNat_onePeriodMore (settings : Settings) :
    settings.onePeriodMore.maxPeriods.toNat =
      min (settings.maxPeriods.toNat + 1) (UInt32.size - 1) := by
  have bound : settings.maxPeriods.toNat < UInt32.size := settings.maxPeriods.toNat_lt_size
  simp only [onePeriodMore]
  split
  case isTrue greater =>
    have sum : (settings.maxPeriods + 1).toNat = (settings.maxPeriods.toNat + 1) % 2 ^ 32 :=
      UInt32.toNat_add _ _
    rw [sum]
    simp only [UInt32.size] at *
    omega
  case isFalse greatest => omega

theorem Settings.clampToUntil_onePeriodMore (settings : Settings) :
    settings.onePeriodMore.clampToUntil = settings.clampToUntil := by
  simp only [onePeriodMore]
  split <;> rfl

theorem roundUp_of_dvd {index : Int} {interval : Nat} (positive : 0 < interval)
    (divides : (interval : Int) ∣ index) : roundUp index interval = index := by
  have bounds := roundUp_bounds index positive
  have apart := dvd_sub (dvd_roundUp index interval) divides
  have := Int.eq_zero_of_dvd_of_nonneg_of_lt (by omega) (by omega) apart
  omega

/-- A search that counts gets as far as one that does not, and one period further if it visits
    the period in which the other one begins. -/
theorem visits_some_iff {interval limit : Nat} {current index : Int} (positive : 0 < interval)
    (count : Nat) (multiple : (interval : Int) ∣ index) (le : current ≤ index) :
    Visits interval limit (some count) current index ↔
      Visits interval (if (interval : Int) ∣ current then limit + 1 else limit) none current
        index := by
  obtain ⟨k, rfl⟩ := (exists_roundUp_add_iff positive).2 ⟨multiple, le⟩
  have bounds := roundUp_bounds current positive
  simp only [Visits]
  rw [ncard_multiples positive]
  by_cases begins : (interval : Int) ∣ current
  · rw [if_pos begins, roundUp_of_dvd positive begins]
    have scaled : (k : Int) * interval ≤ limit * interval ↔ (k : Int) ≤ limit :=
      Int.mul_le_mul_right (by omega)
    omega
  · rw [if_neg begins]
    -- the first period of the other search comes after the current one
    have later : roundUp current interval ≠ current := by
      intro same
      apply begins
      rw [← same]
      exact dvd_roundUp current interval
    constructor
    · intro visited
      by_contra notBefore
      have : (limit : Int) * interval ≤ k * interval :=
        Int.mul_le_mul_of_nonneg_right (by omega) (by omega)
      omega
    · intro before
      have : ((k : Int) + 1) * interval ≤ limit * interval :=
        Int.mul_le_mul_of_nonneg_right (by omega) (by omega)
      rw [add_mul] at this
      omega

/-- No search goes further than the calendar does. -/
theorem visits_none_of_le {interval limit : Nat} {current index : Int} (nonneg : 0 ≤ current)
    (le : index < limit) : Visits interval limit none current index := by
  have subset : {n : Int | (interval : Int) ∣ n ∧ current ≤ n ∧ n ≤ index} ⊆
      (Finset.Icc 0 index : Finset Int) := by
    intro n member
    simp only [Finset.coe_Icc, Set.mem_Icc]
    exact ⟨le_trans nonneg member.2.1, member.2.2⟩
  have bound := Set.ncard_le_ncard subset (Finset.finite_toSet _)
  rw [Set.ncard_coe_finset, Int.card_Icc] at bound
  simp only [Visits]
  omega

theorem visits_none_mono {interval limit further : Nat} {current index : Int}
    (le : limit ≤ further) (visits : Visits interval limit none current index) :
    Visits interval further none current index :=
  le_trans visits le

theorem Context.anchor_date_of_now_le {context : Context} (early : context.now ≤ context.start) :
    context.anchor.date = context.start.date := by
  rw [anchor_date]
  exact max_eq_left (DateTime.date_le_of_le early)

instance : Finite Date := by
  apply Finite.of_injective
    (fun date : Date => (⟨date.number, date.first_le, date.le_last⟩ :
      Set.Icc firstDayNumber lastDayNumber))
  intro a b same
  exact Date.ext (congrArg Subtype.val same)

namespace Rule

variable {rule : Rule} {settings : Settings} {start anchor date : Date} {context : Context}

/-- The rule with the number of occurrences replaced. -/
def setCount (rule : Rule) (count? : Option UInt32) : Rule :=
  { rule with count? }

/-- The occurrences of the event that come before a date. -/
def past (rule : Rule) (start anchor : Date) : Set Date :=
  {other | rule.Occurs start other ∧ other < anchor}

/-- If the event recurs at all from the anchor on, there is a first time. -/
theorem exists_isLeast_of_occurs (occurs : rule.Occurs start date) (notBefore : anchor ≤ date) :
    ∃ first, IsLeast {other | rule.Occurs start other ∧ anchor ≤ other} first := by
  obtain ⟨first, minimal⟩ := (Set.toFinite {other | rule.Occurs start other ∧
    anchor ≤ other}).exists_minimal ⟨date, occurs, notBefore⟩
  exact ⟨first, minimal_iff_isLeast.1 minimal⟩

/-- The dates of a recurrence do not depend on how many of them there are to be. -/
theorem occurs_setCount {count? : Option UInt32} :
    (rule.setCount count?).Occurs start date ↔ rule.Occurs start date := by
  constructor
  · intro occurs
    exact ⟨occurs.start_le, occurs.interval_dvd, occurs.selects⟩
  · intro occurs
    exact ⟨occurs.start_le, occurs.interval_dvd, occurs.selects⟩

theorem past_setCount (count? : Option UInt32) :
    (rule.setCount count?).past start anchor = rule.past start anchor := by
  ext other
  simp only [past, Set.mem_ofPred_eq, occurs_setCount]

theorem distance_lt (rule : Rule) (start date : Date) : rule.distance start date < 2 ^ 31 := by
  have yearOfDate := date.year_bounds
  have yearOfStart := start.year_bounds
  have monthOfDate := date.month_bounds
  have monthOfStart := start.month_bounds
  have numberOfDate := date.le_last
  have numberOfStart := start.first_le
  have range : lastDayNumber - firstDayNumber < 2 ^ 31 := by decide
  simp only [firstYear, lastYear] at yearOfDate yearOfStart
  simp only [distance, Date.weekNumber, Date.monthNumber, monthNumber]
  split <;> omega

/-- A search can begin, for a weekly rule if the calendar holds the first day of the week of the
    event start. -/
theorem begins_of_weekly_imp (resolved : rule.unsupported? = none)
    (weekBegins : rule.frequency = .weekly →
      ∃ first, start.weekStart? rule.weekStart = some first) :
    rule.Begins start := by
  apply Or.inr
  rw [unsupported?_eq_none_iff] at resolved
  cases frequency : rule.frequency with
  | weekly =>
    obtain ⟨first, began⟩ := weekBegins frequency
    simp [periods?, frequency, began]
  | monthly => simp [periods?, frequency]
  | yearly => simp [periods?, frequency]
  | _ => simp [frequency] at resolved

theorem begins_of_weekStart? (resolved : rule.unsupported? = none)
    (weekBegins : ∃ first, start.weekStart? rule.weekStart = some first) : rule.Begins start :=
  begins_of_weekly_imp resolved fun _ => weekBegins

/-- A rule for every week has an occurrence in any seven days from its event start on. -/
theorem number_lt_of_everyWeek (everyWeek : rule.EveryWeek) (resolved : rule.unsupported? = none)
    (le : start ≤ anchor)
    (least : IsLeast {other | rule.Occurs start other ∧ anchor ≤ other} date) :
    date.number < anchor.number + 7 := by
  simp only [occurs_iff_of_everyWeek everyWeek resolved] at least
  exact Date.number_lt_of_nearest? ((Date.nearest?_eq_some_iff_of_le le).2 least)

/-- With a number of occurrences, a search is bounded by its periods also where the rule leaves out
    no week. -/
theorem reaches_setCount_some_iff (count : UInt32) :
    (rule.setCount (some count)).Reaches settings start anchor date ↔
      Visits rule.interval settings.maxPeriods.toNat (some count.toNat)
        (rule.distance start anchor) (rule.distance start date) := by
  apply or_iff_right
  rintro ⟨-, -, uncounted, -⟩
  cases uncounted

/-- One period more can be searched even if there is no greater number of periods: no date lies that
    far. -/
theorem visits_onePeriodMore_iff (le : start ≤ anchor) :
    Visits rule.interval settings.onePeriodMore.maxPeriods.toNat none (rule.distance start anchor)
        (rule.distance start date) ↔
      Visits rule.interval (settings.maxPeriods.toNat + 1) none (rule.distance start anchor)
        (rule.distance start date) := by
  have current : 0 ≤ rule.distance start anchor := by
    rw [← rule.distance_self start]
    exact rule.distance_mono start le
  rw [Settings.toNat_onePeriodMore]
  constructor
  · exact visits_none_mono (min_le_left _ _)
  · intro visits
    by_cases greater : settings.maxPeriods.toNat + 1 ≤ UInt32.size - 1
    · rwa [min_eq_left greater]
    · rw [min_eq_right (le_of_not_ge greater)]
      apply visits_none_of_le current
      have := rule.distance_lt start date
      simp only [UInt32.size]
      omega

/-- A search with a number of occurrences gets to the least occurrence on or after the anchor
    exactly if a search without one does, which may need one period more. -/
theorem reaches_setCount_iff (resolved : rule.unsupported? = none)
    (searching : 0 < settings.maxPeriods) (le : start ≤ anchor) (count : UInt32)
    (least : IsLeast {other | rule.Occurs start other ∧ anchor ≤ other} date) :
    (rule.setCount (some count)).Reaches settings start anchor date ↔
      (rule.setCount none).Reaches
        (if (rule.interval : Int) ∣ rule.distance start anchor then settings.onePeriodMore
          else settings) start anchor date := by
  have notBefore := rule.distance_mono start least.1.2
  rw [reaches_setCount_some_iff]
  by_cases everyWeek : (rule.setCount none).EveryWeek
  · -- here the search without a number has no bound, and the other one needs two weeks at most
    have near := number_lt_of_everyWeek everyWeek resolved le
      (by simpa only [occurs_setCount] using least)
    have weekly : rule.frequency = .weekly := everyWeek.1
    have everyInterval : rule.interval = 1 := everyWeek.2.1
    have some_period : 0 < settings.maxPeriods.toNat := UInt32.lt_iff_toNat_lt.1 searching
    refine iff_of_true ?_ (Or.inl everyWeek)
    simp only [Visits, distance_of_weekly _ _ weekly, Date.weekNumber, everyInterval]
    omega
  · have plain (settings : Settings) : (rule.setCount none).Reaches settings start anchor date ↔
        Visits rule.interval settings.maxPeriods.toNat none (rule.distance start anchor)
          (rule.distance start date) := or_iff_right everyWeek
    rw [plain, visits_some_iff rule.interval_pos _ least.1.1.interval_dvd notBefore]
    split
    case isTrue => exact (visits_onePeriodMore_iff le).symm
    case isFalse => rfl

/-- A number of occurrences rules out the next occurrence if that many have passed, and may take
    the search one period further; nothing else depends on it. -/
theorem isNext_setCount_iff (resolved : rule.unsupported? = none)
    (searching : 0 < settings.maxPeriods) (count : UInt32) :
    (rule.setCount (some count)).IsNext context settings date ↔
      (rule.past context.start.date context.anchor.date).ncard < count.toNat ∧
        (rule.setCount none).IsNext context
          (if (rule.interval : Int) ∣ rule.distance context.start.date context.anchor.date then
            settings.onePeriodMore else settings) date := by
  have le := DateTime.date_le_of_le context.start_le_anchor
  have clamp : (if (rule.interval : Int) ∣ rule.distance context.start.date context.anchor.date
      then settings.onePeriodMore else settings).clampToUntil = settings.clampToUntil := by
    split
    · exact Settings.clampToUntil_onePeriodMore settings
    · rfl
  have least_iff (count? : Option UInt32) :
      IsLeast {other | (rule.setCount count?).Occurs context.start.date other ∧
          context.anchor.date ≤ other} date ↔
        IsLeast {other | rule.Occurs context.start.date other ∧
          context.anchor.date ≤ other} date := by
    simp only [occurs_setCount]
  constructor
  · rintro ⟨least, notEnded, clamped, left, reaches⟩
    have least' := (least_iff _).1 least
    refine ⟨?_, (least_iff _).2 least', notEnded, by rwa [clamp], by simp [setCount], ?_⟩
    · rw [← past_setCount (some count)]
      exact left count rfl
    · exact (reaches_setCount_iff resolved searching le count least').1 reaches
  · rintro ⟨left, least, notEnded, clamped, -, reaches⟩
    have least' := (least_iff _).1 least
    rw [clamp] at clamped
    refine ⟨(least_iff _).2 least', notEnded, clamped, ?_, ?_⟩
    · rintro _ ⟨⟩
      rw [← past_setCount (some count)] at left
      exact left
    · exact (reaches_setCount_iff resolved searching le count least').2 reaches

/-- The next occurrence is determined by the dates that are the next occurrence. -/
theorem next_congr {other : Rule} {otherContext : Context} {otherSettings : Settings}
    (resolved : rule.unsupported? = none) (otherResolved : other.unsupported? = none)
    (same : ∀ date, rule.next context settings = .ok (some date) ↔
      other.next otherContext otherSettings = .ok (some date)) :
    rule.next context settings = other.next otherContext otherSettings := by
  simp only [next_of_resolved resolved, next_of_resolved otherResolved] at same ⊢
  apply congrArg Except.ok
  apply Option.ext
  intro date
  simpa using same date

theorem next_eq_none (resolved : rule.unsupported? = none)
    (nothing : ∀ date, rule.next context settings ≠ .ok (some date)) :
    rule.next context settings = .ok none := by
  cases found : rule.due? context settings with
  | none => rw [next_of_resolved resolved, found]
  | some date =>
    have answer := next_of_resolved resolved context settings
    rw [found] at answer
    exact absurd answer (nothing date)

/-- The dates from the event start to the anchor on which the rule is due. -/
def dueBefore (rule : Rule) (context : Context) (settings : Settings) : Set Date :=
  {date | (context.start.date ≤ date ∧ date < context.anchor.date) ∧
    rule.IsDueOn context.start settings date}

/-- Nothing is due before the event starts. -/
theorem ncard_dueBefore_of_now_le (early : context.now ≤ context.start) :
    (rule.dueBefore context settings).ncard = 0 := by
  have empty : rule.dueBefore context settings = ∅ := by
    apply Set.eq_empty_of_forall_notMem
    rintro date ⟨⟨started, before⟩, -⟩
    rw [Context.anchor_date_of_now_le early] at before
    exact absurd started (not_le.2 before)
  rw [empty, Set.ncard_empty]

/-- Without an end and a number of occurrences, the rule is due exactly on the dates of the
    recurrence. -/
theorem dueBefore_eq_past (resolved : rule.unsupported? = none) (endless : rule.until? = none)
    (uncounted : rule.count? = none) (begins : rule.Begins context.start.date)
    (searching : 0 < settings.maxPeriods) :
    rule.dueBefore context settings = rule.past context.start.date context.anchor.date := by
  ext date
  constructor
  · rintro ⟨⟨-, before⟩, isDue⟩
    exact ⟨((next_eq_some_iff resolved).1 isDue).2.isLeast.1.1, before⟩
  · rintro ⟨occurs, before⟩
    have anchored := anchor_atMidnight occurs.start_le
    refine ⟨⟨occurs.start_le, before⟩, (next_eq_some_iff resolved).2 ⟨begins, ?_⟩⟩
    refine ⟨?_, by simp [endless], by simp [endless], by simp [uncounted], Or.inr ?_⟩
    · rw [anchored]
      exact ⟨⟨occurs, le_refl date⟩, fun other member => member.2⟩
    · rw [anchored]
      exact visits_self (UInt32.lt_iff_toNat_lt.1 searching) _ _

/-- As long as fewer occurrences have passed than there are to be, counting them changes the next
    occurrence only in one way: if the rule visits the period that holds the anchor, the search goes
    one period further. After that there is no next occurrence. -/
theorem next_setCount (resolved : rule.unsupported? = none) (endless : rule.until? = none)
    (context : Context)
    (weekBegins : ∃ first, context.start.date.weekStart? rule.weekStart = some first)
    (searching : 0 < settings.maxPeriods) (count : UInt32) :
    (((rule.setCount none).dueBefore context settings).ncard < count.toNat →
      (rule.setCount (some count)).next context settings =
        (rule.setCount none).next context
          (if (rule.interval : Int) ∣ rule.distance context.start.date context.anchor.date then
            settings.onePeriodMore else settings)) ∧
    (count.toNat ≤ ((rule.setCount none).dueBefore context settings).ncard →
      (rule.setCount (some count)).next context settings = .ok none) := by
  have resolves (count? : Option UInt32) : (rule.setCount count?).unsupported? = none := resolved
  have begins (count? : Option UInt32) : (rule.setCount count?).Begins context.start.date :=
    begins_of_weekStart? resolved weekBegins
  have passed : (rule.setCount none).dueBefore context settings =
      rule.past context.start.date context.anchor.date := by
    rw [← past_setCount none]
    exact dueBefore_eq_past resolved endless rfl (begins none) searching
  rw [passed]
  constructor
  · intro left
    apply next_congr (resolves _) (resolves _)
    intro date
    rw [next_eq_some_iff (resolves _), next_eq_some_iff (resolves _), and_iff_right (begins _),
      and_iff_right (begins _), isNext_setCount_iff resolved searching, and_iff_right left]
  · intro spent
    apply next_eq_none (resolves _)
    intro date found
    rw [next_eq_some_iff (resolves _), isNext_setCount_iff resolved searching] at found
    exact absurd found.2.1 (not_lt.2 spent)

/-- One month is searched from an event start that the rule does not pick. As the rule visits that
    month, a search that counts finds what another one finds in two months. -/
theorem next_setCount_first_of_month :
    ∃ start ∈ Date.ofYmd? 2018 1 15, ∃ date ∈ Date.ofYmd? 2018 2 1,
      (Rule.setCount { frequency := .monthly, byMonthDay := [1] } (some 1)).next
        ⟨.atMidnight start, .atMidnight start⟩ { maxPeriods := 1 } = .ok (some date) := by
  refine ⟨_, rfl, _, rfl, ?_⟩
  rw [(next_setCount rfl rfl _ ⟨_, rfl⟩ (by decide) 1).1]
  · decide +kernel
  · rw [ncard_dueBefore_of_now_le (by decide)]
    decide

/-- The number of occurrences is not spent, and yet the next occurrence is found with it and not
    found without it: the two searches do not stop at the same period. -/
theorem next_setCount_ne_next :
    ∃ start ∈ Date.ofYmd? 2018 1 15, ∃ date ∈ Date.ofYmd? 2018 2 1,
      ((Rule.setCount { frequency := .monthly, byMonthDay := [1] } none).dueBefore
        ⟨.atMidnight start, .atMidnight start⟩ { maxPeriods := 1 }).ncard < 1 ∧
      (Rule.setCount { frequency := .monthly, byMonthDay := [1] } none).next
        ⟨.atMidnight start, .atMidnight start⟩ { maxPeriods := 1 } = .ok none ∧
      (Rule.setCount { frequency := .monthly, byMonthDay := [1] } (some 1)).next
        ⟨.atMidnight start, .atMidnight start⟩ { maxPeriods := 1 } = .ok (some date) := by
  refine ⟨_, rfl, _, rfl, ?_, rfl, rfl⟩
  rw [ncard_dueBefore_of_now_le (by decide)]
  decide

end Rule

end Recurrence
