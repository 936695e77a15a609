import Recurrence.Proofs.Occurs

/-!
# Weeks list what a rule selects

Weeks are numbered from the one in which the event starts, and each lists its dates with one of
the weekdays of the rule. A rule that leaves out no week needs no search: the nearest date with
one of its weekdays is the least one.
-/

namespace Recurrence

variable {date first origin start : Date} {days : List Weekday} {months : List Int} {index : Int}

/-- A week that begins where the calendar does, or later, has its first day if it has any. -/
theorem Date.addDays?_week_ne_none (nonneg : 0 ≤ index)
    (inWeek : (date.number - origin.number) / 7 = index) : origin.addDays? (7 * index) ≠ none := by
  obtain ⟨first, number⟩ := Date.exists_of_between (a := origin) (b := date)
    (n := origin.number + 7 * index) (by omega) (by omega)
  rw [Date.addDays?_eq_some_iff.2 number]
  exact Option.some_ne_none first

theorem Periods.mem_weeks_candidates_iff (nonneg : 0 ≤ index) :
    date ∈ (Periods.weeks origin days months).candidates index ↔
      (date.weekday ∈ days ∧ (months = [] ∨ (date.month : Int) ∈ months)) ∧
        (Periods.weeks origin days months).indexOf date = index := by
  simp only [Periods.weeks]
  cases found : origin.addDays? (7 * index) with
  | none =>
    simp only [List.not_mem_nil, false_iff, not_and]
    intro _ inWeek
    exact Date.addDays?_week_ne_none nonneg inWeek found
  | some first =>
    rw [Date.addDays?_eq_some_iff] at found
    simp only [List.mem_filterMap, List.mem_range, Option.filter_eq_some_iff,
      Date.addDays?_eq_some_iff, decide_eq_true_eq]
    constructor
    · rintro ⟨offset, less, number, wanted⟩
      exact ⟨wanted, by omega⟩
    · rintro ⟨wanted, inWeek⟩
      exact ⟨(date.number - first.number).toNat, by omega, by omega, wanted⟩

theorem Periods.weeks_ascending :
    ((Periods.weeks origin days months).candidates index).Pairwise (· < ·) := by
  simp only [Periods.weeks]
  cases origin.addDays? (7 * index) with
  | none => exact List.Pairwise.nil
  | some first =>
    refine List.pairwise_filterMap.2 (List.Pairwise.imp ?_ List.pairwise_lt_range)
    simp only [Option.filter_eq_some_iff, Date.addDays?_eq_some_iff]
    rintro i j less a ⟨numberOfA, -⟩ b ⟨numberOfB, -⟩
    exact Date.lt_iff.2 (by omega)

/-- The number of a week, counted from the one in which the event starts, is the distance. -/
theorem Rule.weeks_indexOf_eq {rule : Rule} (weekly : rule.frequency = .weekly)
    (began : start.weekStart? rule.weekStart = some origin) :
    (Periods.weeks origin days months).indexOf date = rule.distance start date := by
  rw [Date.weekStart?_eq_some_iff] at began
  rw [distance_of_weekly _ _ weekly]
  simp only [Periods.weeks, began, Date.weekNumber]
  omega

/-- Weeks list exactly the dates with one of the weekdays, in one of the months if there are any. -/
theorem Periods.weeks_enumerates :
    (Periods.weeks origin days months).Enumerates
      {date | date.weekday ∈ days ∧ (months = [] ∨ (date.month : Int) ∈ months)} where
  indexOf_mono := by
    intro a b le
    rw [Date.le_iff] at le
    simp only [Periods.weeks]
    omega
  indexOf_lt := by
    intro date
    have numberOfDate := date.le_last
    have numberOfOrigin := origin.first_le
    have range : lastDayNumber - firstDayNumber < maxIndex := by decide
    simp only [Periods.weeks, maxIndex] at range ⊢
    omega
  ascending := fun _ => Periods.weeks_ascending
  mem_candidates_iff := Periods.mem_weeks_candidates_iff

/-- The weeks of a weekly rule list exactly the dates that it selects. -/
theorem Rule.weeks_enumerates {rule : Rule} (weekly : rule.frequency = .weekly)
    (noPositions : rule.byPosition = []) :
    (Periods.weeks origin (rule.weekdays start) rule.byMonth).Enumerates
      {date | rule.Selects start date} := by
  have selected : {date | rule.Selects start date} = {date | date.weekday ∈ rule.weekdays start ∧
      (rule.byMonth = [] ∨ (date.month : Int) ∈ rule.byMonth)} := by
    ext date
    simp only [Set.mem_ofPred_eq, Selects, picks_of_weekly _ _ weekly, AllowsMonth, noPositions,
      true_or, and_true]
    exact and_comm
  rw [selected]
  exact Periods.weeks_enumerates

theorem Date.weekday_eq_addDays {later : Date} {n : Nat} (number : later.number = date.number + n) :
    later.weekday = date.weekday.addDays n := by
  have indexOfDate := date.weekday_index
  have indexOfLater := later.weekday_index
  rw [← Weekday.index_inj, Weekday.addDays, Weekday.index_ofIndex]
  omega

theorem Date.isLeast_of_nearest?_eq_some {anchor : Date}
    (nearest : anchor.nearest? days = some date) :
    IsLeast {other | other.weekday ∈ days ∧ anchor ≤ other} date := by
  obtain ⟨offset, least, later⟩ := Option.bind_eq_some_iff.1 nearest
  rw [addDays?_eq_some_iff] at later
  obtain ⟨member, le⟩ := List.min?_eq_some_iff.1 least
  obtain ⟨day, inDays, rfl⟩ := List.mem_map.1 member
  refine ⟨⟨?_, le_iff.2 (by omega)⟩, ?_⟩
  · rw [weekday_eq_addDays later, Weekday.addDays_daysUntil]
    exact inDays
  · rintro other ⟨otherInDays, notBefore⟩
    have distance := daysUntil_weekday anchor other
    have shortest := le _ (List.mem_map_of_mem otherInDays)
    rw [le_iff] at notBefore ⊢
    omega

/-- The nearest date with one of some weekdays is the least one on or after the given date, and
    it is found whenever there is one. -/
theorem Date.nearest?_eq_some_iff {anchor : Date} :
    anchor.nearest? days = some date ↔
      IsLeast {other | other.weekday ∈ days ∧ anchor ≤ other} date := by
  constructor
  · exact isLeast_of_nearest?_eq_some
  · intro least
    obtain ⟨inDays, notBefore⟩ := least.1
    have distance := daysUntil_weekday anchor date
    have member := List.mem_map_of_mem (f := anchor.weekday.daysUntil) inDays
    -- the distance to the nearest weekday stays within the calendar, as `date` lies no nearer
    obtain ⟨offset, shortest⟩ := Option.ne_none_iff_exists'.1
      (mt List.min?_eq_none_iff.1 (List.ne_nil_of_mem member))
    have le := (List.min?_eq_some_iff.1 shortest).2 _ member
    rw [le_iff] at notBefore
    obtain ⟨nearest, number⟩ := exists_of_between (a := anchor) (b := date)
      (n := anchor.number + offset) (by omega) (by omega)
    have found : anchor.nearest? days = some nearest := by
      rw [nearest?, shortest, Option.bind_some, addDays?_eq_some_iff, number]
    rw [found, (isLeast_of_nearest?_eq_some found).unique least]

/-- Nothing changes if the dates before an event start are left out. -/
theorem Date.nearest?_eq_some_iff_of_le {start anchor : Date} (le : start ≤ anchor) :
    anchor.nearest? days = some date ↔
      IsLeast {other | (start ≤ other ∧ other.weekday ∈ days) ∧ anchor ≤ other} date := by
  have later : {other | (start ≤ other ∧ other.weekday ∈ days) ∧ anchor ≤ other} =
      {other | other.weekday ∈ days ∧ anchor ≤ other} := by
    ext other
    constructor
    · rintro ⟨⟨-, wanted⟩, notBefore⟩
      exact ⟨wanted, notBefore⟩
    · rintro ⟨wanted, notBefore⟩
      exact ⟨⟨le_trans le notBefore, wanted⟩, notBefore⟩
  rw [nearest?_eq_some_iff, later]

/-- The nearest date with one of some weekdays is less than a week away. -/
theorem Date.number_lt_of_nearest? {anchor : Date}
    (nearest : anchor.nearest? days = some date) :
    date.number < anchor.number + 7 := by
  obtain ⟨offset, least, later⟩ := Option.bind_eq_some_iff.1 nearest
  obtain ⟨day, -, rfl⟩ := List.mem_map.1 (List.min?_eq_some_iff.1 least).1
  have := anchor.weekday.daysUntil_lt day
  rw [addDays?_eq_some_iff] at later
  omega

end Recurrence
