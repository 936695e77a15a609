import Recurrence.Proofs.NextDate
import Recurrence.Schedule

/-!
# A walk loses and repeats no occurrence

A walk asks for the next occurrence again and again, each time from the day after the one before.
Every answer depends on the moment that is asked about; the dates of a walk do not: they are the
dates that are the next occurrence on their own day.
-/

namespace Recurrence

variable {rule : Rule} {settings : Settings} {start now : DateTime} {date : Date}

/-- On the day of the end of a recurrence, or before, the end has not passed at midnight. -/
theorem Until.not_isBefore_of_le {bound : Until} (le : date ≤ bound.date) :
    ¬bound.IsBefore (.atMidnight date) := by
  cases bound with
  | day last => exact not_lt.2 le
  | moment value utc =>
    change ¬value.instant < (DateTime.atMidnight date).instant
    change date.number ≤ value.date.number at le
    simp only [DateTime.instant, DateTime.atMidnight, Time.midnight, nanosPerDay, nanosPerSecond]
    omega

namespace Rule

/-- The date is the next occurrence at the beginning of its own day. -/
def IsDueOn (rule : Rule) (start : DateTime) (settings : Settings) (date : Date) : Prop :=
  rule.next ⟨start, .atMidnight date⟩ settings = .ok (some date)

/-- From the beginning of a day on or after the event start, the search begins on that day. -/
theorem anchor_atMidnight (le : start.date ≤ date) :
    (Context.mk start (.atMidnight date)).anchor.date = date := by
  rw [Context.anchor_date]
  exact max_eq_right le

/-- The next occurrence at some moment is also the next one on its own day: it is still the least
    one, no more occurrences have passed, and the end of the recurrence is no earlier. -/
theorem isDueOn_of_next (resolved : rule.unsupported? = none) (searching : 0 < settings.maxPeriods)
    (clamped : settings.clampToUntil ∨ rule.until? = none)
    (found : rule.next ⟨start, now⟩ settings = .ok (some date)) :
    rule.IsDueOn start settings date := by
  obtain ⟨begins, least, -, le_until, left, -⟩ := (next_eq_some_iff resolved).1 found
  obtain ⟨occurs, notBefore⟩ := least.1
  have anchored := anchor_atMidnight occurs.start_le
  have beforeEnd : ∀ bound ∈ rule.until?, date ≤ bound.date := by
    rcases clamped with clamped | endless
    · exact le_until clamped
    · simp [endless]
  refine (next_eq_some_iff resolved).2 ⟨begins, ?_, ?_, fun _ => beforeEnd, ?_, Or.inr ?_⟩
  · rw [anchored]
    exact isLeast_of_later least notBefore (le_refl date)
  · exact fun bound given => Until.not_isBefore_of_le (beforeEnd bound given)
  · rw [anchored]
    simpa only [setOf_occurs_lt_eq least notBefore (le_refl date)] using left
  · rw [anchored]
    exact visits_self (UInt32.lt_iff_toNat_lt.1 searching) _ _

/-- No date between the anchor and the next occurrence is due on its own day. -/
theorem eq_of_isDueOn_of_le (resolved : rule.unsupported? = none) {other : Date}
    (found : rule.next ⟨start, now⟩ settings = .ok (some date))
    (due : rule.IsDueOn start settings other)
    (notBefore : (Context.mk start now).anchor.date ≤ other) (le : other ≤ date) :
    other = date := by
  have least := ((next_eq_some_iff resolved).1 found).2.isLeast
  have occurs := ((next_eq_some_iff resolved).1 due).2.isLeast.1.1
  exact le_antisymm le (least.2 ⟨occurs, notBefore⟩)

end Rule

namespace Schedule

/-- The dates are in ascending order within a region, and up to the last of them they are exactly
    those of the region that are due. -/
structure Covers (due : Date → Prop) (region : Set Date) (dates : List Date) : Prop where
  ascending : dates.Pairwise (· < ·)
  inRegion : ∀ date ∈ dates, date ∈ region
  mem_iff : ∀ last ∈ dates, ∀ date ∈ region, date ≤ last → (date ∈ dates ↔ due date)

theorem Covers.nil {due : Date → Prop} {region : Set Date} : Covers due region [] where
  ascending := List.Pairwise.nil
  inRegion := by simp
  mem_iff := by simp

/-- One step of a walk: the first date that is due, followed by dates that cover what comes after
    it. -/
theorem Covers.cons {due : Date → Prop} {first : Date} {rest : List Date} (notBefore : first ≤ date)
    (isDue : due date)
    (first_due : ∀ other, first ≤ other → other ≤ date → due other → other = date)
    (covers : Covers due (Set.Ioi date) rest) : Covers due (Set.Ici first) (date :: rest) where
  ascending := List.pairwise_cons.2 ⟨covers.inRegion, covers.ascending⟩
  inRegion := by
    intro other member
    rcases List.mem_cons.1 member with rfl | inRest
    · exact notBefore
    · exact le_trans notBefore (le_of_lt (covers.inRegion other inRest))
  mem_iff := by
    intro last lastMember other inRegion le
    rw [List.mem_cons]
    by_cases later : date < other
    · have lastInRest : last ∈ rest := by
        rcases List.mem_cons.1 lastMember with rfl | inRest
        · exact absurd later (not_lt.2 le)
        · exact inRest
      rw [← covers.mem_iff last lastInRest other later le, or_iff_right (ne_of_gt later)]
    · constructor
      · rintro (rfl | inRest)
        · exact isDue
        · exact absurd (covers.inRegion other inRest) later
      · intro otherDue
        exact Or.inl (first_due other inRegion (not_lt.1 later) otherDue)

variable {schedule : Schedule} {steps : Nat} {following : DateTime}

theorem walk_of_none (found : schedule.next now settings = .ok none) :
    schedule.walk settings (steps + 1) now = .ok ⟨[], true⟩ := by
  rw [walk, found]
  rfl

theorem walk_of_last (found : schedule.next now settings = .ok (some date))
    (last : dayAfter? date = none) :
    schedule.walk settings (steps + 1) now = .ok ⟨[date], false⟩ := by
  simp only [walk, found, bind, Except.bind, last]
  rfl

theorem walk_of_some {rest : Walk} (found : schedule.next now settings = .ok (some date))
    (after : dayAfter? date = some following)
    (walked : schedule.walk settings steps following = .ok rest) :
    schedule.walk settings (steps + 1) now = .ok ⟨date :: rest.dates, rest.exhausted⟩ := by
  simp only [walk, found, bind, Except.bind, after, walked]
  rfl

/-- Behind its first date, a walk goes on from the day after it. -/
theorem exists_rest_of_walk {walk : Walk} (found : schedule.next now settings = .ok (some date))
    (after : dayAfter? date = some following)
    (walked : schedule.walk settings (steps + 1) now = .ok walk) :
    ∃ rest, schedule.walk settings steps following = .ok rest ∧
      walk = ⟨date :: rest.dates, rest.exhausted⟩ := by
  simp only [Schedule.walk, found, bind, Except.bind, after] at walked
  cases walkedRest : schedule.walk settings steps following with
  | error reason =>
    rw [walkedRest] at walked
    cases walked
  | ok rest =>
    rw [walkedRest] at walked
    cases walked
    exact ⟨rest, rfl, rfl⟩

/-- A walk that has dates begins with the next occurrence. It ends there if there is no day after
    that one, and it goes on from this day otherwise. -/
theorem exists_step_of_walk {walk : Walk}
    (walked : schedule.walk settings (steps + 1) now = .ok walk) (given : walk.dates ≠ []) :
    ∃ date, schedule.next now settings = .ok (some date) ∧
      (dayAfter? date = none ∧ walk = ⟨[date], false⟩ ∨
        ∃ following rest, dayAfter? date = some following ∧
          schedule.walk settings steps following = .ok rest ∧
          walk = ⟨date :: rest.dates, rest.exhausted⟩) := by
  cases found : schedule.next now settings with
  | error reason =>
    simp only [Schedule.walk, found, bind, Except.bind] at walked
    cases walked
  | ok date? =>
    cases date? with
    | none =>
      rw [walk_of_none found] at walked
      cases walked
      exact absurd rfl given
    | some date =>
      refine ⟨date, rfl, ?_⟩
      cases after : dayAfter? date with
      | none =>
        rw [walk_of_last found after] at walked
        cases walked
        exact Or.inl ⟨rfl, rfl⟩
      | some following =>
        obtain ⟨rest, walkedRest, same⟩ := exists_rest_of_walk found after walked
        exact Or.inr ⟨following, rest, rfl, walkedRest, same⟩

/-- From the day after an occurrence on, a search begins with that day. -/
theorem Ici_anchor_of_dayAfter? (le : start.date ≤ date) (after : dayAfter? date = some following) :
    Set.Ici (Context.mk start following).anchor.date = Set.Ioi date := by
  obtain ⟨next, later, rfl⟩ := Option.map_eq_some_iff.1 after
  rw [Date.addDays?_eq_some_iff] at later
  rw [Rule.anchor_atMidnight (Date.le_iff.2 (by rw [Date.le_iff] at le; omega))]
  ext other
  simp only [Set.mem_Ici, Set.mem_Ioi, Date.le_iff, Date.lt_iff]
  omega

/-- A walk covers the dates that are due from its anchor on. -/
theorem walk_covers (resolved : rule.unsupported? = none) (searching : 0 < settings.maxPeriods)
    (clamped : settings.clampToUntil ∨ rule.until? = none) (start : DateTime) (steps : Nat)
    (now : DateTime) :
    ∃ walk, Schedule.walk ⟨rule, some start⟩ settings steps now = .ok walk ∧
      Covers (rule.IsDueOn start settings) (Set.Ici (Context.mk start now).anchor.date)
        walk.dates := by
  -- for all moments at once, as the rest of a walk has its own
  induction steps generalizing now with
  | zero => exact ⟨⟨[], false⟩, rfl, .nil⟩
  | succ steps ih =>
    have answer := Rule.next_of_resolved resolved ⟨start, now⟩ settings
    cases found : rule.due? ⟨start, now⟩ settings with
    | none =>
      rw [found] at answer
      exact ⟨_, walk_of_none answer, .nil⟩
    | some date =>
      rw [found] at answer
      have occurrence := ((Rule.next_eq_some_iff resolved).1 answer).2.isLeast.1
      have isDue := Rule.isDueOn_of_next resolved searching clamped answer
      have first_due (other : Date) (notBefore : (Context.mk start now).anchor.date ≤ other)
          (le : other ≤ date) (due : rule.IsDueOn start settings other) : other = date :=
        Rule.eq_of_isDueOn_of_le resolved answer due notBefore le
      cases after : dayAfter? date with
      | none =>
        exact ⟨_, walk_of_last answer after, .cons occurrence.2 isDue first_due .nil⟩
      | some following =>
        obtain ⟨rest, walked, covers⟩ := ih following
        rw [Ici_anchor_of_dayAfter? occurrence.1.start_le after] at covers
        exact ⟨_, walk_of_some answer after walked, .cons occurrence.2 isDue first_due covers⟩

/-- A walk of any number of steps goes through its dates in ascending order, and up to the last
    of them it leaves out no date on or after the anchor that is due on its own day. -/
theorem walk_ascending_and_complete (resolved : rule.unsupported? = none) (start now : DateTime)
    (searching : 0 < settings.maxPeriods) (clamped : settings.clampToUntil ∨ rule.until? = none)
    (steps : Nat) :
    ∃ walk, Schedule.walk ⟨rule, some start⟩ settings steps now = .ok walk ∧
      walk.dates.Pairwise (· < ·) ∧
      ∀ last ∈ walk.dates.getLast?, ∀ date, (Context.mk start now).anchor.date ≤ date →
        date ≤ last →
          (date ∈ walk.dates ↔ rule.next ⟨start, .atMidnight date⟩ settings = .ok (some date)) := by
  obtain ⟨walk, walked, covers⟩ := walk_covers resolved searching clamped start steps now
  refine ⟨walk, walked, covers.ascending, ?_⟩
  intro last isLast date notBefore le
  exact covers.mem_iff last (List.mem_of_getLast? isLast) date notBefore le

/-- Three steps through the first and the last Friday of every other month. From within the month
    that is left out, they begin with the first Friday of the month after it. -/
theorem walk_first_and_last_fridays :
    ∃ start ∈ Date.ofYmd? 2024 1 5, ∃ now ∈ Date.ofYmd? 2024 2 10, ∃ walk,
      Schedule.walk
          ⟨{ frequency := .monthly
             interval? := some 2
             byDay := [⟨some 1, .friday⟩, ⟨some (-1), .friday⟩] }, some (.atMidnight start)⟩
          {} 3 (.atMidnight now) = .ok walk ∧
        walk.dates.map (fun date => (date.month, date.day)) = [(3, 1), (3, 29), (5, 3)] ∧
        walk.dates.Pairwise (· < ·) := by
  refine ⟨_, rfl, _, rfl, ?_⟩
  refine (walk_ascending_and_complete ?resolved _ _ ?searching (Or.inl ?clamped) 3).imp
    fun walk ⟨walked, ascending, _⟩ => ⟨walked, ?dates, ascending⟩
  case dates =>
    cases walked
    rfl
  case searching => decide
  all_goals rfl

end Schedule

end Recurrence
