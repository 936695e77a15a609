import Recurrence.Proofs.NextDate

/-!
# The next occurrence as time passes

A search at a later moment begins in a later period and has other periods ahead of it, and it may
count more occurrences behind it. Until the day of the next occurrence is over, none of this shows:
no occurrence lies between the two moments, and the later search is closer to its goal.
-/

namespace Recurrence

/-- The date of the anchor never goes back. -/
theorem Context.anchor_date_mono (start : DateTime) {earlier later : DateTime}
    (le : earlier ≤ later) :
    (Context.mk start earlier).anchor.date ≤ (Context.mk start later).anchor.date := by
  rw [anchor_date, anchor_date]
  exact max_le_max (le_refl start.date) (DateTime.date_le_of_le le)

namespace Rule

variable {rule : Rule} {settings : Settings} {start earlier later : DateTime} {date : Date}

/-- A search from a later date on gets as far as one from an earlier date. -/
theorem Reaches.of_later {start anchor later date : Date} (le : anchor ≤ later)
    (reaches : rule.Reaches settings start anchor date) :
    rule.Reaches settings start later date := by
  apply reaches.imp_right
  exact Visits.of_current_le (rule.distance_mono start le)

/-- The next occurrence stays the next one until its day or the end of the recurrence has passed. -/
theorem IsNext.of_later (next : rule.IsNext ⟨start, earlier⟩ settings date)
    (le : earlier ≤ later) (notAfter : (Context.mk start later).anchor.date ≤ date)
    (notEnded : ∀ bound ∈ rule.until?, ¬bound.IsBefore later) :
    rule.IsNext ⟨start, later⟩ settings date := by
  have forward := Context.anchor_date_mono start le
  have samePast := setOf_occurs_lt_eq next.isLeast forward notAfter
  exact
    { isLeast := isLeast_of_later next.isLeast forward notAfter
      until_not_before := notEnded
      le_until := next.le_until
      count_left := by
        rw [samePast]
        exact next.count_left
      reaches := next.reaches.of_later forward }

/-- The next occurrence at a later moment is the same one, as long as neither its day nor the end of
    the recurrence has passed, and it is never an earlier one. -/
theorem next_stable_and_monotone (rule : Rule) (start : DateTime) (settings : Settings)
    (le : earlier ≤ later) :
    (∀ date, rule.next ⟨start, earlier⟩ settings = .ok (some date) →
      (Context.mk start later).anchor.date ≤ date →
      (∀ bound ∈ rule.until?, ¬bound.IsBefore later) →
      rule.next ⟨start, later⟩ settings = .ok (some date)) ∧
    ∀ first second, rule.next ⟨start, earlier⟩ settings = .ok (some first) →
      rule.next ⟨start, later⟩ settings = .ok (some second) → first ≤ second := by
  constructor
  · intro date found notAfter notEnded
    have resolved := resolved_of_next found
    obtain ⟨begins, next⟩ := (next_eq_some_iff resolved).1 found
    exact (next_eq_some_iff resolved).2 ⟨begins, next.of_later le notAfter notEnded⟩
  · intro first second foundFirst foundSecond
    have resolved := resolved_of_next foundFirst
    have leastFirst := ((next_eq_some_iff resolved).1 foundFirst).2.isLeast
    have leastSecond := ((next_eq_some_iff resolved).1 foundSecond).2.isLeast
    have notBefore : (Context.mk start earlier).anchor.date ≤ second :=
      le_trans (Context.anchor_date_mono start le) leastSecond.1.2
    exact leastFirst.2 ⟨leastSecond.1.1, notBefore⟩

/-- The second Tuesday of every other month, four times in all and until a day in May. As that day
    is next in the middle of March, it is still next at its own noon. -/
theorem next_second_tuesday_at_noon :
    ∃ start ∈ Date.ofYmd? 2018 1 9, ∃ date ∈ Date.ofYmd? 2018 5 8, ∃ noon ∈ Time.ofHms? 12 0 0 0,
      Rule.next
          { frequency := .monthly
            interval? := some 2
            until? := some (.day date)
            count? := some 4
            byDay := [⟨some 2, .tuesday⟩] }
          ⟨.atMidnight start, ⟨date, noon⟩⟩ { maxPeriods := 1 } = .ok (some date) := by
  obtain ⟨earlier, march⟩ : ∃ earlier, earlier ∈ Date.ofYmd? 2018 3 14 := ⟨_, rfl⟩
  refine ⟨_, rfl, _, rfl, _, rfl, ?_⟩
  refine (next_stable_and_monotone _ _ _ (?le : .atMidnight earlier ≤ _)).1 _ ?found ?notAfter
    ?notEnded
  case le =>
    cases march
    decide
  case found =>
    cases march
    rfl
  case notAfter => decide
  case notEnded => decide

end Rule

end Recurrence
