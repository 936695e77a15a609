import Recurrence.Proofs.CountedSearch

/-!
# A walk through a counted recurrence

Every step of a walk counts the occurrences anew, from the event start to the moment that it is
about. As each step passes exactly one occurrence, the count goes up by one from step to step, so
that a walk from the event start has as many dates as the rule asks for.
-/

namespace Recurrence

variable {rule : Rule} {settings : Settings} {start now following : DateTime} {date : Date}
  {count : UInt32} {steps : Nat}

/-- A walk did not stop for lack of steps: it came to where there is no further occurrence, or no
    day after its last one. -/
def Walk.Ended (walk : Walk) : Prop :=
  walk.exhausted = true ∨ ∃ last ∈ walk.dates.getLast?, Schedule.dayAfter? last = none

theorem Walk.Ended.cons {rest : Walk} (date : Date) (ended : rest.Ended) :
    Walk.Ended ⟨date :: rest.dates, rest.exhausted⟩ := by
  rcases ended with exhausted | ⟨last, isLast, noDay⟩
  · exact Or.inl exhausted
  · refine Or.inr ⟨last, ?_, noDay⟩
    rw [Option.mem_def] at isLast ⊢
    simp [List.getLast?_cons, isLast]

namespace Rule

/-- The occurrences that have passed when the search of a context begins. -/
noncomputable def passed (rule : Rule) (start now : DateTime) : Nat :=
  (rule.past start.date (Context.mk start now).anchor.date).ncard

/-- Before the event starts no occurrence has passed. -/
theorem passed_of_le (early : now ≤ start) : rule.passed start now = 0 := by
  have empty : rule.past start.date start.date = ∅ := by
    apply Set.eq_empty_of_forall_notMem
    rintro date ⟨occurs, before⟩
    exact absurd occurs.start_le (not_le.2 before)
  rw [passed, Context.anchor_date_of_now_le early, empty, Set.ncard_empty]

/-- From the day after the next occurrence, exactly one more occurrence has passed. -/
theorem passed_of_dayAfter?
    (least : IsLeast {other | rule.Occurs start.date other ∧
      (Context.mk start now).anchor.date ≤ other} date)
    (after : Schedule.dayAfter? date = some following) :
    rule.passed start following = rule.passed start now + 1 := by
  have region := Schedule.Ici_anchor_of_dayAfter? least.1.1.start_le after
  have before (other : Date) : other < (Context.mk start following).anchor.date ↔ other ≤ date := by
    rw [← not_le, ← Set.mem_Ici, region, Set.mem_Ioi, not_lt]
  have inserted : rule.past start.date (Context.mk start following).anchor.date =
      insert date (rule.past start.date (Context.mk start now).anchor.date) := by
    ext other
    simp only [past, Set.mem_ofPred_eq, Set.mem_insert_iff, before]
    constructor
    · rintro ⟨occurs, le⟩
      by_cases late : (Context.mk start now).anchor.date ≤ other
      · exact Or.inl (le_antisymm le (least.2 ⟨occurs, late⟩))
      · exact Or.inr ⟨occurs, not_le.1 late⟩
    · rintro (rfl | ⟨occurs, earlier⟩)
      · exact ⟨least.1.1, le_refl other⟩
      · exact ⟨occurs, le_of_lt (lt_of_lt_of_le earlier least.1.2)⟩
  have fresh : date ∉ rule.past start.date (Context.mk start now).anchor.date := by
    intro member
    exact absurd member.2 (not_lt.2 least.1.2)
  rw [passed, inserted, Set.ncard_insert_of_notMem fresh (Set.toFinite _), passed]

theorem IsNext.onePeriodMore {context : Context} (uncounted : rule.count? = none)
    (next : rule.IsNext context settings date) :
    rule.IsNext context settings.onePeriodMore date where
  isLeast := next.isLeast
  until_not_before := next.until_not_before
  le_until := by
    rw [Settings.clampToUntil_onePeriodMore]
    exact next.le_until
  count_left := next.count_left
  reaches := by
    apply next.reaches.imp_right
    rw [uncounted, Settings.toNat_onePeriodMore]
    apply visits_none_mono
    have := settings.maxPeriods.toNat_lt_size
    omega

/-- The next occurrence of a counted rule comes before the occurrences are spent. -/
theorem passed_lt_of_next (resolved : rule.unsupported? = none)
    (found : (rule.setCount (some count)).next ⟨start, now⟩ settings = .ok (some date)) :
    rule.passed start now < count.toNat := by
  have resolved' : (rule.setCount (some count)).unsupported? = none := resolved
  have left := ((next_eq_some_iff resolved').1 found).2.count_left count rfl
  rwa [passed, ← past_setCount (some count)]

/-- As long as the occurrences are not spent, a counted rule has the next occurrence that it has
    without the count. -/
theorem next_setCount_of_next (resolved : rule.unsupported? = none)
    (weekBegins : ∃ first, start.date.weekStart? rule.weekStart = some first)
    (searching : 0 < settings.maxPeriods) (left : rule.passed start now < count.toNat)
    (found : (rule.setCount none).next ⟨start, now⟩ settings = .ok (some date)) :
    (rule.setCount (some count)).next ⟨start, now⟩ settings = .ok (some date) := by
  have resolves (count? : Option UInt32) : (rule.setCount count?).unsupported? = none := resolved
  obtain ⟨-, next⟩ := (next_eq_some_iff (resolves _)).1 found
  refine (next_eq_some_iff (resolves _)).2 ⟨begins_of_weekStart? resolved weekBegins, ?_⟩
  refine (isNext_setCount_iff resolved searching count).2 ⟨left, ?_⟩
  split
  · exact next.onePeriodMore rfl
  · exact next

end Rule

namespace Schedule

/-- A counted walk ends, given enough steps, and has no more dates than occurrences are left. -/
theorem walk_setCount_ended (resolved : rule.unsupported? = none) (start : DateTime)
    (settings : Settings) (count : UInt32) (steps : Nat) (now : DateTime) :
    ∃ walk, Schedule.walk ⟨rule.setCount (some count), some start⟩ settings steps now = .ok walk ∧
      walk.dates.length ≤ count.toNat - rule.passed start now ∧
      (count.toNat - rule.passed start now < steps → walk.Ended) := by
  have resolved' : (rule.setCount (some count)).unsupported? = none := resolved
  induction steps generalizing now with
  | zero =>
    refine ⟨⟨[], false⟩, rfl, Nat.zero_le _, ?_⟩
    intro enough
    exact absurd enough (Nat.not_lt_zero _)
  | succ steps ih =>
    have answer := Rule.next_of_resolved resolved' ⟨start, now⟩ settings
    cases found : (rule.setCount (some count)).due? ⟨start, now⟩ settings with
    | none =>
      rw [found] at answer
      exact ⟨_, walk_of_none answer, Nat.zero_le _, fun _ => Or.inl rfl⟩
    | some date =>
      rw [found] at answer
      have left := Rule.passed_lt_of_next resolved answer
      have least := ((Rule.next_eq_some_iff resolved').1 answer).2.isLeast
      simp only [Rule.occurs_setCount] at least
      cases after : dayAfter? date with
      | none =>
        refine ⟨_, walk_of_last answer after, ?_, fun _ => Or.inr ⟨date, rfl, after⟩⟩
        rw [List.length_singleton]
        omega
      | some following =>
        obtain ⟨rest, walked, bounded, ended⟩ := ih following
        -- the step has used up one of the occurrences that were left
        rw [Rule.passed_of_dayAfter? least after] at bounded ended
        refine ⟨_, walk_of_some answer after walked, ?_, ?_⟩
        · rw [List.length_cons]
          omega
        · intro enough
          exact Walk.Ended.cons date (ended (by omega))

/-- A counted walk has no dates if no occurrence is left. -/
theorem dates_eq_nil_of_passed (resolved : rule.unsupported? = none) {walk : Walk}
    (walked : Schedule.walk ⟨rule.setCount (some count), some start⟩ settings steps now = .ok walk)
    (spent : count.toNat ≤ rule.passed start now) : walk.dates = [] := by
  obtain ⟨other, walkedAgain, bounded, -⟩ :=
    walk_setCount_ended resolved start settings count steps now
  rw [walked] at walkedAgain
  cases walkedAgain
  rw [Nat.sub_eq_zero_of_le spent] at bounded
  exact List.length_eq_zero_iff.1 (Nat.le_zero.1 bounded)

/-- As long as an occurrence is left, a walk takes the same step with the count as without it. Both
    have the same date first, and if they go on from the day after it, one more occurrence has
    passed by then. -/
theorem exists_common_step (resolved : rule.unsupported? = none)
    (weekBegins : ∃ first, start.date.weekStart? rule.weekStart = some first)
    (searching : 0 < settings.maxPeriods) {plain counted : Walk} {further : Nat}
    (walked : Schedule.walk ⟨rule.setCount none, some start⟩ settings (steps + 1) now = .ok plain)
    (walkedCounted : Schedule.walk ⟨rule.setCount (some count), some start⟩ settings (further + 1)
      now = .ok counted)
    (left : rule.passed start now < count.toNat) (given : plain.dates ≠ []) :
    ∃ date, plain.dates = [date] ∧ counted.dates = [date] ∨
      ∃ following rest restCounted,
        rule.passed start following = rule.passed start now + 1 ∧
        Schedule.walk ⟨rule.setCount none, some start⟩ settings steps following = .ok rest ∧
        Schedule.walk ⟨rule.setCount (some count), some start⟩ settings further following =
          .ok restCounted ∧
        plain.dates = date :: rest.dates ∧ counted.dates = date :: restCounted.dates := by
  have resolved' : (rule.setCount none).unsupported? = none := resolved
  obtain ⟨date, found, step⟩ := exists_step_of_walk walked given
  have foundCounted : Schedule.next ⟨rule.setCount (some count), some start⟩ now settings =
      .ok (some date) :=
    Rule.next_setCount_of_next resolved weekBegins searching left found
  refine ⟨date, ?_⟩
  rcases step with ⟨last, rfl⟩ | ⟨following, rest, after, walkedRest, rfl⟩
  · rw [walk_of_last foundCounted last] at walkedCounted
    cases walkedCounted
    exact Or.inl ⟨rfl, rfl⟩
  · obtain ⟨restCounted, walkedRestCounted, rfl⟩ :=
      exists_rest_of_walk foundCounted after walkedCounted
    have least := ((Rule.next_eq_some_iff resolved').1 found).2.isLeast
    simp only [Rule.occurs_setCount] at least
    exact Or.inr ⟨following, rest, restCounted, Rule.passed_of_dayAfter? least after, walkedRest,
      walkedRestCounted, rfl, rfl⟩

/-- As far as occurrences are left, a counted walk has the dates that a walk has without the
    count. -/
theorem dates_walk_setCount (resolved : rule.unsupported? = none)
    (weekBegins : ∃ first, start.date.weekStart? rule.weekStart = some first)
    (searching : 0 < settings.maxPeriods) {plain counted : Walk} {further : Nat}
    (walked : Schedule.walk ⟨rule.setCount none, some start⟩ settings steps now = .ok plain)
    (walkedCounted : Schedule.walk ⟨rule.setCount (some count), some start⟩ settings further now =
      .ok counted)
    (long : count.toNat - rule.passed start now ≤ plain.dates.length)
    (enough : count.toNat - rule.passed start now ≤ further) :
    counted.dates = plain.dates.take (count.toNat - rule.passed start now) := by
  -- both walks take their steps together, until no occurrence is left
  induction steps generalizing now plain counted further with
  | zero =>
    cases walked
    have spent : count.toNat ≤ rule.passed start now :=
      Nat.sub_eq_zero_iff_le.1 (Nat.le_zero.1 long)
    rw [dates_eq_nil_of_passed resolved walkedCounted spent, List.take_nil]
  | succ steps ih =>
    by_cases left : rule.passed start now < count.toNat
    · obtain ⟨further, rfl⟩ := Nat.exists_eq_succ_of_ne_zero (show further ≠ 0 by omega)
      have given : plain.dates ≠ [] := by
        intro empty
        rw [empty, List.length_nil] at long
        omega
      obtain ⟨date, ⟨last, lastCounted⟩ |
          ⟨following, rest, restCounted, passed, walkedRest, walkedRestCounted, dates, same⟩⟩ :=
        exists_common_step resolved weekBegins searching walked walkedCounted left given
      · rw [lastCounted, last, List.take_of_length_le (by rw [List.length_singleton]; omega)]
      · rw [dates, List.length_cons] at long
        have sameRest := ih walkedRest walkedRestCounted (by omega) (by omega)
        have split : count.toNat - rule.passed start now =
            count.toNat - rule.passed start following + 1 := by omega
        rw [same, dates, split, List.take_succ_cons, sameRest]
    · rw [dates_eq_nil_of_passed resolved walkedCounted (not_lt.1 left),
        Nat.sub_eq_zero_of_le (not_lt.1 left), List.take_zero]

/-- A walk from the event start has no more dates than its rule counts, and given more steps than
    that it ends. If the walk without the count has that many dates, they are the same ones. -/
theorem walk_setCount (resolved : rule.unsupported? = none)
    (weekBegins : ∃ first, start.date.weekStart? rule.weekStart = some first)
    (early : now ≤ start) (searching : 0 < settings.maxPeriods) (count : UInt32) (steps : Nat) :
    ∃ walk, Schedule.walk ⟨rule.setCount (some count), some start⟩ settings steps now = .ok walk ∧
      walk.dates.length ≤ count.toNat ∧
      (count.toNat < steps → walk.Ended ∧ ∀ further plain,
        Schedule.walk ⟨rule.setCount none, some start⟩ settings further now = .ok plain →
        count.toNat ≤ plain.dates.length → walk.dates = plain.dates.take count.toNat) := by
  have passed : rule.passed start now = 0 := Rule.passed_of_le early
  obtain ⟨walk, walked, bounded, ended⟩ :=
    walk_setCount_ended resolved start settings count steps now
  rw [passed, Nat.sub_zero] at bounded ended
  refine ⟨walk, walked, bounded, fun enough => ⟨ended enough, ?_⟩⟩
  intro further plain walkedPlain long
  have same := dates_walk_setCount resolved weekBegins searching walkedPlain walked
    (by omega) (by omega)
  rwa [passed, Nat.sub_zero] at same

/-- Three Mondays and Fridays are counted from a Wednesday on; the Monday of that week comes before
    the event start and does not count. -/
theorem walk_setCount_mondays_and_fridays :
    ∃ start ∈ Date.ofYmd? 2018 1 3, ∃ walk,
      Schedule.walk
          ⟨Rule.setCount
            { frequency := .weekly
              byDay := [⟨none, .friday⟩, ⟨none, .monday⟩, ⟨none, .friday⟩] } (some 3),
            some (.atMidnight start)⟩
          {} 4 (.atMidnight start) = .ok walk ∧
        walk.dates.map (fun date => (date.month, date.day)) = [(1, 5), (1, 8), (1, 12)] ∧
        walk.Ended := by
  refine ⟨_, rfl, ?_⟩
  refine (walk_setCount ?resolved ⟨_, rfl⟩ ?early ?searching 3 4).imp
    fun walk ⟨walked, _, ended⟩ => ⟨walked, ?dates, (ended ?enough).1⟩
  case dates =>
    cases walked
    rfl
  case resolved => rfl
  all_goals decide

end Schedule

end Recurrence
