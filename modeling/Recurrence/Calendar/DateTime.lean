import Recurrence.Calendar.Date

/-!
# Times of day and moments

A time of day is a number of nanoseconds since midnight. A date-time is a date with a time of
day, in no particular time zone; date-times are ordered by the nanoseconds that they lie on the
one time line of the calendar.
-/

namespace Recurrence

/-- The number of nanoseconds in a second. -/
def nanosPerSecond : Nat := 1000000000

/-- The number of nanoseconds in a day. -/
def nanosPerDay : Nat := 86400 * nanosPerSecond

/-- A time of day, given by the nanoseconds since midnight. Leap seconds are left out: no time has
    a second after 59, nor `nanosPerSecond` nanoseconds or more beyond the full second. -/
structure Time where
  nanos : Nat
  nanos_lt : nanos < nanosPerDay
  deriving DecidableEq

namespace Time

/-- The beginning of the day. -/
def midnight : Time := ⟨0, by decide⟩

/-- The time with a given hour, minute, second and nanosecond, if there is one. -/
def ofHms? (hour minute second nano : Nat) : Option Time :=
  if h : hour < 24 ∧ minute < 60 ∧ second < 60 ∧ nano < nanosPerSecond then
    some
      { nanos := ((hour * 60 + minute) * 60 + second) * nanosPerSecond + nano
        nanos_lt := by
          simp only [nanosPerDay, nanosPerSecond] at h ⊢
          omega }
  else none

/-- The hour of a time of day, from 0 to 23. -/
def hour (time : Time) : Nat := time.nanos / nanosPerSecond / 3600

/-- The minute of a time of day, from 0 to 59. -/
def minute (time : Time) : Nat := time.nanos / nanosPerSecond / 60 % 60

/-- The second of a time of day, from 0 to 59. -/
def second (time : Time) : Nat := time.nanos / nanosPerSecond % 60

/-- The nanoseconds of a time of day beyond the full second. -/
def nano (time : Time) : Nat := time.nanos % nanosPerSecond

/-- The time with a given hour, minute, second and nanosecond is the one that shows them. -/
theorem ofHms?_eq_some_iff {hour minute second nano : Nat} {time : Time} :
    ofHms? hour minute second nano = some time ↔
      time.hour = hour ∧ time.minute = minute ∧ time.second = second ∧ time.nano = nano := by
  simp only [ofHms?]
  constructor
  · intro h
    split at h
    case isFalse => cases h
    case isTrue bounds =>
      cases h
      simp only [Time.hour, Time.minute, Time.second, Time.nano, nanosPerSecond] at bounds ⊢
      omega
  · rintro ⟨rfl, rfl, rfl, rfl⟩
    have bound := time.nanos_lt
    rw [dif_pos (by simp only [Time.hour, Time.minute, Time.second, Time.nano, nanosPerDay,
      nanosPerSecond] at *; omega)]
    congr 1
    cases time
    simp only [Time.hour, Time.minute, Time.second, Time.nano, nanosPerSecond, mk.injEq] at *
    omega

end Time

/-- A date with a time of day. -/
structure DateTime where
  date : Date
  time : Time
  deriving DecidableEq

namespace DateTime

/-- The place of a date-time on the time line, in nanoseconds. -/
def instant (moment : DateTime) : Int :=
  moment.date.number * nanosPerDay + moment.time.nanos

instance : LE DateTime := ⟨fun a b => a.instant ≤ b.instant⟩

instance : LT DateTime := ⟨fun a b => a.instant < b.instant⟩

instance (a b : DateTime) : Decidable (a ≤ b) :=
  inferInstanceAs (Decidable (a.instant ≤ b.instant))

instance (a b : DateTime) : Decidable (a < b) :=
  inferInstanceAs (Decidable (a.instant < b.instant))

theorem le_iff {a b : DateTime} : a ≤ b ↔ a.instant ≤ b.instant := Iff.rfl

theorem lt_iff {a b : DateTime} : a < b ↔ a.instant < b.instant := Iff.rfl

/-- The beginning of a date. -/
def atMidnight (date : Date) : DateTime := ⟨date, .midnight⟩

/-- The date-time at a place on the time line, if the calendar holds its date. -/
def ofInstant? (instant : Int) : Option DateTime :=
  (Date.ofNumber? (instant / nanosPerDay)).map fun date =>
    { date
      time :=
        { nanos := (instant % nanosPerDay).toNat
          nanos_lt := by simp only [nanosPerDay, nanosPerSecond]; omega } }

/-- The date-time `seconds` seconds later, or earlier for a negative number, if the calendar
    holds its date. -/
def addSeconds? (moment : DateTime) (seconds : Int) : Option DateTime :=
  ofInstant? (moment.instant + seconds * nanosPerSecond)

theorem date_le_of_le {a b : DateTime} (h : a ≤ b) : a.date ≤ b.date := by
  have bound := b.time.nanos_lt
  simp only [nanosPerDay, nanosPerSecond] at bound
  simp only [le_iff, instant, nanosPerDay, nanosPerSecond] at h
  simp only [Date.le_iff]
  omega

end DateTime

end Recurrence
