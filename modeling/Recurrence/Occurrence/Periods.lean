import Recurrence.Calendar.Date

/-!
# Searching period by period

The weeks, months or years of a recurrence are numbered from the one in which the event starts.
A search visits every `interval`-th of them and takes the first candidate that is late enough.
-/

namespace Recurrence

/-- A division of time into numbered periods. -/
structure Periods where
  /-- The number of the period that holds a date. -/
  indexOf : Date → Int
  /-- The dates of a period that may be occurrences, in ascending order. -/
  candidates : Int → List Date

/-- The greatest number of a period. It is far beyond the last date of the calendar. -/
def maxIndex : Int := 0x7fffffffffffffff

/-- A number of a period, cut off at the greatest one. -/
def capIndex (index : Int) : Int := min index maxIndex

/-- The first multiple of `interval` that is not below `index`. -/
def roundUp (index : Int) (interval : Nat) : Int :=
  index + (interval - index % interval) % interval

namespace Periods

/-- The first candidate that is wanted, in `steps` periods that lie `interval` apart and begin
    with the period `index`. -/
def scan (periods : Periods) (wanted : Date → Bool) (interval : Nat) :
    (steps : Nat) → (index : Int) → Option Date
  | 0, _ => none
  | steps + 1, index =>
    match (periods.candidates index).find? wanted with
    | some date => some date
    | none => scan periods wanted interval steps (capIndex (index + interval))

/-- The first candidate on or after `anchor`, among the first `left` candidates on or after
    `start`, in `steps` periods that lie `interval` apart and begin with the period `index`. -/
def scanCounted (periods : Periods) (start anchor : Date) (interval : Nat) :
    (steps : Nat) → (index : Int) → (left : Nat) → Option Date
  | 0, _, _ => none
  | steps + 1, index, left =>
    let due := (periods.candidates index).filter (start ≤ ·)
    match (due.take left).find? (anchor ≤ ·) with
    | some date => some date
    | none =>
      if left ≤ due.length then none
      else scanCounted periods start anchor interval steps (index + interval) (left - due.length)

/-- The first occurrence on or after `anchor`. The search gives up after `limit` periods from
    the one that holds `anchor`; it begins there, but if there is a greatest number of
    occurrences, it has to count them from the start. -/
def firstOnOrAfter? (periods : Periods) (start anchor : Date) (interval limit : Nat)
    (count? : Option Nat) : Option Date :=
  let current := max 0 (periods.indexOf anchor)
  match count? with
  | none =>
    periods.scan (fun date => anchor ≤ date ∧ start ≤ date) interval limit
      (roundUp current interval)
  | some count =>
    let last := capIndex (current + capIndex (limit * interval))
    let steps := (min last (maxIndex - 1) / interval).toNat + 1
    periods.scanCounted start anchor interval steps 0 count

end Periods

end Recurrence
