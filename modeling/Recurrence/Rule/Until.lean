import Recurrence.Calendar.DateTime
import Recurrence.Rule.ParseError
import Recurrence.Text.Decimal
import Recurrence.Text.Split

/-!
# The end of a recurrence

A recurrence may end with a day, which it still covers as a whole, or at a moment. Both are
written in basic format: `20180317`, `20180317T065959`, and with a final `Z` for a moment in
universal time.
-/

namespace Recurrence

/-- The last day or the last moment of a recurrence. -/
inductive Until where
  | day (date : Date)
  | moment (value : DateTime) (utc : Bool)
  deriving DecidableEq

namespace Until

/-- The date of the end. -/
def date : Until → Date
  | day date => date
  | moment value _ => value.date

/-- The end has passed: the day is over, or the moment is earlier than `now`. -/
def IsBefore (now : DateTime) : Until → Prop
  | day date => date < now.date
  | moment value _ => value < now

instance (now : DateTime) (bound : Until) : Decidable (bound.IsBefore now) :=
  match bound with
  | day date => inferInstanceAs (Decidable (date < now.date))
  | moment value _ => inferInstanceAs (Decidable (value < now))

/-- A year with at least four digits. A sign marks a year outside 0 to 9999. -/
def yearText (year : Int) : List Char :=
  let digits := Decimal.padded 4 year.natAbs
  if year < 0 then '-' :: digits
  else if year ≤ 9999 then digits
  else '+' :: digits

/-- A date in basic format. -/
def dateText (date : Date) : List Char :=
  yearText date.year ++ Decimal.padded 2 date.month ++ Decimal.padded 2 date.day

/-- A time of day in basic format, without fractions of a second. -/
def timeText (time : Time) : List Char :=
  Decimal.padded 2 time.hour ++ Decimal.padded 2 time.minute ++ Decimal.padded 2 time.second

/-- The written form of the end of a recurrence. -/
def text : Until → List Char
  | day date => dateText date
  | moment value utc =>
    dateText value.date ++ 'T' :: timeText value.time ++ if utc then ['Z'] else []

/-- The date that eight digits denote. -/
def readDate? (text : List Char) : Option Date := do
  guard (text.length = 8)
  let year ← Decimal.readNat? (text.take 4)
  let month ← Decimal.readNat? ((text.drop 4).take 2)
  let day ← Decimal.readNat? (text.drop 6)
  Date.ofYmd? year month day

/-- The time of day that six digits denote. -/
def readTime? (text : List Char) : Option Time := do
  guard (text.length = 6)
  let hour ← Decimal.readNat? (text.take 2)
  let minute ← Decimal.readNat? ((text.drop 2).take 2)
  let second ← Decimal.readNat? (text.drop 4)
  Time.ofHms? hour minute second 0

/-- The end of a recurrence that a text denotes. -/
def read? (text : List Char) : Option Until :=
  match splitFirst? 'T' text with
  | none => (readDate? text).map day
  | some (dateDigits, rest) => do
    let date ← readDate? dateDigits
    let utc := rest.getLast? = some 'Z'
    let time ← readTime? (if utc then rest.dropLast else rest)
    some (moment ⟨date, time⟩ utc)

/-- Reads the end of a recurrence, or reports the text. -/
def parse (text : List Char) : Except ParseError Until :=
  match read? text with
  | some bound => .ok bound
  | none => .error (.invalidUntil (String.ofList text))

end Until

end Recurrence
