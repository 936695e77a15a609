import Recurrence.Occurrence.MonthDays
import Recurrence.Occurrence.Periods

/-!
# Monthly and yearly recurrence

Months and years are numbered from those in which the event starts. A month contributes the days
that the rule picks in it; positions then select among the days of one month, or of all listed
months of one year.
-/

namespace Recurrence

/-- The number of a month, counted through all years. -/
def monthNumber (year : Int) (month : Nat) : Int :=
  12 * year + month - 1

/-- The number of the month that holds a date. -/
def Date.monthNumber (date : Date) : Int :=
  Recurrence.monthNumber date.year date.month

/-- The months of `rule`, of which number 0 holds the date `start`. -/
def Periods.months (rule : Rule) (start : Date) : Periods where
  indexOf date := date.monthNumber - start.monthNumber
  candidates index :=
    let number := start.monthNumber + index
    let year := number / 12
    let month := (number % 12).toNat + 1
    if rule.byMonth = [] ∨ (month : Int) ∈ rule.byMonth then
      Position.select rule.byPosition (rule.monthDays start.day year month)
    else []

/-- The years of `rule`, of which number 0 holds the date `start`. A rule without months picks
    the anniversary of `start`, which a 29 February has in leap years only. -/
def Periods.years (rule : Rule) (start : Date) : Periods where
  indexOf date := date.year - start.year
  candidates index :=
    let year := start.year + index
    if rule.byMonth = [] then (Date.ofYmd? year start.month start.day).toList
    else
      let months := (List.range' 1 12).filter fun (month : Nat) => (month : Int) ∈ rule.byMonth
      Position.select rule.byPosition (months.flatMap (rule.monthDays start.day year))

end Recurrence
