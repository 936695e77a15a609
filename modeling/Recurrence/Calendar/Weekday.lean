/-!
# Days of the week

The week runs from Sunday to Saturday. Each day has a two-letter code, which is how a rule text
writes it.
-/

namespace Recurrence

/-- A day of the week. -/
inductive Weekday where
  | sunday
  | monday
  | tuesday
  | wednesday
  | thursday
  | friday
  | saturday
  deriving DecidableEq

namespace Weekday

/-- The seven days, from Sunday to Saturday. -/
def all : List Weekday :=
  [sunday, monday, tuesday, wednesday, thursday, friday, saturday]

/-- The place of a day in the week: 0 for Sunday up to 6 for Saturday. -/
def index : Weekday → Nat
  | sunday => 0
  | monday => 1
  | tuesday => 2
  | wednesday => 3
  | thursday => 4
  | friday => 5
  | saturday => 6

/-- The number of a day, from 1 for Sunday up to 7 for Saturday. -/
def ordinal (day : Weekday) : Nat :=
  day.index + 1

/-- The day `n` days after a Sunday. -/
def ofIndex (n : Nat) : Weekday :=
  match n % 7 with
  | 0 => sunday
  | 1 => monday
  | 2 => tuesday
  | 3 => wednesday
  | 4 => thursday
  | 5 => friday
  | _ => saturday

theorem index_lt (day : Weekday) : day.index < 7 := by
  cases day <;> decide

theorem ofIndex_index (day : Weekday) : ofIndex day.index = day := by
  cases day <;> rfl

theorem index_ofIndex (n : Nat) : (ofIndex n).index = n % 7 := by
  simp only [ofIndex]
  split <;> simp_all [index]
  omega

theorem index_inj {a b : Weekday} : a.index = b.index ↔ a = b := by
  constructor
  · intro h
    rw [← ofIndex_index a, h, ofIndex_index]
  · rintro rfl
    rfl

/-- The two-letter code of a day. -/
def code : Weekday → String
  | sunday => "SU"
  | monday => "MO"
  | tuesday => "TU"
  | wednesday => "WE"
  | thursday => "TH"
  | friday => "FR"
  | saturday => "SA"

/-- The day with a given code. Codes are upper case: `mo` is no code. -/
def ofCode? (text : String) : Option Weekday :=
  all.find? (·.code == text)

theorem ofCode?_eq_some_iff {text : String} {day : Weekday} :
    ofCode? text = some day ↔ day.code = text := by
  constructor
  · intro h
    simpa using List.find?_some h
  · rintro rfl
    cases day <;> decide

/-- The number of days to move forward from `day` to reach `target`, from 0 to 6. -/
def daysUntil (day target : Weekday) : Nat :=
  (target.index + 7 - day.index) % 7

/-- The day `n` days after `day`. -/
def addDays (day : Weekday) (n : Nat) : Weekday :=
  ofIndex (day.index + n)

theorem daysUntil_lt (day target : Weekday) : day.daysUntil target < 7 :=
  Nat.mod_lt _ (by decide)

theorem addDays_daysUntil (day target : Weekday) :
    day.addDays (day.daysUntil target) = target := by
  cases day <;> cases target <;> rfl

end Weekday

end Recurrence
