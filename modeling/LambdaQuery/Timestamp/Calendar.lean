/-
The calendar: dates of the Gregorian calendar, carried on into the past, and the days they number.

* `Date`, `Date.IsValid` — a year, a month and a day, and those that the calendar has;
* `Date.toDay` — the number of a date, counted from the first day of the year 1;
* `Date.ofDay` — the date of a day.
-/

namespace LambdaQuery

/-- A year, a month counted from 1 and a day of the month counted from 1. -/
structure Date where
  year : Int
  month : Nat
  day : Nat
  deriving Repr, DecidableEq

namespace Date

/-- Every fourth year is a leap year, of the hundredth years every fourth. -/
def isLeap (year : Int) : Bool := year % 4 == 0 && (year % 100 != 0 || year % 400 == 0)

/-- The lengths of the twelve months. -/
def monthLengths (leap : Bool) : List Nat :=
  [31, if leap then 29 else 28, 31, 30, 31, 30, 31, 31, 30, 31, 30, 31]

/-- The number of the first day of a year. -/
def daysBefore (year : Int) : Int :=
  365 * (year - 1) + (year - 1) / 4 - (year - 1) / 100 + (year - 1) / 400

/-- Does the calendar have the date? -/
def IsValid (d : Date) : Prop :=
  1 ≤ d.month ∧ d.month ≤ 12 ∧ 1 ≤ d.day ∧
    d.day ≤ (monthLengths (isLeap d.year)).getD (d.month - 1) 0

instance (d : Date) : Decidable d.IsValid := inferInstanceAs (Decidable (_ ∧ _))

/-- The number of days of the first so many months. -/
def daysOfMonths : Nat → List Nat → Nat
  | 0, _ | _, [] => 0
  | n + 1, length :: rest => length + daysOfMonths n rest

/-- The number of a date. -/
def toDay (d : Date) : Int :=
  daysBefore d.year +
    (daysOfMonths (d.month - 1) (monthLengths (isLeap d.year)) + (d.day - 1) : Nat)

/-- The year that a day lies in: the mean length of a year gives it or one of its neighbours. -/
def yearOf (n : Int) : Int :=
  let guess := n * 400 / 146097 + 1
  if n < daysBefore guess then guess - 1
  else if daysBefore (guess + 1) ≤ n then guess + 1
  else guess

/-- The month and the day of the month of the day `n`, both counted from 0, where the months have
the given lengths. -/
def monthAndDay : List Nat → Nat → Nat × Nat
  | [], n => (0, n)
  | length :: rest, n =>
    if n < length then (0, n)
    else
      let (month, day) := monthAndDay rest (n - length)
      (month + 1, day)

/-- The date of a day. -/
def ofDay (n : Int) : Date :=
  let year := yearOf n
  let (month, day) := monthAndDay (monthLengths (isLeap year)) (n - daysBefore year).toNat
  { year, month := month + 1, day := day + 1 }

end Date

end LambdaQuery
