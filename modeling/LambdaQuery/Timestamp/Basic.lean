/-
Moments of universal time, to the nanosecond.

* `Timestamp` — a day, a second of it and the nanoseconds past that second, which reach beyond a
  whole second while a leap second lasts;
* `Timestamp.ofParts?` — the moment of a date and a time of day at an offset from universal time;
* `Timestamp.compare` — the order of moments;
* `Timestamp.year`, … — the parts of a moment.
-/

import LambdaQuery.Timestamp.Calendar

namespace LambdaQuery

/-- A moment. -/
structure Timestamp where
  /-- The day, counted from the first day of the year 1. -/
  day : Int
  second : Nat
  nano : Nat
  second_lt : second < 86400
  nano_lt : nano < 2000000000
  deriving Repr, DecidableEq

namespace Timestamp

/-- The first moment of 1970. -/
def epoch : Timestamp where
  day := 719162
  second := 0
  nano := 0
  second_lt := by decide
  nano_lt := by decide

instance : Inhabited Timestamp := ⟨epoch⟩

/-- A time of day with its offset from universal time in seconds.  The second 60 is a leap
second. -/
structure Clock where
  hour : Nat
  minute : Nat
  second : Nat
  nano : Nat
  offset : Int
  deriving Repr, DecidableEq

/-- The first and the last year of the moments. -/
def firstYear : Int := -262143

def lastYear : Int := 262142

/-- Is the year one that moments may lie in? -/
def yearInRange (year : Int) : Bool := firstYear ≤ year && year ≤ lastYear

/-- Does the clock show a time of day, at less than a day from universal time? -/
def Clock.isValid (c : Clock) : Bool :=
  c.hour < 24 && c.minute < 60 && c.second ≤ 60 && c.nano < 1000000000
    && -86400 < c.offset && c.offset < 86400

/-- The moment of a date and a time of day. -/
def ofParts? (d : Date) (c : Clock) : Option Timestamp :=
  if d.IsValid ∧ yearInRange d.year ∧ c.isValid then
    let leap := c.second = 60
    let second : Int :=
      (c.hour * 3600 + c.minute * 60 + (if leap then 59 else c.second) : Nat) - c.offset
    let day := d.toDay + second / 86400
    let nano := if leap then c.nano + 1000000000 else c.nano
    if h : (second % 86400).toNat < 86400 ∧ nano < 2000000000 ∧ yearInRange (Date.yearOf day) then
      some { day, second := (second % 86400).toNat, nano, second_lt := h.1, nano_lt := h.2.1 }
    else none
  else none

/-- The order of moments. -/
protected def compare (s t : Timestamp) : Ordering :=
  (Ord.compare s.day t.day).then ((Ord.compare s.second t.second).then (Ord.compare s.nano t.nano))

def date (t : Timestamp) : Date := Date.ofDay t.day

def year (t : Timestamp) : Int := t.date.year

def month (t : Timestamp) : Nat := t.date.month

def dayOfMonth (t : Timestamp) : Nat := t.date.day

def hour (t : Timestamp) : Nat := t.second / 3600

def minute (t : Timestamp) : Nat := t.second / 60 % 60

def secondOfMinute (t : Timestamp) : Nat := t.second % 60

end Timestamp

end LambdaQuery
