/-
Timestamps as texts.

* `Timestamp.format` — `YYYY-MM-DDTHH:MM:SS` with 0, 3, 6 or 9 digits of fraction, the fewest that
  lose nothing, and `+00:00`;
* `Timestamp.parse?` — three spellings, tried in this order: a date, a time and an offset from
  universal time; a date and a time, read as universal time; a date alone, read as its midnight.

The first spelling allows blanks around its signs and before its numbers, a space in the place of
the `T`, and `Z` or `UTC` for the offset.  The other two allow blanks before numbers only.  A year
with a sign may have any number of digits.
-/

import LambdaQuery.Text.Blank
import LambdaQuery.Text.Numeral
import LambdaQuery.Timestamp.Basic

namespace LambdaQuery.Timestamp

open Text

/-! ### Writing -/

/-- A number with zeros before it, up to a width. -/
def padded (width n : Nat) : String :=
  let digits := toString n
  String.ofList (List.replicate (width - digits.length) '0') ++ digits

/-- A year: four digits, and outside of them a sign with at least four digits. -/
def formatYear (year : Int) : String :=
  if 0 ≤ year ∧ year ≤ 9999 then padded 4 year.toNat
  else (if year < 0 then "-" else "+") ++ padded 4 year.natAbs

/-- The fraction of a second, in the fewest groups of three digits. -/
def formatFraction (nano : Nat) : String :=
  if nano = 0 then ""
  else if nano % 1000000 = 0 then "." ++ padded 3 (nano / 1000000)
  else if nano % 1000 = 0 then "." ++ padded 6 (nano / 1000)
  else "." ++ padded 9 nano

/-- The text of a moment. -/
def format (t : Timestamp) : String :=
  let second := t.secondOfMinute + t.nano / 1000000000
  formatYear t.year ++ "-" ++ padded 2 t.month ++ "-" ++ padded 2 t.dayOfMonth
    ++ "T" ++ padded 2 t.hour ++ ":" ++ padded 2 t.minute ++ ":" ++ padded 2 second
    ++ formatFraction (t.nano % 1000000000) ++ "+00:00"

/-! ### Reading -/

def skipBlanks (cs : List Char) : List Char := cs.dropWhile isBlank

/-- A number of one to `width` digits, blanks before it allowed. -/
def number (width : Nat) (cs : List Char) : Option (Nat × List Char) :=
  let cs := skipBlanks cs
  let digits := (cs.takeWhile isDigit).take width
  if digits.isEmpty then none else some (digitsValue digits, cs.drop digits.length)

/-- A year: up to four digits, or a sign and any number of them. -/
def yearNumber (cs : List Char) : Option (Int × List Char) :=
  let signed (sign : Int) (cs : List Char) : Option (Int × List Char) :=
    let digits := cs.takeWhile isDigit
    if digits.isEmpty then none
    else some (sign * digitsValue digits, cs.dropWhile isDigit)
  match skipBlanks cs with
  | '-' :: rest => signed (-1) rest
  | '+' :: rest => signed 1 rest
  | cs => (number 4 cs).map fun (n, rest) => (n, rest)

/-- One given character, blanks before it allowed where `loose`. -/
def mark (c : Char) (loose : Bool) (cs : List Char) : Option (List Char) :=
  match if loose then skipBlanks cs else cs with
  | d :: rest => if d = c then some rest else none
  | [] => none

/-- `year-month-day` -/
def dateText (loose : Bool) (cs : List Char) : Option (Date × List Char) := do
  let (year, cs) ← yearNumber cs
  let cs ← mark '-' loose cs
  let (month, cs) ← number 2 cs
  let cs ← mark '-' loose cs
  let (day, cs) ← number 2 cs
  return ({ year, month, day }, cs)

/-- The nanoseconds after a decimal point, if there is one; digits past the ninth are passed
over. -/
def fractionText (cs : List Char) : Option (Nat × List Char) :=
  match cs with
  | '.' :: rest =>
    let digits := rest.takeWhile isDigit
    if digits.isEmpty then none
    else
      let kept := digits.take 9
      some (digitsValue kept * Nat.pow 10 (9 - kept.length), rest.dropWhile isDigit)
  | _ => some (0, cs)

/-- `hour:minute:second` with a fraction or without. -/
def clockText (loose : Bool) (cs : List Char) : Option (Clock × List Char) := do
  let (hour, cs) ← number 2 cs
  let cs ← mark ':' loose cs
  let (minute, cs) ← number 2 cs
  let cs ← mark ':' loose cs
  let (second, cs) ← number 2 cs
  let (nano, cs) ← fractionText cs
  return ({ hour, minute, second, nano, offset := 0 }, cs)

/-- Two digits. -/
def twoDigits : List Char → Option (Nat × List Char)
  | a :: b :: rest => if isDigit a && isDigit b then some (digitsValue [a, b], rest) else none
  | _ => none

/-- The hours and minutes of an offset, colons and blanks between them allowed. -/
def offsetMinutes (cs : List Char) : Option (Int × List Char) := do
  let (hours, cs) ← twoDigits cs
  let (minutes, cs) ← twoDigits (cs.dropWhile fun c => c == ':' || isBlank c)
  if minutes < 60 then return ((hours * 3600 + minutes * 60 : Nat), cs) else none

/-- An offset from universal time, in seconds. -/
def offsetText : List Char → Option (Int × List Char)
  | 'Z' :: rest | 'z' :: rest => some (0, rest)
  | '+' :: rest => offsetMinutes rest
  | '-' :: rest | '−' :: rest => (offsetMinutes rest).map fun (n, cs) => (-n, cs)
  | u :: t :: c :: rest =>
    if (u == 'u' || u == 'U') && (t == 't' || t == 'T') && (c == 'c' || c == 'C') then
      some (0, rest)
    else none
  | _ => none

/-- A date, a time and an offset. -/
def withOffset? (cs : List Char) : Option Timestamp := do
  let (date, cs) ← dateText true cs
  let cs ← match cs with
    | 'T' :: rest | 't' :: rest | ' ' :: rest => some rest
    | _ => none
  let (clock, cs) ← clockText true cs
  let (offset, cs) ← offsetText (skipBlanks cs)
  if cs.all isBlank then ofParts? date { clock with offset } else none

/-- A date and a time. -/
def withoutOffset? (cs : List Char) : Option Timestamp := do
  let (date, cs) ← dateText false cs
  let cs ← mark 'T' false cs
  let (clock, cs) ← clockText false cs
  if cs.isEmpty then ofParts? date clock else none

/-- A date. -/
def dateOnly? (cs : List Char) : Option Timestamp := do
  let (date, cs) ← dateText false cs
  if cs.isEmpty then ofParts? date { hour := 0, minute := 0, second := 0, nano := 0, offset := 0 }
  else none

/-- The moment that a text names. -/
def parse? (text : String) : Option Timestamp :=
  let cs := text.toList
  (withOffset? cs).or ((withoutOffset? cs).or (dateOnly? cs))

end LambdaQuery.Timestamp
