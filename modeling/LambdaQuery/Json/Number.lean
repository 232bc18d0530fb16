/-
Numbers of JSON documents.

* `Json.Number` — an integer of 64 bits, signed or not, or a double;
* `NumberText` — a number as it is written;
* `NumberText.value?` — its value; numbers past the greatest double have none.

A whole number that fits in 64 bits is an integer.  Any other is a double, computed from the first
digits that fit in 64 bits with one multiplication or division by a power of ten.
-/

import LambdaQuery.Double.Reader
import LambdaQuery.Text.Numeral

namespace LambdaQuery.Json

inductive Number
  /-- An integer from `-2 ^ 63` to `2 ^ 64 - 1`. -/
  | int (n : Int)
  | double (x : Double)
  deriving Repr

namespace Number

/-- The number as a double. -/
def toDouble : Number → Double
  | int n => Double.ofInt n
  | double x => x

/-- The number as a signed integer of 64 bits. -/
def toInt64? : Number → Option Int64
  | int n => if n < Nat.pow 2 63 then some (Int64.ofInt n) else none
  | double _ => none

end Number

/-- A number as it is written. -/
structure NumberText where
  negative : Bool
  /-- The digits before the point. -/
  whole : List Char
  /-- The digits after the point, if there is one. -/
  fraction : Option (List Char)
  /-- Whether the exponent is negative, and its digits. -/
  exponent : Option (Bool × List Char)
  deriving Repr

namespace NumberText

/-- The greatest value of 64 bits. -/
def wordMax : Nat := Nat.pow 2 64 - 1

/-- The value of a digit. -/
def digitValue (c : Char) : Nat := c.toNat - '0'.toNat

/-- Takes digits into a significand as long as it fits in 64 bits.  The result is the significand
and the digits that were left. -/
def accumulate : Nat → List Char → Nat × List Char
  | s, [] => (s, [])
  | s, d :: ds =>
    if 10 * s + digitValue d > wordMax then (s, d :: ds) else accumulate (10 * s + digitValue d) ds

/-- The double nearest to `10 ^ n`. -/
def powerOfTen (n : Nat) : Double := Double.ofFloat (Float.ofScientific 1 false n)

/-- `x * 10 ^ power`, where the powers that doubles have are applied in one step; `none` past the
greatest double. -/
def scale? (x : Double) (power : Int) : Option Double :=
  if power.natAbs ≤ 308 then
    if power ≥ 0 then
      let y := x * powerOfTen power.natAbs
      if Double.isInfinite y then none else some y
    else some (x / powerOfTen power.natAbs)
  else if x.equals 0.0 then some x
  else if h : power ≥ 0 then none
  else scale? (x / powerOfTen 308) (power + 308)
termination_by (-power).toNat

/-- The value of an exponent, `none` where it does not fit in 32 bits. -/
def exponentValue? (digits : List Char) : Option Nat :=
  let n := Text.digitsValue digits
  if n < Nat.pow 2 31 then some n else none

/-- The double of a significand and the power of ten that the digits give it, moved by the
exponent that is written. -/
def toDouble? (t : NumberText) (significand : Nat) (power : Int) : Option Double :=
  let signed (x : Double) : Double := if t.negative then -x else x
  match t.exponent with
  | none => (scale? (Double.ofInt significand) power).map signed
  | some (down, digits) =>
    match exponentValue? digits with
    | some e =>
      (scale? (Double.ofInt significand) (if down then power - e else power + e)).map signed
    | none => if significand = 0 ∨ down then some (signed 0.0) else none

/-- The value of a number. -/
def value? (t : NumberText) : Option Number :=
  let (significand, left) := accumulate 0 t.whole
  match t.fraction, t.exponent, left with
  | none, none, [] =>
    if !t.negative then some (.int significand)
    else if significand = 0 ∨ significand > Nat.pow 2 63 then
      some (.double (-(Double.ofInt significand)))
    else some (.int (-significand))
  | none, _, _ => (t.toDouble? significand left.length).map .double
  | some fraction, _, _ =>
    let (significand, rest) := accumulate significand fraction
    let taken := fraction.length - rest.length
    (t.toDouble? significand (left.length - taken)).map .double

end NumberText

end LambdaQuery.Json
