/-
How a double is written: its shortest digits, laid out by a format.

* `Layout` — the decisions of a format: which exponents are written with a decimal point alone,
  whether a whole number shows `.0`, whether an exponent shows its `+`;
* `Layout.plain`, `Layout.literal`, `Layout.json` — the formats of this library;
* `Layout.write` — the text of a double in a format.
-/

import LambdaQuery.Double.Shortest

namespace LambdaQuery.Double

/-- The decisions of a number format. -/
structure Layout where
  /-- The least and the greatest power of ten that are written without an exponent, or `none` where
  all are. -/
  positional : Option (Int × Int)
  /-- Does a whole number show a fraction of `.0`? -/
  showsFraction : Bool
  /-- Does a positive exponent show its sign? -/
  showsPlus : Bool
  deriving Repr

namespace Layout

/-- The format of values in texts: never an exponent, no needless fraction. -/
def plain : Layout := { positional := none, showsFraction := false, showsPlus := false }

/-- The format of number tokens in messages: a fraction or an exponent always shows. -/
def literal : Layout := { positional := some (-4, 15), showsFraction := true, showsPlus := false }

/-- The format of JSON documents. -/
def json : Layout := { positional := some (-5, 15), showsFraction := true, showsPlus := true }

/-- Digits with a decimal point: `whole` of them stand before it, zeros filling up on either
side. -/
def placePoint (format : Layout) (digits : List Char) (whole : Int) : String :=
  let head :=
    if whole ≤ 0 then ['0']
    else digits.take whole.toNat ++ List.replicate (whole.toNat - digits.length) '0'
  let tail := List.replicate (-whole).toNat '0' ++ digits.drop whole.toNat
  if tail.isEmpty then String.ofList head ++ (if format.showsFraction then ".0" else "")
  else String.ofList head ++ "." ++ String.ofList tail

/-- Digits with an exponent: one digit before the point, and no point after a single digit. -/
def placeExponent (format : Layout) (digits : List Char) (power : Int) : String :=
  let tail := digits.drop 1
  String.ofList (digits.take 1)
    ++ (if tail.isEmpty then "" else "." ++ String.ofList tail)
    ++ "e" ++ (if format.showsPlus && power ≥ 0 then "+" else "") ++ toString power

/-- A decimal that is not negative, in the format. -/
def writeDigits (format : Layout) (d : Digits) : String :=
  let digits := Nat.toDigits 10 d.digits
  let power := d.exponent + digits.length - 1
  let positional :=
    match format.positional with
    | none => true
    | some (low, high) => d.digits == 0 || (low ≤ power && power ≤ high)
  if positional then placePoint format digits (d.exponent + digits.length)
  else placeExponent format digits power

/-- The text of a double. -/
def write (format : Layout) (x : Double) : String :=
  if isNaN x then "NaN"
  else
    (if isNegative x then "-" else "") ++
      if isInfinite x then "inf" else writeDigits format (magnitude x).shortest

end Layout

end LambdaQuery.Double
