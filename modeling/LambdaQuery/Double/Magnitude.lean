/-
The exact value of a double.

* `Magnitude`, `magnitude` — a finite double without its sign, as `mantissa * 2 ^ exponent`;
* `Magnitude.toDouble` — the double with a given magnitude;
* `remainder` — the remainder of the quotient rounded toward zero, which is always a double and so
  needs no rounding.
-/

import LambdaQuery.Double.Basic

namespace LambdaQuery.Double

/-- A finite double without its sign: `mantissa * 2 ^ exponent`. -/
structure Magnitude where
  mantissa : Nat
  exponent : Int
  /-- The double below is half as far away as the double above: the mantissa is the least of its
  exponent. -/
  narrowBelow : Bool
  deriving Repr, DecidableEq

/-- The magnitude of a finite double. -/
def magnitude (x : Double) : Magnitude :=
  if exponentField x = 0 then
    { mantissa := fractionField x, exponent := -1074, narrowBelow := false }
  else
    { mantissa := Nat.pow 2 52 + fractionField x, exponent := (exponentField x : Int) - 1075,
      narrowBelow := fractionField x == 0 && exponentField x != 1 }

/-- The double of magnitude `mantissa * 2 ^ exponent`, where the mantissa has at most fifty-three
bits and the exponent is at least `-1074`. -/
def Magnitude.toDouble (m : Magnitude) (negative : Bool) : Double :=
  let sign := if negative then Nat.pow 2 63 else 0
  let high := m.mantissa.log2
  let bits :=
    if m.mantissa = 0 then 0
    else if m.exponent + high ≥ -1022 then
      (m.exponent + high + 1023).toNat * Nat.pow 2 52
        + (m.mantissa * Nat.pow 2 (52 - high) - Nat.pow 2 52)
    else m.mantissa * Nat.pow 2 (m.exponent + 1074).toNat
  ⟨UInt64.ofNat (sign + bits)⟩

/-- The remainder of `x / y` with the quotient rounded toward zero; it has the sign of `x`.  The
smaller of the two exponents measures both operands, and the result has no more bits than they. -/
def remainder (x y : Double) : Double :=
  if isNaN x then x.quiet
  else if isNaN y then y.quiet
  else if isInfinite x then invalid
  else if isInfinite y then x
  else
    let a := magnitude x
    let b := magnitude y
    if b.mantissa = 0 then invalid
    else
      let e := min a.exponent b.exponent
      let r := (a.mantissa * Nat.pow 2 (a.exponent - e).toNat)
        % (b.mantissa * Nat.pow 2 (b.exponent - e).toNat)
      Magnitude.toDouble { mantissa := r, exponent := e, narrowBelow := false } (isNegative x)

end LambdaQuery.Double
