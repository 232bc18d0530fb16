/-
From decimals and integers to doubles, and the order of doubles.

* `nearest` — the double nearest to a decimal; what lies past the greatest double is infinite;
* `roundHalfEven`, `natBits`, `ofInt` — the double nearest to an integer, the even one of two that
  are equally near;
* `orderKey`, `totalCompare` — the total order of IEEE 754, in which `-0.0` lies below `0.0`, the
  NaNs whose sign bit is set below all else, and the others above all else;
* `same` — the equality of keys.
-/

import LambdaQuery.Double.Magnitude

namespace LambdaQuery.Double

/-- Positive infinity. -/
def infinity : Double := ⟨0x7ff0000000000000⟩

/-- The double nearest to `digits * 10 ^ exponent`.  Powers of ten far outside the range of doubles
are answered without computing them. -/
def nearest (digits : Nat) (exponent : Int) : Double :=
  let power := exponent + ((Nat.toDigits 10 digits).length : Int)
  if digits = 0 then 0.0
  else if power > 400 then infinity
  else if power < -400 then 0.0
  else ofFloat (Float.ofScientific digits (exponent < 0) exponent.natAbs)

/-! ### Integers -/

/-- The integer nearest to `n / 2 ^ k`, the even one of two that are equally near. -/
def roundHalfEven (n k : Nat) : Nat :=
  let q := n / Nat.pow 2 k
  let r := n % Nat.pow 2 k
  if 2 * r < Nat.pow 2 k ∨ (2 * r = Nat.pow 2 k ∧ q % 2 = 0) then q else q + 1

/-- A positive integer measured in units of the last of its fifty-three leading bits.  Rounding may
carry it to `2 ^ 53`. -/
def significand (n : Nat) : Nat :=
  if n.log2 ≤ 52 then n * Nat.pow 2 (52 - n.log2) else roundHalfEven n (n.log2 - 52)

/-- The bits of positive infinity, the greatest of those that name no NaN. -/
def infinityBits : Nat := 2047 * Nat.pow 2 52

/-- The bits of the double nearest to a natural number.  The leading bit of the significand is added
to the exponent field, and so is the carry of rounding. -/
def natBits (n : Nat) : Nat :=
  if n = 0 then 0 else min ((n.log2 + 1022) * Nat.pow 2 52 + significand n) infinityBits

/-- The double nearest to an integer. -/
def ofInt (n : Int) : Double :=
  ⟨UInt64.ofNat ((if n < 0 then Nat.pow 2 63 else 0) + natBits n.natAbs)⟩

/-! ### Order -/

/-- The place of a double in the total order: its bits, turned round below zero. -/
def orderKey (x : Double) : Int :=
  if isNegative x then -1 - ((x.bits.toNat % Nat.pow 2 63 : Nat) : Int) else (x.bits.toNat : Int)

/-- The total order of IEEE 754. -/
def totalCompare (x y : Double) : Ordering := compare (orderKey x) (orderKey y)

/-- Equality that is total: zeros of either sign are equal, and so are all NaNs. -/
def same (x y : Double) : Bool := x.equals y || (isNaN x && isNaN y)

end LambdaQuery.Double
