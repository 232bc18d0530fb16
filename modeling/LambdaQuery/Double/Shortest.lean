/-
The shortest decimal that reads back as a given double.

* `Digits` — a decimal, `digits * 10 ^ exponent`;
* `Magnitude.readsBack` — the decimals that round to a double: those between the middles of the two
  gaps beside it, the middles included when the mantissa is even;
* `Magnitude.shortest` — of the decimals that read back one with the fewest digits, of those the
  nearest, and the upper of two that are equally near.
-/

import LambdaQuery.Double.Magnitude

namespace LambdaQuery.Double

/-- The decimal `digits * 10 ^ exponent`. -/
structure Digits where
  digits : Nat
  exponent : Int
  deriving Repr, DecidableEq

/-- Compares `a * 10 ^ i` with `n * 2 ^ j`, exactly. -/
def compareScaled (a : Nat) (i : Int) (n : Nat) (j : Int) : Ordering :=
  compare (a * Nat.pow 10 i.toNat * Nat.pow 2 (-j).toNat)
    (n * Nat.pow 2 j.toNat * Nat.pow 10 (-i).toNat)

namespace Magnitude

/-- Does the decimal lie among the reals that round to this magnitude?  The ends of that interval
are counted in quarters of the unit of the mantissa. -/
def readsBack (m : Magnitude) (d : Digits) : Bool :=
  let low := compareScaled d.digits d.exponent
    (4 * m.mantissa - if m.narrowBelow then 1 else 2) (m.exponent - 2)
  let high := compareScaled d.digits d.exponent (4 * m.mantissa + 2) (m.exponent - 2)
  let ends := m.mantissa % 2 == 0
  (low == .gt || (ends && low == .eq)) && (high == .lt || (ends && high == .eq))

/-- The least `k` with `mantissa * 2 ^ exponent < 10 ^ k`, found beside its estimate from the
binary logarithm. -/
def scale (m : Magnitude) : Int :=
  let estimate := ((m.mantissa.log2 : Int) + m.exponent) * 30103 / 100000
  let above k := compareScaled 1 k m.mantissa m.exponent == .gt
  ([estimate - 1, estimate, estimate + 1].find? above).getD (estimate + 2)

/-- The neighbour of this magnitude among the multiples of `10 ^ grid` that reads back, if there is
one; of two the nearer, and the upper when they are equally near. -/
def onGrid? (m : Magnitude) (grid : Int) : Option Digits :=
  let num := m.mantissa * Nat.pow 2 m.exponent.toNat * Nat.pow 10 (-grid).toNat
  let den := Nat.pow 2 (-m.exponent).toNat * Nat.pow 10 grid.toNat
  let below : Digits := ⟨num / den, grid⟩
  let above : Digits := ⟨num / den + 1, grid⟩
  match m.readsBack below, m.readsBack above with
  | true, true => if 2 * (num % den) < den then some below else some above
  | true, false => some below
  | false, true => some above
  | false, false => none

/-- Drops the zeros that end the digits, at most `n` of them. -/
def stripZeros : Nat → Digits → Digits
  | 0, d => d
  | n + 1, d =>
    if d.digits ≠ 0 ∧ d.digits % 10 = 0 then stripZeros n ⟨d.digits / 10, d.exponent + 1⟩ else d

/-- The shortest decimal that reads back.  The grids of one to seventeen digits are tried in turn;
past them the exact value stands, which no double needs. -/
def shortest (m : Magnitude) : Digits :=
  if m.mantissa = 0 then ⟨0, 0⟩
  else
    let k := m.scale
    let found := (List.range 17).findSome? fun n : Nat => m.onGrid? (k - ((n + 1 : Nat) : Int))
    let exact : Digits :=
      ⟨m.mantissa * Nat.pow 2 m.exponent.toNat * Nat.pow 5 (-m.exponent).toNat, min m.exponent 0⟩
    stripZeros 20 (found.getD exact)

end Magnitude

end LambdaQuery.Double
