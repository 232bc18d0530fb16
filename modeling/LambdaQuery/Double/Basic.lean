/-
Doubles by their bits.

* `Double` — a double of 64 bits; every pattern of bits is one of its own, so that there are many
  NaNs;
* `exponentField`, `fractionField`, `isNegative`, `isNaN`, `isInfinite`, `isFinite` — its parts and
  its kind;
* `Double.toFloat`, `Double.ofFloat` — the number that a double stands for, and the double of a
  number;
* `Double.operate` — an operation of two doubles, by which they are added, subtracted, multiplied
  and divided;
* `Double.equals` — the equality of the numbers that doubles stand for.
-/

namespace LambdaQuery

/-- A double, given by its bits. -/
structure Double where
  bits : UInt64
  deriving Repr, DecidableEq, Inhabited

namespace Double

/-- The eleven exponent bits. -/
def exponentField (x : Double) : Nat := (x.bits.toNat / Nat.pow 2 52) % Nat.pow 2 11

/-- The fifty-two fraction bits. -/
def fractionField (x : Double) : Nat := x.bits.toNat % Nat.pow 2 52

/-- Is the sign bit set?  It is for `-0.0`, and it may be for a NaN. -/
def isNegative (x : Double) : Bool := x.bits.toNat / Nat.pow 2 63 == 1

def isNaN (x : Double) : Bool := exponentField x == 2047 && fractionField x != 0

def isInfinite (x : Double) : Bool := exponentField x == 2047 && fractionField x == 0

def isFinite (x : Double) : Bool := exponentField x != 2047

/-- The number that a double stands for; all NaNs stand for one. -/
def toFloat (x : Double) : Float := Float.ofBits x.bits

/-! ### Arithmetic -/

/-- What an invalid operation gives.  The standard asks for some NaN here; this is the one of the
common processors, whose sign bit is set. -/
def invalid : Double := ⟨0xfff8000000000000⟩

/-- The double of a number. -/
def ofFloat (x : Float) : Double :=
  let d : Double := ⟨x.toBits⟩
  if d.isNaN then invalid else d

/-- A NaN as an operation passes it on: with the first bit of its fraction set. -/
def quiet (x : Double) : Double := ⟨x.bits ||| 0x0008000000000000⟩

/-- An operation on two doubles.  The first NaN among them is passed on. -/
def operate (op : Float → Float → Float) (x y : Double) : Double :=
  if x.isNaN then x.quiet
  else if y.isNaN then y.quiet
  else ofFloat (op x.toFloat y.toFloat)

instance : Add Double := ⟨operate (· + ·)⟩
instance : Sub Double := ⟨operate (· - ·)⟩
instance : Mul Double := ⟨operate (· * ·)⟩
instance : Div Double := ⟨operate (· / ·)⟩

/-- The sign bit is turned round, that of a NaN as well. -/
instance : Neg Double := ⟨fun x => ⟨x.bits ^^^ 0x8000000000000000⟩⟩

instance : OfScientific Double := ⟨fun m s e => ofFloat (OfScientific.ofScientific m s e)⟩

/-- The equality of numbers: zeros of either sign are equal, and a NaN equals nothing. -/
def equals (x y : Double) : Bool := x.toFloat == y.toFloat

end Double

end LambdaQuery
