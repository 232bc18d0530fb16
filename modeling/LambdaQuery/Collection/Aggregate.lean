/-
One value out of many: counts, sums, averages, the least and the greatest.

* `Collection.sum` — the sum of the values that are not null, refused where an integer sum leaves
  its width on the way;
* `Collection.average` — their mean as a double;
* `Collection.min`, `Collection.max` — the first of the least and of the greatest values.

Sums of doubles start from `-0.0`, which is the neutral element of their addition.
-/

import LambdaQuery.Collection.Error
import LambdaQuery.Integer.Width
import LambdaQuery.Value.Order

namespace LambdaQuery.Collection

/-- A count as an integer of 32 bits. -/
def count (n : Nat) : Except CollectionError Value :=
  if fits 32 n then .ok (.int (Int32.ofNat n)) else .error .overflow

/-- The value of an integer of 32 bits. -/
def int32? : Value → Option Int
  | .int n => some n.toInt
  | _ => none

/-- The value of an integer of either width. -/
def int64? (v : Value) : Option Int := v.toInt64?.map Int64.toInt

/-- Adds integers to a sum, which may not leave its width. -/
def sumInts (bits : Nat) (read : Value → Option Int) (sum : Int) :
    List Value → Except CollectionError Int
  | [] => .ok sum
  | v :: vs =>
    match read v with
    | none => .error (.notNumeric v)
    | some n => if fits bits (sum + n) then sumInts bits read (sum + n) vs else .error .overflow

/-- Adds numbers to a sum of doubles. -/
def sumDoubles (sum : Double) : List Value → Except CollectionError Double
  | [] => .ok sum
  | v :: vs =>
    match v.toDouble? with
    | none => .error (.notNumeric v)
    | some x => sumDoubles (sum + x) vs

/-- The values that are not null. -/
def present (values : List Value) : List Value := values.filter fun v => !v.isNull

/-- The sum of the values that are not null, as a value of the given type. -/
def sum (values : List Value) (type : Ty) : Except CollectionError Value :=
  match type.underlying with
  | .int => (sumInts 32 int32? 0 (present values)).map fun n => .int (Int32.ofInt n)
  | .long => (sumInts 64 int64? 0 (present values)).map fun n => .long (Int64.ofInt n)
  | .double => (sumDoubles (-0.0) (present values)).map .double
  | other => .error (.cannotSum other)

/-- The mean of the values that are not null.  Without any it is null if the type has null. -/
def average (values : List Value) (type : Ty) : Except CollectionError Value := do
  let total ← sumDoubles 0.0 (present values)
  match (present values).length with
  | 0 => if type.acceptsNull then .ok .null else .error .empty
  | n => .ok (.double (total / Double.ofInt n))

/-- The first value that no later one beats, where a value beats another if their order is
`wanted`. -/
def extreme (wanted : Ordering) (values : List Value) (type : Ty) : Except CollectionError Value :=
  match if type.acceptsNull then present values else values with
  | [] => if type.acceptsNull then .ok .null else .error .empty
  | v :: vs => .ok (vs.foldl (fun best v => if v.compare best == wanted then v else best) v)

/-- The least value.  Nulls are passed over if the type has null. -/
def min (values : List Value) (type : Ty) : Except CollectionError Value := extreme .lt values type

/-- The greatest value.  Nulls are passed over if the type has null. -/
def max (values : List Value) (type : Ty) : Except CollectionError Value := extreme .gt values type

end LambdaQuery.Collection
