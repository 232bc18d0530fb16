/-
Values, their types, and which types they conform to.

* `Value` — the values;
* `Value.typeOf` — the type of a value, read off the value alone;
* `Value.conforms` — is a value one of the values of a type?
* `Value.elements?`, `Value.field?` — what a value holds;
* `Ty.default` — the value that stands for a missing one.
-/

import LambdaQuery.Double.Reader
import LambdaQuery.Timestamp.Basic
import LambdaQuery.Ty.Basic

namespace LambdaQuery

inductive Value
  | null
  | bool (b : Bool)
  | int (n : Int32)
  | long (n : Int64)
  | double (x : Double)
  | string (s : String)
  | timestamp (t : Timestamp)
  | sequence (items : List Value)
  /-- A record type with one value for each field, in the order of the fields. -/
  | record (type : RecordTy) (values : List Value)
  /-- A key with the elements that share it, in the order of the source. -/
  | grouping (key : Value) (elements : List Value)
  deriving Inhabited

namespace Value

def isNull : Value → Bool
  | null => true
  | _ => false

def isNumeric : Value → Bool
  | int _ | long _ | double _ => true
  | _ => false

/-- The elements of a sequence or a grouping. -/
def elements? : Value → Option (List Value)
  | sequence items => some items
  | grouping _ elements => some elements
  | _ => none

/-- The value of an integer of 32 or 64 bits. -/
def toInt64? : Value → Option Int64
  | int n => some n.toInt64
  | long n => some n
  | _ => none

/-- The value of a number of any kind as a double. -/
def toDouble? : Value → Option Double
  | int n => some (Double.ofInt n.toInt)
  | long n => some (Double.ofInt n.toInt)
  | double x => some x
  | _ => none

/-! ### Types of values -/

mutual

/-- The type of a value.  A sequence takes its element type from its first element that is not
null. -/
def typeOf : Value → Ty
  | null => .null
  | bool _ => .bool
  | int _ => .int
  | long _ => .long
  | double _ => .double
  | string _ => .string
  | timestamp _ => .timestamp
  | sequence items => .list (elementTypeOf items)
  | record type _ => type.toTy
  | grouping key elements => .grouping (typeOf key) (elementTypeOf elements)

/-- The type of the first value that is not null, `object` where there is none. -/
def elementTypeOf : List Value → Ty
  | [] => .object
  | null :: rest => elementTypeOf rest
  | v :: _ => typeOf v

end

mutual

/-- Is the value one of the values of the type?  Nullability matters to null alone.  The inner
values of sequences and groupings are looked at; those of a record are trusted to its type. -/
def conforms (v : Value) (t : Ty) : Bool :=
  match v with
  | null => t.acceptsNull
  | bool _ => t.base == .object || t.base == .bool
  | int _ => t.base == .object || t.base == .int
  | long _ => t.base == .object || t.base == .long
  | double _ => t.base == .object || t.base == .double
  | string _ => t.base == .object || t.base == .string
  | timestamp _ => t.base == .object || t.base == .timestamp
  | record type _ => t.base == .object || t.base == type.toTy
  | sequence items =>
    match t.base with
    | .object => true
    | .list e | .sequence e => conformAll items e
    | _ => false
  | grouping key elements =>
    match t.base with
    | .object => true
    | .grouping k e => conforms key k && conformAll elements e
    | .sequence e => conformAll elements e
    | _ => false

/-- Do all the values conform to the type? -/
def conformAll (vs : List Value) (t : Ty) : Bool :=
  match vs with
  | [] => true
  | v :: vs => conforms v t && conformAll vs t

end

/-- Null conforms to the types that have it among their values. -/
theorem conforms_null {t : Ty} : null.conforms t = t.acceptsNull := by
  simp [conforms]

/-- The value of a record's field, by its exact name. -/
def field? (v : Value) (name : String) : Option Value :=
  match v with
  | record type values => (type.field? name false).bind fun found => values[found.index]?
  | _ => none

end Value

/-- The value that stands for a missing one: zero, `false`, the first moment of 1970, and null for
every type that has it. -/
def Ty.default : Ty → Value
  | .bool => .bool false
  | .int => .int 0
  | .long => .long 0
  | .double => .double 0.0
  | .timestamp => .timestamp Timestamp.epoch
  | _ => .null

end LambdaQuery
