/-
Types of values, lambdas and queries.

* `Ty`, `RecordTy` — the types, and the types of records apart;
* `Ty.beq_iff`, `DecidableEq Ty` — equality of types is decidable;
* `Ty.isValue`, `Ty.acceptsNull`, `Ty.asNullable` — which types have no null, and the nullable forms
  of those;
* `Ty.element?` — the type of the elements of a collection;
* `RecordTy.field?` — the field of a name, its exact spelling first.
-/

import LambdaQuery.Text.Case

namespace LambdaQuery

inductive Ty
  /-- The type of all values. -/
  | object
  /-- The type of the literal `null`. -/
  | null
  | bool
  /-- Integers of 32 bits. -/
  | int
  /-- Integers of 64 bits. -/
  | long
  | double
  | string
  | timestamp
  | nullable (inner : Ty)
  /-- A record type; a type without a name is told apart by its fields alone. -/
  | record (name : Option String) (fields : List (String × Ty))
  | list (element : Ty)
  | sequence (element : Ty)
  /-- A key with the elements that share it. -/
  | grouping (key element : Ty)
  | query (element : Ty)
  /-- A query whose order has been set. -/
  | orderedQuery (element : Ty)
  | function (params : List Ty) (result : Ty)
  deriving Repr, Inhabited

namespace Ty

/-! ### Equality -/

mutual

/-- Are the types equal? -/
def beq : Ty → Ty → Bool
  | object, object => true
  | null, null => true
  | bool, bool => true
  | int, int => true
  | long, long => true
  | double, double => true
  | string, string => true
  | timestamp, timestamp => true
  | nullable s, nullable t => beq s t
  | record m fs, record n gs => m == n && beqFields fs gs
  | list s, list t => beq s t
  | sequence s, sequence t => beq s t
  | grouping j s, grouping k t => beq j k && beq s t
  | query s, query t => beq s t
  | orderedQuery s, orderedQuery t => beq s t
  | function ps s, function qs t => beqList ps qs && beq s t
  | _, _ => false

/-- Are the lists of fields equal? -/
def beqFields : List (String × Ty) → List (String × Ty) → Bool
  | [], [] => true
  | (m, s) :: fs, (n, t) :: gs => m == n && beq s t && beqFields fs gs
  | _, _ => false

/-- Are the lists of types equal? -/
def beqList : List Ty → List Ty → Bool
  | [], [] => true
  | s :: ss, t :: ts => beq s t && beqList ss ts
  | _, _ => false

end

mutual

theorem eq_of_beq : ∀ {s t : Ty}, beq s t = true → s = t
  | s, t => by
    intro h
    cases s <;> cases t <;> simp only [beq, Bool.false_eq_true, Bool.and_eq_true, beq_iff_eq] at h
    case nullable.nullable => rw [eq_of_beq h]
    case record.record => rw [h.1, eqFields_of_beq h.2]
    case list.list => rw [eq_of_beq h]
    case sequence.sequence => rw [eq_of_beq h]
    case grouping.grouping => rw [eq_of_beq h.1, eq_of_beq h.2]
    case query.query => rw [eq_of_beq h]
    case orderedQuery.orderedQuery => rw [eq_of_beq h]
    case function.function => rw [eqList_of_beq h.1, eq_of_beq h.2]
    all_goals rfl

theorem eqFields_of_beq : ∀ {fs gs : List (String × Ty)}, beqFields fs gs = true → fs = gs
  | [], [] => fun _ => rfl
  | (_, s) :: fs, (_, t) :: gs => fun h => by
    simp only [beqFields, Bool.and_eq_true, beq_iff_eq] at h
    rw [h.1.1, eq_of_beq h.1.2, eqFields_of_beq h.2]
  | [], _ :: _ => fun h => by simp [beqFields] at h
  | _ :: _, [] => fun h => by simp [beqFields] at h

theorem eqList_of_beq : ∀ {ss ts : List Ty}, beqList ss ts = true → ss = ts
  | [], [] => fun _ => rfl
  | s :: ss, t :: ts => fun h => by
    simp only [beqList, Bool.and_eq_true] at h
    rw [eq_of_beq h.1, eqList_of_beq h.2]
  | [], _ :: _ => fun h => by simp [beqList] at h
  | _ :: _, [] => fun h => by simp [beqList] at h

end

mutual

theorem beq_self : ∀ t : Ty, beq t t = true
  | object | null | bool | int | long | double | string | timestamp => rfl
  | nullable t | list t | sequence t | query t | orderedQuery t => by simp [beq, beq_self t]
  | record n fs => by simp [beq, beqFields_self fs]
  | grouping k t => by simp [beq, beq_self k, beq_self t]
  | function ps t => by simp [beq, beqList_self ps, beq_self t]

theorem beqFields_self : ∀ fs : List (String × Ty), beqFields fs fs = true
  | [] => rfl
  | (_, t) :: fs => by simp [beqFields, beq_self t, beqFields_self fs]

theorem beqList_self : ∀ ts : List Ty, beqList ts ts = true
  | [] => rfl
  | t :: ts => by simp [beqList, beq_self t, beqList_self ts]

end

theorem beq_iff {s t : Ty} : beq s t = true ↔ s = t :=
  ⟨eq_of_beq, fun h => h ▸ beq_self s⟩

instance : DecidableEq Ty := fun _ _ => decidable_of_iff _ beq_iff

/-! ### Kinds of types -/

/-- Has the type no null?  Numbers, booleans and timestamps have none unless they are nullable. -/
def isValue : Ty → Bool
  | bool | int | long | double | timestamp => true
  | _ => false

def isNullable : Ty → Bool
  | nullable _ => true
  | _ => false

/-- Is null a value of the type? -/
def acceptsNull (t : Ty) : Bool := !t.isValue

/-- The type without the nullability that stands outermost. -/
def underlying : Ty → Ty
  | nullable t => t
  | t => t

/-- The type without any nullability that stands outermost. -/
def base : Ty → Ty
  | nullable t => base t
  | t => t

/-- The type with null among its values; a type that has it already stays as it is. -/
def asNullable (t : Ty) : Ty := if t.isValue then nullable t else t

/-- The place of a numeric type, nullable or not, in the order of widening. -/
def numericRank? (t : Ty) : Option Nat :=
  match t.underlying with
  | int => some 1
  | long => some 2
  | double => some 3
  | _ => none

def isNumeric (t : Ty) : Bool := t.numericRank?.isSome

/-- The type of the elements, if the type is one of collections. -/
def element? : Ty → Option Ty
  | list t | sequence t | query t | orderedQuery t | grouping _ t => some t
  | _ => none

def isCollection (t : Ty) : Bool := t.element?.isSome

end Ty

/-! ### Records -/

/-- The type of a record: a name or none, and the fields in order. -/
structure RecordTy where
  name : Option String
  fields : List (String × Ty)
  deriving Repr, DecidableEq

namespace RecordTy

/-- The record type as a type. -/
def toTy (r : RecordTy) : Ty := .record r.name r.fields

/-- A field that was looked up: its place, its declared name and its type. -/
structure Found where
  index : Nat
  name : String
  type : Ty

/-- The first field whose name passes a test. -/
def find? (r : RecordTy) (test : String → Bool) : Option Found := do
  let index ← r.fields.findIdx? fun f => test f.1
  let (name, type) ← r.fields[index]?
  return { index, name, type }

/-- The field of a name.  The exact spelling wins; where case is ignored the first field that
differs from it in case alone comes next. -/
def field? (r : RecordTy) (name : String) (ignoreCase : Bool) : Option Found :=
  (r.find? (· == name)).or <|
    if ignoreCase then r.find? fun declared => Text.sameIgnoringCase declared name else none

end RecordTy

end LambdaQuery
