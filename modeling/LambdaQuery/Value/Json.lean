/-
Values in JSON and out of it.

* `Value.toJson` — the JSON of a value: a record as an object with its fields in order, a grouping
  as its key and its elements, a timestamp as its text, and null for infinities and NaN;
* `Value.ofJson` — the value of a type that a JSON value stands for; fields that an object lacks are
  read as null, members that no field asks for are passed over;
* `Value.ofUntyped` — the value that a JSON value stands for by itself.
-/

import LambdaQuery.Integer.Width
import LambdaQuery.Timestamp.Text
import LambdaQuery.Value.Error

namespace LambdaQuery.Value

/-! ### Writing -/

mutual

/-- The JSON of a value. -/
def toJson : Value → Json
  | null => .null
  | bool b => .bool b
  | int n => .number (.int n.toInt)
  | long n => .number (.int n.toInt)
  | double x => if Double.isFinite x then .number (.double x) else .null
  | string s => .string s
  | timestamp t => .string t.format
  | sequence items => .array (toJsonAll items)
  | record type values => .object (toMembers type.fields values)
  | grouping key elements =>
    .object [("key", toJson key), ("elements", .array (toJsonAll elements))]

/-- The JSON of several values. -/
def toJsonAll : List Value → List Json
  | [] => []
  | v :: vs => toJson v :: toJsonAll vs

/-- The members of a record, in the order of its fields. -/
def toMembers (fields : List (String × Ty)) (values : List Value) : List (String × Json) :=
  match fields, values with
  | (name, _) :: fields, v :: vs => (name, toJson v) :: toMembers fields vs
  | _, _ => []

end

/-- The JSON text of a value. -/
def toJsonText (v : Value) : String := v.toJson.write

/-! ### Reading -/

/-- The least integer width that holds a number: 32 bits, then 64, then a double. -/
def ofNumber (n : Json.Number) : Value :=
  match n.toInt64? with
  | some m =>
    if fits 32 m.toInt then int m.toInt32 else long m
  | none => double n.toDouble

mutual

/-- The value that a JSON value stands for by itself: an object is a record without a name whose
field types are those of its values, made nullable. -/
def ofUntyped : Json → Value
  | .null => null
  | .bool b => bool b
  | .number n => ofNumber n
  | .string s => string s
  | .array items => sequence (ofUntypedAll items)
  | .object members =>
    let fields := ofUntypedMembers members
    record { name := none, fields := fields.map fun (name, v) => (name, v.typeOf.asNullable) }
      (fields.map (·.2))

/-- The values of the elements of an array. -/
def ofUntypedAll : List Json → List Value
  | [] => []
  | j :: js => ofUntyped j :: ofUntypedAll js

/-- The values of the members of an object. -/
def ofUntypedMembers : List (String × Json) → List (String × Value)
  | [] => []
  | (name, j) :: rest => (name, ofUntyped j) :: ofUntypedMembers rest

end

/-- An integer of 32 bits. -/
def int32? (n : Json.Number) : Option Value :=
  n.toInt64?.bind fun m =>
    if fits 32 m.toInt then some (int m.toInt32) else none

mutual

/-- The value of a type that a JSON value stands for. -/
def ofJson (t : Ty) (j : Json) : Except ValueError Value :=
  let mismatch : Except ValueError Value := .error (.mismatch t j)
  let unsupported : Except ValueError Value :=
    match j with
    | .null => .ok null
    | _ => .error (.unsupported t)
  match t with
  | .nullable inner =>
    match j with
    | .null => .ok null
    | _ => ofJson inner j
  | .object => .ok (ofUntyped j)
  | .bool =>
    match j with
    | .bool b => .ok (bool b)
    | _ => mismatch
  | .int =>
    match j with
    | .number n => ((int32? n).map .ok).getD mismatch
    | _ => mismatch
  | .long =>
    match j with
    | .number n => (n.toInt64?.map fun m => .ok (long m)).getD mismatch
    | _ => mismatch
  | .double =>
    match j with
    | .number n => .ok (double n.toDouble)
    | _ => mismatch
  | .timestamp =>
    match j with
    | .string s =>
      match Timestamp.parse? s with
      | some t => .ok (timestamp t)
      | none => .error (.timestamp s)
    | _ => mismatch
  | .null =>
    match j with
    | .null => .ok null
    | _ => mismatch
  | .string =>
    match j with
    | .null => .ok null
    | .string s => .ok (string s)
    | _ => mismatch
  | .list element | .sequence element =>
    match j with
    | .null => .ok null
    | .array items => (items.mapM (ofJson element)).map sequence
    | _ => mismatch
  | .record name fields =>
    match j with
    | .null => .ok null
    | .object members => (ofMembers fields members).map (record { name, fields })
    | _ => mismatch
  | .grouping _ _ | .query _ | .orderedQuery _ | .function _ _ => unsupported

/-- The values of the fields, each read from the member of its name. -/
def ofMembers (fields : List (String × Ty)) (members : List (String × Json)) :
    Except ValueError (List Value) :=
  match fields with
  | [] => .ok []
  | (name, t) :: fields => do
    let v ← ofJson t ((members.lookup name).getD .null)
    let vs ← ofMembers fields members
    return v :: vs

end

/-- The value of a type that a JSON text stands for. -/
def ofJsonText (t : Ty) (text : String) : Except ValueError Value :=
  match Json.parse? text with
  | some j => ofJson t j
  | none => .error .notJson

end LambdaQuery.Value
