/-
Why a value cannot be built.

* `ValueError`, `ValueError.message` — the causes and their wording;
* `Value.record?` — a record, if there is one value for each field and each conforms to its field.
-/

import LambdaQuery.Json.Basic
import LambdaQuery.Ty.Display
import LambdaQuery.Value.Basic

namespace LambdaQuery

inductive ValueError
  /-- The number of values is not the number of fields. -/
  | arity (type : RecordTy) (actual : Nat)
  /-- A value does not conform to its field. -/
  | field (name : String) (type : Ty) (value : Value)
  /-- A JSON value is none of a type. -/
  | mismatch (type : Ty) (found : Json)
  /-- A type has no values in JSON. -/
  | unsupported (type : Ty)
  /-- A text names no timestamp. -/
  | timestamp (text : String)
  /-- A text is no JSON. -/
  | notJson

namespace ValueError

/-- The wording of an error; a text that is no JSON has none of its own. -/
def message : ValueError → String
  | arity type actual =>
    "Record " ++ type.toTy.display ++ " has " ++ toString type.fields.length ++ " fields, got "
      ++ toString actual ++ " values"
  | field name type value =>
    "Expected " ++ type.display ++ " for field " ++ name ++ ", found " ++ value.typeOf.display
  | mismatch type found => "Expected " ++ type.display ++ ", found " ++ found.write
  | unsupported type => "Values of type " ++ type.display ++ " cannot be read from JSON"
  | timestamp text => "Parse error: " ++ text
  | notJson => "not a JSON document"

end ValueError

namespace Value

/-- The first of the values that does not conform to its field. -/
def misfit? : List (String × Ty) → List Value → Option ValueError
  | (name, type) :: fields, v :: vs =>
    if v.conforms type then misfit? fields vs else some (.field name type v)
  | _, _ => none

/-- The record of a type with the given values: one for each field, each conforming to it. -/
def record? (type : RecordTy) (values : List Value) : Except ValueError Value :=
  if type.fields.length ≠ values.length then .error (.arity type values.length)
  else
    match misfit? type.fields values with
    | some e => .error e
    | none => .ok (record type values)

end Value

end LambdaQuery
