/-
The text of a value, as joined texts and messages show it.

* `Value.display` — texts without quotes, doubles without exponents, records and sequences with
  their parts in order.
-/

import LambdaQuery.Double.Layout
import LambdaQuery.Timestamp.Text
import LambdaQuery.Value.Basic

namespace LambdaQuery.Value

mutual

/-- The text of a value. -/
def display : Value → String
  | null => "null"
  | bool b => if b then "true" else "false"
  | int n => toString n.toInt
  | long n => toString n.toInt
  | double x => Double.Layout.plain.write x
  | string s => s
  | timestamp t => t.format
  | sequence items => "[" ++ ", ".intercalate (displayAll items) ++ "]"
  | record type values =>
    "\x7b " ++ ", ".intercalate (displayFields type.fields values) ++ " \x7d"
  | grouping key elements =>
    display key ++ " => [" ++ ", ".intercalate (displayAll elements) ++ "]"

/-- The texts of several values. -/
def displayAll : List Value → List String
  | [] => []
  | v :: vs => display v :: displayAll vs

/-- The texts of the fields of a record, each with its name. -/
def displayFields (fields : List (String × Ty)) (values : List Value) : List String :=
  match fields, values with
  | (name, _) :: fields, v :: vs => (name ++ " = " ++ display v) :: displayFields fields vs
  | _, _ => []

end

end LambdaQuery.Value
