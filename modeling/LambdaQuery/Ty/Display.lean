/-
The text of a type, as signatures and messages show it.

* `Ty.display` — a record type with a name is shown by its name alone.
-/

import LambdaQuery.Ty.Basic

namespace LambdaQuery.Ty

mutual

/-- The text of a type. -/
def display : Ty → String
  | object => "object"
  | null => "null"
  | bool => "bool"
  | int => "int"
  | long => "long"
  | double => "double"
  | string => "string"
  | timestamp => "DateTime"
  | nullable t => display t ++ "?"
  | record (some name) _ => name
  | record none fields => "\x7b " ++ ", ".intercalate (displayFields fields) ++ " \x7d"
  | list t => "List<" ++ display t ++ ">"
  | sequence t => "Sequence<" ++ display t ++ ">"
  | grouping k t => "Grouping<" ++ display k ++ ", " ++ display t ++ ">"
  | query t => "Query<" ++ display t ++ ">"
  | orderedQuery t => "OrderedQuery<" ++ display t ++ ">"
  | function params t => "Fn(" ++ ", ".intercalate (displayList params) ++ ") -> " ++ display t

/-- The texts of the fields of a record type. -/
def displayFields : List (String × Ty) → List String
  | [] => []
  | (name, t) :: rest => (name ++ ": " ++ display t) :: displayFields rest

/-- The texts of several types. -/
def displayList : List Ty → List String
  | [] => []
  | t :: rest => display t :: displayList rest

end

end LambdaQuery.Ty
