/-
Types with type parameters, as the signatures of operators use them.

* `TypePattern`, `TypePattern.display` — the patterns and their text;
* `TypePattern.instantiate?` — the type of a pattern for given type arguments.
-/

import LambdaQuery.Ty.Display

namespace LambdaQuery

inductive TypePattern
  /-- A type parameter, by its position. -/
  | param (index : Nat)
  | concrete (type : Ty)
  | sequence (element : TypePattern)
  | query (element : TypePattern)
  | orderedQuery (element : TypePattern)
  | grouping (key element : TypePattern)
  | function (params : List TypePattern) (result : TypePattern)
  deriving Repr, Inhabited

namespace TypePattern

mutual

/-- The type of a pattern for the given type arguments, if they are enough. -/
def instantiate? (p : TypePattern) (args : List Ty) : Option Ty :=
  match p with
  | param index => args[index]?
  | concrete type => some type
  | sequence element => (element.instantiate? args).map .sequence
  | query element => (element.instantiate? args).map .query
  | orderedQuery element => (element.instantiate? args).map .orderedQuery
  | grouping key element => do
    let k ← key.instantiate? args
    let e ← element.instantiate? args
    return .grouping k e
  | function params result => do
    let ps ← instantiateAll? params args
    let r ← result.instantiate? args
    return .function ps r

/-- The types of several patterns. -/
def instantiateAll? (ps : List TypePattern) (args : List Ty) : Option (List Ty) :=
  match ps with
  | [] => some []
  | p :: ps => do
    let t ← p.instantiate? args
    let ts ← instantiateAll? ps args
    return t :: ts

end

/-- The names of the type parameters, in order. -/
def paramNames : List String := ["T", "U", "V", "W"]

mutual

/-- The text of a pattern. -/
def display : TypePattern → String
  | param index => paramNames[index]?.getD "?"
  | concrete type => type.display
  | sequence p => "Sequence<" ++ display p ++ ">"
  | query p => "Query<" ++ display p ++ ">"
  | orderedQuery p => "OrderedQuery<" ++ display p ++ ">"
  | grouping k e => "Grouping<" ++ display k ++ ", " ++ display e ++ ">"
  | function params result =>
    "Fn(" ++ ", ".intercalate (displayList params) ++ ") -> " ++ display result

/-- The texts of several patterns. -/
def displayList : List TypePattern → List String
  | [] => []
  | p :: ps => display p :: displayList ps

end

end TypePattern

end LambdaQuery
