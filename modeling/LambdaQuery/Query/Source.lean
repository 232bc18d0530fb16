/-
Sources: query trees with a known element type.

* `Source`, `Source.declare`, `Source.ofQuery` — a source of a tree, whose type must be a query of
  the element type;
* `Source.ofValues`, `Source.ofJsonText` — a source of values, each of which conforms to the element
  type;
* `Source.toList` — the elements of a source, which runs its tree.
-/

import LambdaQuery.Query.Run
import LambdaQuery.Value.Json

namespace LambdaQuery

/-- The element type of a query, ordered or not. -/
def Ty.yields? : Ty → Option Ty
  | .query element | .orderedQuery element => some element
  | _ => none

/-- A typed sequence that runs when its elements are asked for. -/
structure Source where
  element : Ty
  query : Query

namespace Source

/-- The source of a tree that yields elements of a type. -/
def declare (element : Ty) (q : Query) : QueryResult Source :=
  if q.type.yields? = some element then .ok { element, query := q }
  else .error (.mismatch (.notYielded q.type element))

/-- The source of a tree. -/
def ofQuery (q : Query) : QueryResult Source :=
  match q.type.element? with
  | some element => declare element q
  | none => .error (.mismatch (.notQuery q.type))

/-- The source of values, each of which must conform to the element type. -/
def ofValues (element : Ty) (values : List Value) : QueryResult Source :=
  match values.find? fun v => !v.conforms element with
  | some v => .error (.mismatch (.sourceValue v element))
  | none => declare element (.root element values)

/-- The source of the elements of a JSON array; null stands for no elements. -/
def ofJsonText (element : Ty) (text : String) : QueryResult Source :=
  match Value.ofJsonText (.list element) text with
  | .ok v => ofValues element (v.elements?.getD [])
  | .error e => .error (.value e)

/-- The type of the tree. -/
def type (s : Source) : Ty := s.query.type

/-- Has the source an order of its own? -/
def isOrdered (s : Source) : Bool :=
  match s.type with
  | .orderedQuery _ => true
  | _ => false

/-- The elements; null stands for none. -/
def toList (s : Source) : QueryResult (List Value) := do
  match ← s.query.run with
  | .sequence items => return items
  | .null => return []
  | v => throw (.mismatch (.queryResult v))

end Source

end LambdaQuery
