/-
Running a query tree, one operator after the other as the tree describes.

* `Query.run` — the value of a tree: a sequence for a query, and what it computes for a call of an
  operator that gives a value;
* `Call.chain` — the links of a chain of orderings with the items that it sorts.

A chain is a call that starts an ordering under calls that refine it.  It is sorted once, over the
source of its first link.
-/

import LambdaQuery.Query.Operation

namespace LambdaQuery

/-- The items of a value that must be a sequence. -/
def Value.asItems (v : Value) : QueryResult (List Value) :=
  match v with
  | .sequence items => .ok items
  | v => .error (.mismatch (.notSequence v))

mutual

/-- The value of a tree. -/
def Query.run (q : Query) : QueryResult Value :=
  match q with
  | .root _ values => .ok (.sequence values)
  | .call c =>
    if c.operator.isOrdering then do
      let (links, items) ← c.chain
      return .sequence (← Call.sortItems links (← items))
    else c.runOperator

/-- The value of a call that orders nothing. -/
def Call.runOperator (c : Call) : QueryResult Value :=
  match c with
  | ⟨operator, _, _, args, _⟩ => do
    let outer ← Argument.itemsAt operator 0 args 0
    match operator with
    | .zip => do
      let inner ← Argument.itemsAt operator 1 args 1
      return .sequence (← c.zipItems outer inner)
    | .join | .groupJoin => do
      let inner ← Argument.itemsAt operator 1 args 1
      return .sequence (← c.joinItems outer inner)
    | _ => c.onItems outer

/-- The links of a chain of orderings, the first one first, and the items of its source.  A refined
source must be an ordering itself; only when all the links are there do the items count. -/
def Call.chain (c : Call) : QueryResult (List Call × QueryResult (List Value)) :=
  match c with
  | ⟨operator, _, _, args, _⟩ =>
    if operator.refinesOrdering then
      match args with
      | .query (.call source) :: _ =>
        if source.operator.isOrdering then do
          let (links, items) ← source.chain
          return (links ++ [c], items)
        else throw (.mismatch (.notOrdered operator))
      | .query (.root _ _) :: _ => throw (.mismatch (.notOrdered operator))
      | _ => throw (Call.misplaced operator 0 .query)
    else return ([c], Argument.itemsAt operator 0 args 0)

/-- The items of the query that stands so many arguments further on; `index` is its place in the
call. -/
def Argument.itemsAt (operator : Operator) (index : Nat) (args : List Argument) (further : Nat) :
    QueryResult (List Value) :=
  match args, further with
  | .query q :: _, 0 => do (← q.run).asItems
  | _ :: rest, further + 1 => Argument.itemsAt operator index rest further
  | _, _ => throw (Call.misplaced operator index .query)

end

end LambdaQuery
