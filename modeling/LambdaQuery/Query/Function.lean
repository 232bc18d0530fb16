/-
The functions of a call: their texts compiled, and their return types adjusted to the operator.

* `Parameters.element`, … — the types of the parameters that an operator gives its functions;
* `Operator.functionOf` — the function of a text, which must be there and not blank;
* `Lambda.flattened`, `Lambda.accumulating`, `Operator.adjust` — a function declared to return what
  the operator takes, because signatures take function types exactly.
-/

import LambdaQuery.Query.Source

namespace LambdaQuery

/-! ### Parameters -/

namespace Parameters

/-- Of a condition, a selector, and a selector of keys or elements: an element. -/
def element (t : Ty) : List Ty := [t]

/-- Of a fold: what has been accumulated, and an element. -/
def accumulator (accumulated t : Ty) : List Ty := [accumulated, t]

/-- Of the result of a group: its key and its elements. -/
def groupResult (key t : Ty) : List Ty := [key, .sequence t]

/-- Of the result of a join or a zip: an element of either source. -/
def pair (outer inner : Ty) : List Ty := [outer, inner]

/-- Of the result of a group join: an outer element and the inner ones that match it. -/
def groupJoinResult (outer inner : Ty) : List Ty := [outer, .sequence inner]

end Parameters

/-! ### Texts -/

/-- Does a text of a function count as absent? -/
def isBlankExpression (text : Option String) : Bool := (text.map Text.isBlankText).getD true

/-- The function of a text, as an argument of an operator over a source. -/
def Operator.functionOf (operator : Operator) (argument : String) (source : Option Source)
    (types : List Ty) (text : Option String) (bindings : Bindings) : QueryResult Lambda :=
  match source with
  | none => .error .missingSource
  | some _ =>
    match text.map Text.trim with
    | none | some "" => .error (.missingExpression operator argument)
    | some text => (Lambda.compile text types bindings).mapError .compile

/-! ### Return types -/

namespace Lambda

/-- The function declared to return a sequence of the elements of its body. -/
def flattened (l : Lambda) : QueryResult Lambda :=
  match l.body.type.element? with
  | none => .error (.mismatch (.notFlattened l.body.type))
  | some element =>
    match l.returning? (.sequence element) with
    | some l => .ok l
    | none => .error (.mismatch (.notWidened l.body.type))

/-- The function declared to return the type of what it accumulates, if its body may stand for that
type; else the function as it is, for the signature to refuse. -/
def accumulating (l : Lambda) (accumulated : Ty) : Lambda :=
  if l.returns = accumulated then l else (l.returning? accumulated).getD l

end Lambda

/-- The selector of an operator, declared to return what the operator takes. -/
def Operator.adjust (operator : Operator) (l : Lambda) : QueryResult Lambda :=
  match operator with
  | .selectMany => l.flattened
  | _ => .ok l

end LambdaQuery
