/-
Applying operators to sources.

* `Source.derive`, `Source.deriveWith` — the source of a lazy operator with an expression or a
  constant; nothing runs;
* `Source.compute`, `Source.computeWith` — the value of an eager operator with an expression or a
  constant, which runs the tree;
* `Source.deriveCall`, `Source.computeCall` — the same for calls that have been built;
* `Source.invoke` — an operator by its name.

An operator without arguments, or one with a fallback, takes a blank expression for none.
-/

import LambdaQuery.Query.Build
import LambdaQuery.Query.Function

namespace LambdaQuery

/-- What an operator gives: a new source or a value. -/
inductive Outcome
  | source (s : Source)
  | value (v : Value)

namespace Operator

/-- Refuses an operator that runs in the other way than the one expected. -/
def expect (operator : Operator) (expected : Execution) : QueryResult Unit :=
  if operator.execution = expected then .ok () else .error (.execution operator expected)

/-- What messages call the single function of an operator in a shape. -/
def argumentName (operator : Operator) (shape : Shape) : String :=
  match shape with
  | .predicate => "predicate"
  | _ => if operator = .groupBy || operator.isOrdering then "keySelector" else "selector"

/-- Does a blank expression stand for a call without arguments? -/
def takesBlank (operator : Operator) : Bool :=
  operator.accepts .none && (operator.hasFallback || operator.expressionShape?.isNone)

end Operator

namespace Source

/-- The call of an operator with a single expression. -/
def expressionCall (s : Source) (operator : Operator) (text : Option String)
    (bindings : Bindings) : QueryResult Call := do
  if operator.takesBlank && isBlankExpression text then
    s.build operator .none [] [] none
  else
    match operator.expressionShape? with
    | none => throw (.mismatch (.noExpression operator))
    | some shape =>
      let l ← operator.functionOf (operator.argumentName shape) (some s)
        (Parameters.element s.element) text bindings
      s.build operator shape [← operator.adjust l] [] none

/-- The call of an operator with a single constant. -/
def constantCall (s : Source) (operator : Operator) (v : Value) : QueryResult Call :=
  match operator.constantShape? with
  | none => .error (.mismatch (.noConstant operator))
  | some shape =>
    if shape = .sequence && v.isNull then .error .missingSource
    else s.build operator shape [] [v] none

/-- The source of a call of a lazy operator. -/
def deriveCall (c : Call) : QueryResult Source := do
  c.operator.expect .lazy
  ofQuery (.call c)

/-- The value of a call of an eager operator. -/
def computeCall (c : Call) : QueryResult Value := do
  c.operator.expect .eager
  (Query.call c).run

/-- The source of a lazy operator with an expression. -/
def derive (s : Source) (operator : Operator) (text : Option String) (bindings : Bindings) :
    QueryResult Source := do
  operator.expect .lazy
  deriveCall (← s.expressionCall operator text bindings)

/-- The value of an eager operator with an expression. -/
def compute (s : Source) (operator : Operator) (text : Option String) (bindings : Bindings) :
    QueryResult Value := do
  operator.expect .eager
  computeCall (← s.expressionCall operator text bindings)

/-- The source of a lazy operator with a constant. -/
def deriveWith (s : Source) (operator : Operator) (v : Value) : QueryResult Source := do
  operator.expect .lazy
  deriveCall (← s.constantCall operator v)

/-- The value of an eager operator with a constant. -/
def computeWith (s : Source) (operator : Operator) (v : Value) : QueryResult Value := do
  operator.expect .eager
  computeCall (← s.constantCall operator v)

/-- What the operator of a name gives with an expression. -/
def invoke (s : Source) (name : String) (text : Option String) (bindings : Bindings) :
    QueryResult Outcome :=
  match Operator.ofName? name with
  | none => .error (.unknownOperator name)
  | some operator =>
    match operator.execution with
    | .lazy => (s.derive operator text bindings).map .source
    | .eager => (s.compute operator text bindings).map .value

end Source

end LambdaQuery
