/-
Why a query cannot be built or run.

* `Mismatch`, `Mismatch.message` — values and types that do not fit, and the wording;
* `QueryError`, `QueryError.message` — all the causes, those of the parts among them;
* `QueryError.ofCollection`, `QueryError.ofEval` — the errors of collections count the same whether
  an operator of the query or an expression in it meets them.
-/

import LambdaQuery.Expr.Error
import LambdaQuery.Expr.Typing
import LambdaQuery.Signature.Basic
import LambdaQuery.Value.Error

namespace LambdaQuery

/-- What an argument of a call may be. -/
inductive ArgumentKind
  | query
  | function
  | constant
  deriving Repr, DecidableEq

/-- The name of a kind of argument. -/
def ArgumentKind.word : ArgumentKind → String
  | query => "query"
  | function => "function literal"
  | constant => "constant"

/-- Values and types that do not fit where they stand. -/
inductive Mismatch
  /-- A value of a source that does not conform to its element type. -/
  | sourceValue (v : Value) (element : Ty)
  /-- The type of a tree is no query type with the element type. -/
  | notYielded (type element : Ty)
  /-- The type of a tree has no elements. -/
  | notQuery (type : Ty)
  /-- The tree of a source gave no sequence. -/
  | queryResult (v : Value)
  | notSequence (v : Value)
  | argumentKind (operator : Operator) (index : Nat) (kind : ArgumentKind)
  | missingTypeArgument (operator : Operator) (index : Nat)
  /-- An ordering is refined where there is none. -/
  | notOrdered (operator : Operator)
  /-- A constant of a call is no integer of 32 bits. -/
  | notCount (operator : Operator)
  /-- A constant of a call has no elements. -/
  | notList (operator : Operator)
  /-- A constant that should be an integer of 32 bits. -/
  | countConstant (operator : Operator) (v : Value)
  /-- A constant that should conform to the element type. -/
  | elementConstant (operator : Operator) (element : Ty) (v : Value)
  /-- An element of a constant that should conform to the element type. -/
  | listElement (operator : Operator) (element : Ty) (v : Value)
  /-- A constant that should be a sequence. -/
  | listConstant (operator : Operator) (v : Value)
  | noExpression (operator : Operator)
  | noConstant (operator : Operator)
  /-- A selector to be flattened whose values have no elements. -/
  | notFlattened (body : Ty)
  /-- A selector to be flattened that may not stand for a sequence of its elements. -/
  | notWidened (body : Ty)
  /-- An operator gave a value of another kind than it promises. -/
  | result (operator : Operator) (v : Value)

/-- The wording of a mismatch. -/
def Mismatch.message : Mismatch → String
  | sourceValue v element => "value " ++ v.display ++ " is not of type " ++ element.display
  | notYielded type element =>
    "expression of type " ++ type.display ++ " does not yield " ++ element.display
  | notQuery type => type.display ++ " is not a query"
  | queryResult v => "query produced " ++ v.display ++ " instead of a sequence"
  | notSequence v => v.display ++ " is not a sequence"
  | argumentKind operator index kind =>
    "argument " ++ toString index ++ " of " ++ operator.name ++ " is not a " ++ kind.word
  | missingTypeArgument operator index =>
    operator.name ++ " has no type argument " ++ toString index
  | notOrdered operator => operator.name ++ " requires an ordered source"
  | notCount operator => operator.name ++ " expects an int"
  | notList operator => operator.name ++ " expects a sequence"
  | countConstant operator v => operator.name ++ " expects an int, got " ++ v.display
  | elementConstant operator element v =>
    operator.name ++ " expects a value of type " ++ element.display ++ ", got " ++ v.display
  | listElement operator element v =>
    operator.name ++ " expects a sequence of " ++ element.display ++ ", found element "
      ++ v.display
  | listConstant operator v => operator.name ++ " expects a sequence, got " ++ v.display
  | noExpression operator => operator.name ++ " does not take an expression"
  | noConstant operator => operator.name ++ " does not take a constant"
  | notFlattened body => "SelectMany selector must produce a sequence, not " ++ body.display
  | notWidened body => body.display ++ " cannot be flattened as a sequence of its elements"
  | result operator v => operator.name ++ " produced " ++ v.display

inductive QueryError
  /-- There is no source, or no second one where it is needed. -/
  | missingSource
  /-- The text of a function is absent or blank; `argument` is what it is for. -/
  | missingExpression (operator : Operator) (argument : String)
  | missingArgument (operator : Operator) (argument : String)
  /-- The operator runs in the other way than the one expected. -/
  | execution (operator : Operator) (expected : Execution)
  | unknownOperator (name : String)
  | mismatch (cause : Mismatch)
  | empty
  | ambiguous
  | indexOutOfRange (index : Int)
  | compile (e : CompileError)
  | signature (e : SignatureError)
  | evaluation (e : EvalError)
  | value (e : ValueError)
  /-- A sort gave up, for its keys are in no order.  This ends the whole run: no caller gets it. -/
  | halted

namespace QueryError

/-- The wording of an error. -/
def message : QueryError → String
  | missingSource => "Source query is missing"
  | missingExpression operator argument =>
    operator.name ++ ": expression for '" ++ argument ++ "' is missing"
  | missingArgument operator argument =>
    operator.name ++ ": argument '" ++ argument ++ "' is missing"
  | execution operator expected =>
    "'" ++ operator.name ++ "' is not a " ++ expected.word ++ " operator"
  | unknownOperator name => "Unknown operator '" ++ name ++ "'"
  | mismatch cause => "Type mismatch: " ++ cause.message
  | empty => CollectionError.empty.message
  | ambiguous => CollectionError.ambiguous.message
  | indexOutOfRange index => (CollectionError.indexOutOfRange index).message
  | compile e => e.message
  | signature e => e.message
  | evaluation e => e.message
  | value e => e.message
  | halted => "user-provided comparison function does not correctly implement a total order"

/-- The error of a collection as one of the query: a lack or an excess of elements is an error of
its own, all else one of evaluation. -/
def ofCollection : CollectionError → QueryError
  | .empty => empty
  | .ambiguous => ambiguous
  | .indexOutOfRange index => indexOutOfRange index
  | e => evaluation (.collection e)

/-- The error of an expression as one of the query. -/
def ofEval : EvalError → QueryError
  | .collection e => ofCollection e
  | e => evaluation e

end QueryError

/-- The result of building or running a query. -/
abbrev QueryResult (α : Type) := Except QueryError α

end LambdaQuery
