/-
Why the evaluation of an expression fails.

* `EvalError`, `EvalError.message` — the causes and their wording.

Expressions made from text meet only a zero divisor, a null where a value is needed, and the errors
of collections.  The other causes are those of trees put together by hand.
-/

import LambdaQuery.Collection.Error
import LambdaQuery.Expr.Method
import LambdaQuery.Term.Basic

namespace LambdaQuery

inductive EvalError
  | divideByZero
  /-- The value of a nullable that is null. -/
  | nullValue
  /-- A part of null; `what` is the part. -/
  | nullReference (what : String)
  | collection (e : CollectionError)
  | predicateResult (v : Value)
  | missingField (name : String)
  | notRecord (field : String) (v : Value)
  | notGrouping (v : Value)
  | notSequence (v : Value)
  | notText (v : Value)
  | notTimestamp (v : Value)
  | unaryOperand (op : UnaryOp) (v : Value)
  | binaryOperands (op : BinaryOp) (a b : Value)
  | textArgument (method : TextMethod)
  | argumentCount (expected actual : Nat)
  | unboundSlot (slot : Nat)
  | missingFunction (method : CollectionMethod)

namespace EvalError

/-- The wording of an error. -/
def message : EvalError → String
  | divideByZero => "Attempted to divide by zero"
  | nullValue => "Nullable object must have a value"
  | nullReference what => "Null reference: cannot read " ++ what ++ " of null"
  | collection e => e.message
  | predicateResult v => "Type error: predicate produced " ++ v.display ++ " instead of a boolean"
  | missingField name => "Type error: record has no field " ++ name
  | notRecord field v => "Type error: cannot read field " ++ field ++ " of " ++ v.display
  | notGrouping v => "Type error: " ++ v.display ++ " is not a grouping"
  | notSequence v => "Type error: " ++ v.display ++ " is not a sequence"
  | notText v => "Type error: " ++ v.display ++ " is not a string"
  | notTimestamp v => "Type error: " ++ v.display ++ " is not a date"
  | unaryOperand op v => "Type error: cannot apply " ++ op.describe ++ " to " ++ v.display
  | binaryOperands op a b =>
    "Type error: cannot apply " ++ op.symbol ++ " to " ++ a.display ++ " and " ++ b.display
  | textArgument method => "Type error: " ++ method.name ++ " expects a string argument"
  | argumentCount expected actual =>
    "Evaluation error: lambda expects " ++ toString expected ++ " arguments, got "
      ++ toString actual
  | unboundSlot slot => "Evaluation error: parameter slot " ++ toString slot ++ " is unbound"
  | missingFunction method =>
    "Evaluation error: " ++ method.name ++ " requires a function argument"

end EvalError

end LambdaQuery
