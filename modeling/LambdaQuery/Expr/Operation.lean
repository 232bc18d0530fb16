/-
What operators and methods compute from values.

* `Value.convert` — a number widened to a type;
* `UnaryOp.apply`, `BinaryOp.arithmetic`, `BinaryOp.apply` — the operators on values;
* `TextMethod.apply` — the methods of texts;
* `DatePart.read` — the parts of timestamps.

Integers wrap at their width and their quotients are rounded toward zero; only a zero divisor is
refused.  An operator of numbers has null for null, an order with null on either side is false.
-/

import LambdaQuery.Collection.Aggregate
import LambdaQuery.Expr.Error
import LambdaQuery.Text.Blank
import LambdaQuery.Value.Order

namespace LambdaQuery

/-- A number widened to a numeric type, nullable or not; all else stays as it is. -/
def Value.convert (v : Value) (t : Ty) : Value :=
  match t.underlying, v with
  | .double, .int n => .double (Double.ofInt n.toInt)
  | .double, .long n => .double (Double.ofInt n.toInt)
  | .long, .int n => .long n.toInt64
  | _, v => v

namespace UnaryOp

/-- The operator on a value. -/
def apply (op : UnaryOp) (v : Value) : Except EvalError Value :=
  match op, v with
  | _, .null => .ok .null
  | negate, .int n => .ok (.int (-n))
  | negate, .long n => .ok (.long (-n))
  | negate, .double x => .ok (.double (-x))
  | not, .bool b => .ok (.bool !b)
  | _, v => .error (.unaryOperand op v)

end UnaryOp

namespace BinaryOp

/-- Arithmetic of 32 bits; the operators that are none count as the remainder. -/
def onInt (op : BinaryOp) (a b : Int32) : Except EvalError Value :=
  match op with
  | add => .ok (.int (a + b))
  | subtract => .ok (.int (a - b))
  | multiply => .ok (.int (a * b))
  | divide => if b = 0 then .error .divideByZero else .ok (.int (a / b))
  | _ => if b = 0 then .error .divideByZero else .ok (.int (a % b))

/-- Arithmetic of 64 bits, likewise. -/
def onLong (op : BinaryOp) (a b : Int64) : Except EvalError Value :=
  match op with
  | add => .ok (.long (a + b))
  | subtract => .ok (.long (a - b))
  | multiply => .ok (.long (a * b))
  | divide => if b = 0 then .error .divideByZero else .ok (.long (a / b))
  | _ => if b = 0 then .error .divideByZero else .ok (.long (a % b))

/-- Arithmetic of doubles, likewise. -/
def onDouble (op : BinaryOp) (x y : Double) : Value :=
  match op with
  | add => .double (x + y)
  | subtract => .double (x - y)
  | multiply => .double (x * y)
  | divide => .double (x / y)
  | _ => .double (Double.remainder x y)

/-- Arithmetic: in 32 bits if both operands have them, in 64 bits if both are integers, else on
doubles.  Texts can be added. -/
def arithmetic (op : BinaryOp) (a b : Value) : Except EvalError Value :=
  match a, b with
  | .null, _ => .ok .null
  | _, .null => .ok .null
  | .string s, .string t =>
    if op = add then .ok (.string (s ++ t)) else .error (.binaryOperands op a b)
  | .int m, .int n => op.onInt m n
  | a, b =>
    match a.toInt64?, b.toInt64? with
    | some m, some n => op.onLong m n
    | _, _ =>
      match a.toDouble?, b.toDouble? with
      | some x, some y => .ok (op.onDouble x y)
      | _, _ => .error (.binaryOperands op a b)

/-- Does an order comparison hold, given the order of its operands? -/
def holds (op : BinaryOp) (o : Ordering) : Bool :=
  match op with
  | less => o == .lt
  | lessEqual => o != .gt
  | greater => o == .gt
  | _ => o != .lt

/-- The text of a value that is joined to another; null has none. -/
def joinedText (v : Value) : String := if v.isNull then "" else v.display

/-- The operators that need both operands. -/
def apply (op : BinaryOp) (a b : Value) : Except EvalError Value :=
  match op with
  | concat => .ok (.string (joinedText a ++ joinedText b))
  | equal => .ok (.bool (a.looselyEqual b))
  | notEqual => .ok (.bool !(a.looselyEqual b))
  | less | lessEqual | greater | greaterEqual =>
    .ok (.bool (!a.isNull && !b.isNull && op.holds (a.compare b)))
  | _ => op.arithmetic a b

end BinaryOp

/-! ### Texts -/

/-- Does the first list occur in the second, in one piece? -/
def occursIn (part : List Char) : List Char → Bool
  | [] => part.isEmpty
  | c :: cs => part.isPrefixOf (c :: cs) || occursIn part cs

namespace TextMethod

/-- The text that a method is given as its first argument. -/
def argument (m : TextMethod) (args : List Value) : Except EvalError (List Char) :=
  match args with
  | .string s :: _ => .ok s.toList
  | .null :: _ => .error (.nullReference ("argument of " ++ m.name))
  | _ => .error (.textArgument m)

/-- The method on a text. -/
def apply (m : TextMethod) (target : String) (args : List Value) : Except EvalError Value :=
  match m with
  | length => (Collection.count target.length).mapError .collection
  | toUpper => .ok (.string (Text.upper target))
  | toLower => .ok (.string (Text.lower target))
  | trim => .ok (.string (Text.trim target))
  | startsWith => (m.argument args).map fun part => .bool (part.isPrefixOf target.toList)
  | endsWith => (m.argument args).map fun part => .bool (part.isSuffixOf target.toList)
  | contains => (m.argument args).map fun part => .bool (occursIn part target.toList)

end TextMethod

/-- The part of a timestamp as an integer of 32 bits. -/
def DatePart.read (p : DatePart) (t : Timestamp) : Value :=
  .int <| Int32.ofInt <|
    match p with
    | year => t.year
    | month => t.month
    | day => t.dayOfMonth
    | hour => t.hour
    | minute => t.minute
    | second => t.secondOfMinute

end LambdaQuery
