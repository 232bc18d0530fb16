/-
Lambda text as a tree, before its names and types are known.

* `BinaryOp`, `UnaryOp` — the operators, with the signs they are written in;
* `Term` — the trees;
* `Term.memberName?` — the name that a member of `new` takes when none is written.
-/

import LambdaQuery.Double.Basic

namespace LambdaQuery

inductive BinaryOp
  | add | subtract | multiply | divide | modulo
  | equal | notEqual
  | less | lessEqual | greater | greaterEqual
  | and | or
  /-- Joining of texts. -/
  | concat
  /-- The first operand unless it is null. -/
  | coalesce
  deriving Repr, DecidableEq

namespace BinaryOp

/-- The operator as messages write it. -/
def symbol : BinaryOp → String
  | add => "+"
  | subtract => "-"
  | multiply => "*"
  | divide => "/"
  | modulo => "%"
  | equal => "=="
  | notEqual => "!="
  | less => "<"
  | lessEqual => "<="
  | greater => ">"
  | greaterEqual => ">="
  | and => "&&"
  | or => "||"
  | concat => "&"
  | coalesce => "??"

/-- Does the operator compare its operands? -/
def isComparison : BinaryOp → Bool
  | equal | notEqual | less | lessEqual | greater | greaterEqual => true
  | _ => false

/-- Does the operator compute with numbers? -/
def isArithmetic : BinaryOp → Bool
  | add | subtract | multiply | divide | modulo => true
  | _ => false

end BinaryOp

inductive UnaryOp
  | negate | not
  deriving Repr, DecidableEq

namespace UnaryOp

/-- The operator as messages write it. -/
def symbol : UnaryOp → String
  | negate => "-"
  | not => "!"

/-- The operator as messages name it. -/
def describe : UnaryOp → String
  | negate => "Negate"
  | not => "Not"

end UnaryOp

/-- A lambda text as it is written. -/
inductive Term
  | string (text : String)
  /-- A whole number, of 32 or 64 bits by its magnitude. -/
  | integer (n : Nat)
  /-- A whole number of 64 bits. -/
  | long (n : Nat)
  | float (x : Double)
  | bool (b : Bool)
  | null
  /-- A bare name: a parameter, a member of the implicit parameter or a variable. -/
  | name (text : String)
  /-- `@0`, `@1`, … -/
  | positional (index : Nat)
  /-- `@name` -/
  | named (text : String)
  | member (target : Term) (name : String)
  /-- A method call; without a target it applies to the implicit parameter. -/
  | call (target : Option Term) (method : String) (args : List Term)
  | binary (op : BinaryOp) (lhs rhs : Term)
  | unary (op : UnaryOp) (operand : Term)
  | cond (test ifTrue ifFalse : Term)
  | lambda (params : List String) (body : Term)
  /-- `new (...)`: values with the names written for them. -/
  | record (members : List (Option String × Term))
  deriving Repr

namespace Term

/-- The name that a member of `new` takes from its value when none is written. -/
def memberName? : Term → Option String
  | name text => some text
  | member _ text => some text
  | _ => none

end Term

end LambdaQuery
