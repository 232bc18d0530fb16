/-
Typed expressions: lambda text whose names have been resolved.

* `Expr`, `Lambda` — expressions and function literals; every node knows its type, fields are
  resolved to places and parameters to slots of a frame;
* `Expr.type`, `Expr.convertTo` — the type of an expression, and the expression in another type;
* `Lambda.returning?` — a function literal with a declared return type.

The parameters of a literal take the slots from its base on; the base is the number of parameters of
all literals around it.
-/

import LambdaQuery.Expr.Method
import LambdaQuery.Term.Basic
import LambdaQuery.Ty.Assignable
import LambdaQuery.Value.Basic

namespace LambdaQuery

mutual

/-- A typed expression. -/
inductive Expr
  | constant (value : Value) (type : Ty)
  /-- The parameter in a slot of the frame. -/
  | parameter (slot : Nat) (type : Ty)
  /-- The field of a record, by its place. -/
  | field (target : Expr) (index : Nat) (name : String) (type : Ty)
  /-- The key of a grouping. -/
  | key (target : Expr) (type : Ty)
  /-- Widening of numbers; all else, null included, stays as it is. -/
  | convert (operand : Expr) (type : Ty)
  /-- The value of a nullable, which may not be null. -/
  | unwrap (operand : Expr) (type : Ty)
  | unary (op : UnaryOp) (operand : Expr) (type : Ty)
  | binary (op : BinaryOp) (lhs rhs : Expr) (type : Ty)
  | cond (test ifTrue ifFalse : Expr) (type : Ty)
  /-- A new record of a type without a name. -/
  | record (type : RecordTy) (members : List Expr)
  /-- A method of a collection, with a function of its elements or a value. -/
  | collection (method : CollectionMethod) (source : Expr) (function : Option Lambda)
      (argument : Option Expr) (type : Ty)
  /-- A method or property of a text. -/
  | text (method : TextMethod) (target : Expr) (args : List Expr) (type : Ty)
  | datePart (part : DatePart) (target : Expr) (type : Ty)

/-- A function literal: the slot of its first parameter, its parameters, its body and the type it is
declared to return. -/
inductive Lambda
  | mk (base : Nat) (params : List (String × Ty)) (body : Expr) (returns : Ty)

end

namespace Expr

/-- The type of an expression. -/
def type : Expr → Ty
  | constant _ t | parameter _ t | field _ _ _ t | key _ t | convert _ t | unwrap _ t | unary _ _ t
  | binary _ _ _ t | cond _ _ _ t | collection _ _ _ _ t | text _ _ _ t | datePart _ _ t => t
  | record r _ => r.toTy

/-- The expression in the given type: itself if it has that type. -/
def convertTo (e : Expr) (t : Ty) : Expr := if e.type = t then e else convert e t

end Expr

namespace Lambda

def base : Lambda → Nat
  | mk base _ _ _ => base

def params : Lambda → List (String × Ty)
  | mk _ params _ _ => params

def body : Lambda → Expr
  | mk _ _ body _ => body

/-- The declared return type: that of the body unless it was declared again. -/
def returns : Lambda → Ty
  | mk _ _ _ returns => returns

/-- A literal that returns what its body returns. -/
def ofBody (base : Nat) (params : List (String × Ty)) (body : Expr) : Lambda :=
  mk base params body body.type

def paramTypes (l : Lambda) : List Ty := l.params.map (·.2)

/-- The type of the function. -/
def type (l : Lambda) : Ty := .function l.paramTypes l.returns

/-- The literal declared to return the given type, if its body may stand for that type. -/
def returning? (l : Lambda) (t : Ty) : Option Lambda :=
  if l.body.type.assignable t then some (mk l.base l.params l.body t) else none

end Lambda

end LambdaQuery
