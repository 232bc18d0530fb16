/-
Query trees: values, and calls of operators on them.

* `Query`, `Call`, `Argument` — the trees;
* `Query.type`, `Argument.type` — their types, which a call carries with it;
* `Call.function`, `Call.constant`, `Call.typeArg` — the parts of a call by their places;
* `Call.display` — a call as its operator, its type arguments and its type.

A call has its source at place 0, then a second source if it has one, then its constants, then its
functions.
-/

import LambdaQuery.Query.Error

namespace LambdaQuery

mutual

/-- A tree whose run gives the elements of a query, or one value. -/
inductive Query
  | root (element : Ty) (values : List Value)
  | call (c : Call)

/-- A call of an operator with its type arguments, its arguments and its type. -/
structure Call where
  operator : Operator
  shape : Shape
  typeArgs : List Ty
  args : List Argument
  type : Ty

/-- An argument of a call. -/
inductive Argument
  /-- The source, or the second source. -/
  | query (q : Query)
  | function (l : Lambda)
  | constant (value : Value) (type : Ty)

end

namespace Query

/-- The type of a tree. -/
def type : Query → Ty
  | root element _ => .query element
  | call c => c.type

/-- The call at the top of a tree. -/
def call? : Query → Option Call
  | root _ _ => none
  | call c => some c

end Query

/-- The type of an argument. -/
def Argument.type : Argument → Ty
  | query q => q.type
  | function l => l.type
  | constant _ type => type

namespace Call

/-- The error of an argument that is not of the expected kind. -/
def misplaced (operator : Operator) (index : Nat) (kind : ArgumentKind) : QueryError :=
  .mismatch (.argumentKind operator index kind)

/-- The function at a place. -/
def function (c : Call) (index : Nat) : QueryResult Lambda :=
  match c.args[index]? with
  | some (.function l) => .ok l
  | _ => .error (misplaced c.operator index .function)

/-- The constant at a place. -/
def constant (c : Call) (index : Nat) : QueryResult Value :=
  match c.args[index]? with
  | some (.constant v _) => .ok v
  | _ => .error (misplaced c.operator index .constant)

/-- The type argument at a place. -/
def typeArg (c : Call) (index : Nat) : QueryResult Ty :=
  match c.typeArgs[index]? with
  | some t => .ok t
  | none => .error (.mismatch (.missingTypeArgument c.operator index))

/-- The types of the arguments. -/
def argTypes (c : Call) : List Ty := c.args.map Argument.type

/-- The text of a call. -/
def display (c : Call) : String :=
  let typeArgs :=
    if c.typeArgs.isEmpty then "" else "<" ++ ", ".intercalate (c.typeArgs.map Ty.display) ++ ">"
  c.operator.name ++ typeArgs ++ " -> " ++ c.type.display

end Call

end LambdaQuery
