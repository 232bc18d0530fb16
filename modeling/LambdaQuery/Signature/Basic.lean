/-
Signatures of operators, and when a call fits one.

* `Signature`, `Signature.display` — an overload of an operator and its text;
* `SignatureError`, `SignatureError.message` — why a call fits none, and the wording;
* `Signature.check` — the type of a call with given type arguments and argument types.

Every argument must be assignable to its parameter once the type arguments have been put in.  The
first one that is not decides the error.
-/

import LambdaQuery.Operator.Shape
import LambdaQuery.Signature.Pattern
import LambdaQuery.Ty.Assignable

namespace LambdaQuery

/-- One overload of an operator. -/
structure Signature where
  operator : Operator
  shape : Shape
  /-- The number of type parameters. -/
  arity : Nat
  /-- The types of the arguments, the source first. -/
  params : List TypePattern
  result : TypePattern
  deriving Repr

inductive SignatureError
  /-- The operator cannot be called in the shape. -/
  | noOverload (operator : Operator) (shape : Shape)
  | argumentCount (expected actual : Nat)
  | typeArgumentCount (operator : Operator) (expected actual : Nat)
  /-- The argument at a position, the source being at 0, is not assignable to its parameter. -/
  | argumentMismatch (operator : Operator) (position : Nat) (expected found : Ty)

/-- The wording of an error. -/
def SignatureError.message : SignatureError → String
  | noOverload operator shape =>
    "No overload of '" ++ operator.name ++ "' has a " ++ shape.display ++ " form"
  | argumentCount expected actual =>
    "Argument count mismatch: expected " ++ toString expected ++ ", got " ++ toString actual
  | typeArgumentCount operator expected actual =>
    "'" ++ operator.name ++ "' expects " ++ toString expected ++ " type arguments, got "
      ++ toString actual
  | argumentMismatch operator position expected found =>
    "Argument " ++ toString position ++ " of '" ++ operator.name ++ "': type '" ++ found.display
      ++ "' is not assignable to '" ++ expected.display ++ "'"

namespace Signature

/-- The text of a signature. -/
def display (s : Signature) : String :=
  let typeParams :=
    if s.arity = 0 then ""
    else "<" ++ ", ".intercalate (TypePattern.paramNames.take s.arity) ++ ">"
  s.operator.name ++ typeParams ++ "(" ++ ", ".intercalate (s.params.map TypePattern.display)
    ++ ") -> " ++ s.result.display

/-- The type of a pattern for the type arguments of a call. -/
def instantiate (s : Signature) (typeArgs : List Ty) (p : TypePattern) :
    Except SignatureError Ty :=
  match p.instantiate? typeArgs with
  | some t => .ok t
  | none => .error (.typeArgumentCount s.operator s.arity typeArgs.length)

/-- Checks the arguments from a position on against their parameters. -/
def checkArguments (s : Signature) (typeArgs : List Ty) (position : Nat) :
    List TypePattern → List Ty → Except SignatureError Unit
  | p :: ps, found :: rest => do
    let expected ← s.instantiate typeArgs p
    if found.assignable expected then s.checkArguments typeArgs (position + 1) ps rest
    else throw (.argumentMismatch s.operator position expected found)
  | _, _ => .ok ()

/-- The type of a call of this overload. -/
def check (s : Signature) (typeArgs argTypes : List Ty) : Except SignatureError Ty := do
  if typeArgs.length ≠ s.arity then
    throw (.typeArgumentCount s.operator s.arity typeArgs.length)
  if argTypes.length ≠ s.params.length then
    throw (.argumentCount s.params.length argTypes.length)
  s.checkArguments typeArgs 0 s.params argTypes
  s.instantiate typeArgs s.result

end Signature

end LambdaQuery
