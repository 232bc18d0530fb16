/-
Typing a term: what its names denote, and the type of each part.

* `CompileError`, `CompileError.message` — the causes for which a term is refused, and their
  wording;
* `Scope` — the parameters in scope, the implicit one among them, and the bindings;
* `Scope.name` — what a bare name denotes: a parameter, the innermost first; a member of the
  implicit parameter; a variable;
* `Scope.term` — the typed expression of a term;
* `Lambda.compile` — the function literal of a text over given parameter types.

A text is an explicit lambda, whose parameters must be as many as the types, or a bare expression
over one parameter whose members are in scope.
-/

import LambdaQuery.Bindings
import LambdaQuery.Expr.Basic
import LambdaQuery.Term.Parser
import LambdaQuery.Ty.Display

namespace LambdaQuery

/-! ### Errors -/

inductive CompileError
  | malformed (e : SyntaxError)
  /-- A name that denotes nothing; `scope` is the type whose members were searched. -/
  | unresolvedMember (name : String) (scope : Option Ty)
  | unknownMethod (name : String) (type : Option Ty)
  | argumentCount (method : String) (actual : Nat)
  | incompatibleOperands (op : String) (lhs rhs : Ty)
  | incompatibleOperand (op : String) (operand : Ty)
  | typeMismatch (expected found : Ty)
  | parameterCount (expected actual : Nat)
  /-- A bare expression where there is not exactly one parameter. -/
  | implicitParameter (expected : Nat)
  | missingPositional (index : Nat)
  | unknownVariable (name : String)
  | duplicateMember (name : String)
  | unnamedMember (position : Nat)
  /-- A function literal that is not the argument of a method. -/
  | unexpectedLambda

namespace CompileError

/-- The wording of an error. -/
def message : CompileError → String
  | malformed e => e.message
  | unresolvedMember name scope =>
    "No property or field '" ++ name ++ "' exists in "
      ++ ((scope.map fun t => "type '" ++ t.display ++ "'").getD "the expression scope")
  | unknownMethod name type =>
    "No applicable method '" ++ name ++ "' exists in type '"
      ++ ((type.map Ty.display).getD "the expression scope") ++ "'"
  | argumentCount method actual =>
    "Method '" ++ method ++ "' does not take " ++ toString actual ++ " arguments"
  | incompatibleOperands op lhs rhs =>
    "Operator '" ++ op ++ "' incompatible with operand types '" ++ lhs.display ++ "' and '"
      ++ rhs.display ++ "'"
  | incompatibleOperand op operand =>
    "Operator '" ++ op ++ "' incompatible with operand type '" ++ operand.display ++ "'"
  | typeMismatch expected found =>
    "Expression of type '" ++ expected.display ++ "' expected, found '" ++ found.display ++ "'"
  | parameterCount expected actual =>
    "Lambda declares " ++ toString actual ++ " parameters where " ++ toString expected
      ++ " are expected"
  | implicitParameter expected =>
    "A bare expression takes exactly one parameter, " ++ toString expected ++ " expected"
  | missingPositional index =>
    "No value supplied for positional placeholder @" ++ toString index
  | unknownVariable name => "Unknown variable '@" ++ name ++ "'"
  | duplicateMember name => "Duplicate member '" ++ name ++ "' in new"
  | unnamedMember position => "Member " ++ toString position ++ " of new needs a name"
  | unexpectedLambda => "A function literal is only allowed as a method argument"

end CompileError

/-! ### Operators -/

namespace Expr

/-- Refuses an expression that is not of type `bool`. -/
def expectBool (e : Expr) : Except CompileError Unit :=
  if e.type = .bool then .ok () else .error (.typeMismatch .bool e.type)

/-- The operands in their common numeric type, or the error of the operator. -/
def promoted (op : BinaryOp) (lhs rhs : Expr) (result : Ty → Ty) : Except CompileError Expr :=
  match Ty.promote lhs.type rhs.type with
  | some t => .ok (binary op (lhs.convertTo t) (rhs.convertTo t) (result t))
  | none => .error (.incompatibleOperands op.symbol lhs.type rhs.type)

/-- May values of the type be ordered although they are not numbers? -/
def isOrdered (t : Ty) : Bool := t == .string || t == .timestamp || t == .bool

/-- An operator applied to two operands.  Numbers are widened to their common type, and `+` with a
text on either side joins texts. -/
def ofBinary (op : BinaryOp) (lhs rhs : Expr) : Except CompileError Expr :=
  let incompatible : Except CompileError Expr :=
    .error (.incompatibleOperands op.symbol lhs.type rhs.type)
  match op with
  | .and | .or =>
    if lhs.type = .bool ∧ rhs.type = .bool then .ok (binary op lhs rhs .bool) else incompatible
  | .add =>
    if lhs.type = .string ∨ rhs.type = .string then .ok (binary .concat lhs rhs .string)
    else promoted op lhs rhs id
  | .subtract | .multiply | .divide | .modulo => promoted op lhs rhs id
  | .concat => .ok (binary op lhs rhs .string)
  | .equal | .notEqual =>
    match Ty.unify lhs.type rhs.type with
    | some t =>
      if t.isNumeric then .ok (binary op (lhs.convertTo t) (rhs.convertTo t) .bool)
      else .ok (binary op lhs rhs .bool)
    | none => incompatible
  | .less | .lessEqual | .greater | .greaterEqual =>
    if lhs.type.isNumeric ∧ rhs.type.isNumeric then promoted op lhs rhs fun _ => .bool
    else if lhs.type.underlying = rhs.type.underlying ∧ isOrdered lhs.type.underlying then
      .ok (binary op lhs rhs .bool)
    else incompatible
  | .coalesce =>
    if lhs.type.acceptsNull then
      match Ty.unify lhs.type.underlying rhs.type with
      | some t => .ok (binary op (lhs.convertTo t) (rhs.convertTo t) t)
      | none => incompatible
    else incompatible

/-- An operator applied to one operand, whose type it keeps. -/
def ofUnary (op : UnaryOp) (operand : Expr) : Except CompileError Expr :=
  let fits : Bool :=
    match op with
    | .negate => operand.type.isNumeric
    | .not => operand.type.underlying == .bool
  if fits then .ok (unary op operand operand.type)
  else .error (.incompatibleOperand op.symbol operand.type)

/-- A choice between two expressions in their common type. -/
def ofCond (test ifTrue ifFalse : Expr) : Except CompileError Expr :=
  match Ty.unify ifTrue.type ifFalse.type with
  | some t => .ok (cond test (ifTrue.convertTo t) (ifFalse.convertTo t) t)
  | none => .error (.incompatibleOperands "?:" ifTrue.type ifFalse.type)

end Expr

namespace CollectionMethod

/-- The type of a sum or a mean of values of a type. -/
def numericResult (m : CollectionMethod) (t : Ty) : Except CompileError Ty :=
  if t.isNumeric then
    .ok (if m = average then (if t.isNullable then .nullable .double else .double) else t)
  else .error (.incompatibleOperand m.name t)

/-- The type of the result: `element` is the type of the elements, `value` that of what is computed
from them, which is the element itself where nothing is. -/
def resultType (m : CollectionMethod) (element value : Ty) : Except CompileError Ty :=
  match m with
  | count => .ok .int
  | longCount => .ok .long
  | any | all | contains => .ok .bool
  | sum | average => m.numericResult value
  | min | max => .ok value
  | first | firstOrDefault | last | lastOrDefault => .ok element
  | filter | distinct => .ok (.sequence element)
  | select => .ok (.sequence value)
  | toList => .ok (.list element)

/-- The method with a value to compare the elements with. -/
def withItem (m : CollectionMethod) (source : Expr) (element : Ty) (item : Expr) :
    Except CompileError Expr :=
  match Ty.unify element item.type with
  | some t => .ok (.collection m source none (some (item.convertTo t)) .bool)
  | none => .error (.incompatibleOperands m.name element item.type)

/-- The method with a function of the elements, which must be a condition where the method takes
one. -/
def withFunction (m : CollectionMethod) (source : Expr) (element : Ty) (function : Lambda) :
    Except CompileError Expr := do
  if m.argument? 1 = some .predicate then function.body.expectBool
  return .collection m source (some function) none (← m.resultType element function.returns)

end CollectionMethod

namespace TextMethod

/-- The type of the result of a method that is called. -/
def resultType (m : TextMethod) : Ty := if m.isTest then .bool else .string

/-- Refuses a number of arguments that the method does not take. -/
def expectArity (m : TextMethod) (count : Nat) : Except CompileError Unit :=
  if count = m.arity then .ok () else .error (.argumentCount m.name count)

end TextMethod

/-! ### Names -/

/-- What names may denote. -/
structure Scope where
  bindings : Bindings
  /-- The parameters of all literals around, by slot. -/
  params : List (String × Ty)
  /-- The slot of the parameter whose members are in scope. -/
  implicit : Option Nat

namespace Scope

def settings (s : Scope) : Settings := s.bindings.settings

/-- The scope inside a literal with further parameters. -/
def extend (s : Scope) (params : List (String × Ty)) : Scope :=
  { s with params := s.params ++ params }

/-- The scope inside a bare expression: one further parameter, which becomes the implicit one. -/
def extendImplicit (s : Scope) (t : Ty) : Scope :=
  { s with params := s.params ++ [(s.settings.implicitParameter, t)], implicit := s.params.length }

/-- The implicit parameter. -/
def implicit? (s : Scope) : Option Expr := do
  let slot ← s.implicit
  let (_, t) ← s.params[slot]?
  return .parameter slot t

/-- The last of the entries, counted from `slot`, whose name a written name denotes. -/
def findLast? (settings : Settings) (written : String) (slot : Nat) :
    List (String × Ty) → Option (Nat × Ty)
  | [] => none
  | (name, t) :: rest =>
    (findLast? settings written (slot + 1) rest).or
      (if settings.denotes written name then some (slot, t) else none)

/-- The innermost parameter that a name denotes. -/
def parameter? (s : Scope) (written : String) : Option Expr :=
  (findLast? s.settings written 0 s.params).map fun (slot, t) => .parameter slot t

/-- A constant of its own type. -/
def constantOf (v : Value) : Expr := .constant v v.typeOf

/-- The member of a name, by the type of the expression it is read from. -/
def member? (s : Scope) (target : Expr) (written : String) : Option Expr :=
  let denotes (declared : String) := s.settings.denotes written declared
  match target.type with
  | .record name fields =>
    (RecordTy.field? { name, fields } written s.settings.ignoreCase).map fun found =>
      .field target found.index found.name found.type
  | .grouping key _ =>
    if denotes "Key" then some (.key target key)
    else if denotes "Count" then some (.collection .count target none none .int)
    else none
  | .list _ | .sequence _ | .query _ | .orderedQuery _ =>
    if denotes "Count" then some (.collection .count target none none .int) else none
  | .string => if denotes "Length" then some (.text .length target [] .int) else none
  | .nullable inner =>
    if denotes "HasValue" then
      some (.binary .notEqual target (.constant .null target.type) .bool)
    else if denotes "Value" then some (.unwrap target inner)
    else none
  | .timestamp =>
    (DatePart.ofName? s.settings.ignoreCase written).map fun part => .datePart part target .int
  | _ => none

/-- The member of a name, or the error that there is none. -/
def member (s : Scope) (target : Expr) (written : String) : Except CompileError Expr :=
  match s.member? target written with
  | some e => .ok e
  | none => .error (.unresolvedMember written target.type)

/-- What a bare name denotes. -/
def name (s : Scope) (written : String) : Except CompileError Expr :=
  let member := s.implicit?.bind fun it => s.member? it written
  let variableValue := (s.bindings.lookup? written).map constantOf
  match (s.parameter? written).or (member.or variableValue) with
  | some e => .ok e
  | none => .error (.unresolvedMember written (s.implicit?.map Expr.type))

/-- The target of a method call without one: the implicit parameter. -/
def implicitTarget (s : Scope) (method : String) : Except CompileError Expr :=
  match s.implicit? with
  | some it => .ok it
  | none => .error (.unknownMethod method none)

/-- The method of a name, for a target that is a collection. -/
def collectionMethod (s : Scope) (target : Expr) (written : String) :
    Except CompileError CollectionMethod :=
  match CollectionMethod.ofName? s.settings.ignoreCase written with
  | some m => .ok m
  | none => .error (.unknownMethod written target.type)

/-- The method of a name, for a target that must be a text. -/
def textMethod (s : Scope) (target : Expr) (written : String) : Except CompileError TextMethod :=
  match target.type, TextMethod.ofName? s.settings.ignoreCase written with
  | .string, some m => .ok m
  | _, _ => .error (.unknownMethod written target.type)

/-- The name of a member of `new`, which may not repeat one of those before it. -/
def newName (before : List String) (written : Option String) (value : Term) :
    Except CompileError String :=
  match written.or value.memberName? with
  | none => .error (.unnamedMember before.length)
  | some name => if before.contains name then .error (.duplicateMember name) else .ok name

/-! ### Function literals -/

/-- An explicit literal, whose body is resolved in the scope of its parameters. -/
def explicit (s : Scope) (types : List Ty) (names : List String)
    (body : Scope → Except CompileError Expr) : Except CompileError Lambda :=
  if names.length ≠ types.length then .error (.parameterCount types.length names.length)
  else
    let params := names.zip types
    (body (s.extend params)).map (Lambda.ofBody s.params.length params)

/-- A bare expression as a literal over one parameter. -/
def bare (s : Scope) (types : List Ty) (body : Scope → Except CompileError Expr) :
    Except CompileError Lambda :=
  match types with
  | [t] =>
    (body (s.extendImplicit t)).map
      (Lambda.ofBody s.params.length [(s.settings.implicitParameter, t)])
  | _ => .error (.implicitParameter types.length)

/-! ### Terms -/

mutual

/-- The typed expression of a term. -/
def term (s : Scope) (t : Term) : Except CompileError Expr :=
  match t with
  | .string text => .ok (.constant (.string text) .string)
  | .integer n =>
    if n < Nat.pow 2 31 then .ok (.constant (.int (Int32.ofNat n)) .int)
    else .ok (.constant (.long (Int64.ofNat n)) .long)
  | .long n => .ok (.constant (.long (Int64.ofNat n)) .long)
  | .float x => .ok (.constant (.double x) .double)
  | .bool b => .ok (.constant (.bool b) .bool)
  | .null => .ok (.constant .null .null)
  | .name text => s.name text
  | .positional index =>
    match s.bindings.values[index]? with
    | some v => .ok (constantOf v)
    | none => .error (.missingPositional index)
  | .named text =>
    match s.bindings.lookup? text with
    | some v => .ok (constantOf v)
    | none => .error (.unknownVariable text)
  | .member target text => do s.member (← s.term target) text
  | .call target text args => do
    let target ←
      match target with
      | some target => s.term target
      | none => s.implicitTarget text
    match target.type.element? with
    | some element => s.collection (← s.collectionMethod target text) target element args
    | none => do
      let m ← s.textMethod target text
      m.expectArity args.length
      return .text m target (← s.texts args) m.resultType
  | .binary op lhs rhs => do
    let lhs ← s.term lhs
    let rhs ← s.term rhs
    Expr.ofBinary op lhs rhs
  | .unary op operand => do Expr.ofUnary op (← s.term operand)
  | .cond test ifTrue ifFalse => do
    let test ← s.term test
    test.expectBool
    let ifTrue ← s.term ifTrue
    let ifFalse ← s.term ifFalse
    Expr.ofCond test ifTrue ifFalse
  | .lambda _ _ => .error .unexpectedLambda
  | .record members => do
    let members ← s.members [] members
    return .record { name := none, fields := members.map fun (name, e) => (name, e.type) }
      (members.map (·.2))

/-- A method of a collection with its arguments. -/
def collection (s : Scope) (m : CollectionMethod) (source : Expr) (element : Ty)
    (args : List Term) : Except CompileError Expr :=
  match args with
  | [] =>
    match m.argument? 0 with
    | some _ => do return .collection m source none none (← m.resultType element element)
    | none => .error (.argumentCount m.name 0)
  | [arg] =>
    let body (inner : Scope) := inner.term arg
    match m.argument? 1 with
    | some .item => do m.withItem source element (← body s)
    | some .predicate | some .selector => do
      m.withFunction source element <| ←
        match arg with
        | .lambda names inside => s.explicit [element] names fun inner => inner.term inside
        | _ => s.bare [element] body
    | _ => .error (.argumentCount m.name 1)
  | args => .error (.argumentCount m.name args.length)

/-- Arguments that must be texts. -/
def texts (s : Scope) (args : List Term) : Except CompileError (List Expr) :=
  match args with
  | [] => .ok []
  | arg :: rest => do
    let e ← s.term arg
    if e.type.assignable .string then return e :: (← s.texts rest)
    else throw (.typeMismatch .string e.type)

/-- The members of a record with their names, which may not repeat one of those before them. -/
def members (s : Scope) (before : List String) (ms : List (Option String × Term)) :
    Except CompileError (List (String × Expr)) :=
  match ms with
  | [] => .ok []
  | (written, value) :: rest => do
    let name ← newName before written value
    let e ← s.term value
    return (name, e) :: (← s.members (before ++ [name]) rest)

end

/-- A term as a function literal over the given types: an explicit lambda or a bare expression. -/
def function (s : Scope) (types : List Ty) (t : Term) : Except CompileError Lambda :=
  match t with
  | .lambda names body => s.explicit types names fun inner => inner.term body
  | t => s.bare types fun inner => inner.term t

end Scope

/-- The function literal of a text over the given parameter types. -/
def Lambda.compile (text : String) (types : List Ty) (bindings : Bindings) :
    Except CompileError Lambda :=
  match Term.parse text with
  | .ok t => Scope.function { bindings, params := [], implicit := none } types t
  | .error e => .error (.malformed e)

end LambdaQuery
