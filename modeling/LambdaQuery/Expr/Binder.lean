/-
Typing a term in one scope that is changed in place.

* `Binder` — computations with a scope, which is kept also when they fail;
* `Binder.inside` — a computation in a scope that is entered for it and left again;
* `Binder.explicit`, `Binder.bare` — function literals, whose parameters are put on the scope for
  their body;
* `Binder.term`, `Binder.function` — the typed expression of a term, and a term as a function
  literal.

`Scope.term` hands every literal a scope of its own.  Here all literals share one: what a literal
puts there is taken off when its body has been typed, and also when it has been refused.
-/

import LambdaQuery.Expr.Typing

namespace LambdaQuery

/-- A computation with a scope, which is kept also when it fails. -/
abbrev Binder (α : Type) := ExceptT CompileError (StateM Scope) α

namespace Binder

/-- What the scope, as it stands, says. -/
def reads {α : Type} (f : Scope → Except CompileError α) : Binder α := do
  liftExcept (f (← get))

/-- Enters a scope, carries out a computation there and leaves the scope again: whether it succeeded
or failed, the parameters are cut down to as many as there were, and the implicit parameter is the
former one. -/
def inside {α : Type} (enter : Scope → Scope) (body : Binder α) : Binder α := do
  let before ← get
  modify enter
  try body
  finally
    modify fun s =>
      { s with params := s.params.take before.params.length, implicit := before.implicit }

/-! ### Function literals -/

/-- An explicit literal: its parameters are in scope while its body is typed. -/
def explicit (types : List Ty) (names : List String) (body : Binder Expr) : Binder Lambda := do
  if names.length ≠ types.length then throw (.parameterCount types.length names.length)
  let base := (← get).params.length
  let params := names.zip types
  return .ofBody base params (← inside (·.extend params) body)

/-- A bare expression as a literal: its one parameter is in scope, as the implicit one, while it is
typed. -/
def bare (types : List Ty) (body : Binder Expr) : Binder Lambda :=
  match types with
  | [t] => do
    let s ← get
    return .ofBody s.params.length [(s.settings.implicitParameter, t)]
      (← inside (·.extendImplicit t) body)
  | _ => throw (.implicitParameter types.length)

/-! ### Terms -/

mutual

/-- The typed expression of a term. -/
def term (t : Term) : Binder Expr :=
  match t with
  | .member target text => do
    let target ← term target
    reads (·.member target text)
  | .call target text args => do
    let on ← (match target with
      | some target => term target
      | none => reads (·.implicitTarget text))
    match on.type.element? with
    | some element => do
      let m ← reads (·.collectionMethod on text)
      collection m on element args
    | none => do
      let m ← reads (·.textMethod on text)
      liftExcept (m.expectArity args.length)
      return .text m on (← texts args) m.resultType
  | .binary op lhs rhs => do
    let lhs ← term lhs
    let rhs ← term rhs
    liftExcept (Expr.ofBinary op lhs rhs)
  | .unary op operand => do
    let operand ← term operand
    liftExcept (Expr.ofUnary op operand)
  | .cond test ifTrue ifFalse => do
    let test ← term test
    liftExcept test.expectBool
    let ifTrue ← term ifTrue
    let ifFalse ← term ifFalse
    liftExcept (Expr.ofCond test ifTrue ifFalse)
  | .record ms => do
    let ms ← members [] ms
    return .record { name := none, fields := ms.map fun (name, e) => (name, e.type) } (ms.map (·.2))
  -- a term without parts changes no scope, so that there is nothing to do but to read it off
  | .string _ | .integer _ | .long _ | .float _ | .bool _ | .null | .name _ | .positional _
  | .named _ | .lambda _ _ => reads (·.term t)

/-- A method of a collection with its arguments. -/
def collection (m : CollectionMethod) (source : Expr) (element : Ty) (args : List Term) :
    Binder Expr :=
  match args with
  | [arg] =>
    match m.argument? 1 with
    | some .item => do
      let item ← term arg
      liftExcept (m.withItem source element item)
    | some .predicate | some .selector => do
      let function ←
        match arg with
        | .lambda names body => explicit [element] names (term body)
        | arg => bare [element] (term arg)
      liftExcept (m.withFunction source element function)
    | _ => throw (.argumentCount m.name 1)
  | args => reads (·.collection m source element args)

/-- Arguments that must be texts. -/
def texts (args : List Term) : Binder (List Expr) :=
  match args with
  | [] => pure []
  | arg :: rest => do
    let e ← term arg
    if e.type.assignable .string then return e :: (← texts rest)
    else throw (.typeMismatch .string e.type)

/-- The members of a record with their names. -/
def members (before : List String) (ms : List (Option String × Term)) :
    Binder (List (String × Expr)) :=
  match ms with
  | [] => pure []
  | (written, value) :: rest => do
    let name ← liftExcept (Scope.newName before written value)
    let e ← term value
    return (name, e) :: (← members (before ++ [name]) rest)

end

/-- A term as a function literal over the given types: an explicit lambda or a bare expression. -/
def function (types : List Ty) (t : Term) : Binder Lambda :=
  match t with
  | .lambda names body => explicit types names (term body)
  | t => bare types (term t)

end Binder

end LambdaQuery
