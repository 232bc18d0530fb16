/-
Building calls: from a source and the arguments of an operator to a typed call.

* `Source.typeArguments` — the type arguments, read off the element types of the sources, what the
  functions return and the type of a start;
* `Operator.constantType` — the type of a constant, once it has been checked against the element
  type;
* `Source.build` — the call, whose type is that of the signature it fits.

Functions come in the order of the signature: keys, then elements, then results.
-/

import LambdaQuery.Query.Source
import LambdaQuery.Signature.Library

namespace LambdaQuery

/-- The type of the start of a fold, which may not be null. -/
def Operator.seedType (operator : Operator) (seed : Value) : QueryResult Ty :=
  if seed.isNull then .error (.missingArgument operator "seed") else .ok seed.typeOf

/-- The type of a constant in a call of the given shape over elements of the given type. -/
def Operator.constantType (operator : Operator) (shape : Shape) (element : Ty) (v : Value) :
    QueryResult Ty :=
  match shape with
  | .count =>
    match v with
    | .int _ => .ok .int
    | v => .error (.mismatch (.countConstant operator v))
  | .element =>
    if v.conforms element then .ok element
    else .error (.mismatch (.elementConstant operator element v))
  | .sequence =>
    match v with
    | .null => .error .missingSource
    | .sequence items =>
      match items.find? fun item => !item.conforms element with
      | none => .ok (.sequence element)
      | some item => .error (.mismatch (.listElement operator element item))
    | v => .error (.mismatch (.listConstant operator v))
  | .unseeded | .seeded | .seededResult => operator.seedType v
  | _ => .error (.signature (.argumentCount 0 1))

namespace Source

/-- The element type of the second source. -/
def innerElement (inner : Option Source) : QueryResult Ty :=
  match inner with
  | some s => .ok s.element
  | none => .error .missingSource

/-- The type arguments of a call. -/
def typeArguments (s : Source) (operator : Operator) (shape : Shape) (functions : List Lambda)
    (constants : List Value) (inner : Option Source) : QueryResult (List Ty) := do
  let returns (index : Nat) : QueryResult Ty :=
    match functions[index]? with
    | some l => .ok l.returns
    | none => .error (.missingExpression operator "selector")
  let start : QueryResult Ty :=
    match constants with
    | seed :: _ => operator.seedType seed
    | [] => .error (.missingArgument operator "seed")
  match shape with
  | .none => return if operator.isNumeric then [] else [s.element]
  | .predicate | .count | .element | .sequence => return [s.element]
  | .selector =>
    if operator.isNumeric || !operator.hasGenericResult then return [s.element]
    else
      let result ← returns 0
      if operator = .selectMany then return [s.element, result.element?.getD result]
      else return [s.element, result]
  | .keyElement | .keyResult => return [s.element, ← returns 0, ← returns 1]
  | .keyElementResult => return [s.element, ← returns 0, ← returns 1, ← returns 2]
  | .keyed =>
    let u ← innerElement inner
    return [s.element, u, ← returns 0, ← returns 2]
  | .zip =>
    let u ← innerElement inner
    return [s.element, u, ← returns 0]
  | .unseeded => return [s.element]
  | .seeded => return [s.element, ← start]
  | .seededResult =>
    let seed ← start
    return [s.element, seed, ← returns 1]

/-- The queries of a call. -/
def queries (s : Source) (shape : Shape) (inner : Option Source) : QueryResult (List Argument) :=
  if shape.hasInner then
    match inner with
    | some t => .ok [.query s.query, .query t.query]
    | none => .error .missingSource
  else .ok [.query s.query]

/-- The constants of a call, each with its type. -/
def constantArguments (s : Source) (operator : Operator) (shape : Shape) (constants : List Value) :
    QueryResult (List Argument) :=
  Each.map (fun v => do return .constant v (← operator.constantType shape s.element v)) constants

/-- The call of an operator over a source. -/
def build (s : Source) (operator : Operator) (shape : Shape) (functions : List Lambda)
    (constants : List Value) (inner : Option Source) : QueryResult Call := do
  if !operator.accepts shape then throw (.signature (.noOverload operator shape))
  let typeArgs ← s.typeArguments operator shape functions constants inner
  let queries ← s.queries shape inner
  let constants ← s.constantArguments operator shape constants
  let args := queries ++ constants ++ functions.map .function
  let (_, type) ←
    (Signature.resolve operator shape typeArgs (args.map Argument.type)).mapError .signature
  return { operator, shape, typeArgs, args, type }

end Source

/-- The signature that a call fits. -/
def Call.signature (c : Call) : Except SignatureError Signature :=
  (Signature.resolve c.operator c.shape c.typeArgs c.argTypes).map (·.1)

end LambdaQuery
