/-
Evaluation of typed expressions.

* `Frame`, `Run` — the values of the parameters by slot, and computations that read and change them
  and may fail;
* `CollectionMethod.apply` — a method of a collection, given what its function does;
* `Expr.eval`, `Lambda.invoke` — the value of an expression, and of a function literal on arguments;
* `Lambda.test` — a literal as a condition, for which null counts as false;
* `Lambda.call`, `Lambda.holds` — the same from an empty frame.

Calling a literal cuts the frame down to the literal's base and puts the arguments there.  Nothing
is taken off when the call ends, so a frame keeps what the last call left in it.
-/

import LambdaQuery.Collection.Each
import LambdaQuery.Collection.Element
import LambdaQuery.Collection.Set
import LambdaQuery.Expr.Basic
import LambdaQuery.Expr.Operation

namespace LambdaQuery

/-- The values of the parameters in scope, by slot. -/
abbrev Frame := List Value

/-- A computation with a frame, which is kept also when it fails. -/
abbrev Run (α : Type) := ExceptT EvalError (StateM Frame) α

section Lift

variable {m : Type → Type} [Monad m] [MonadExceptOf EvalError m] {α : Type}

/-- A pure result as a computation. -/
def liftResult (r : Except EvalError α) : m α :=
  match r with
  | .ok a => pure a
  | .error e => throw e

end Lift

/-- A value as a condition; null is false. -/
def Value.asCondition (v : Value) : Except EvalError Bool :=
  match v with
  | .bool b => .ok b
  | .null => .ok false
  | v => .error (.predicateResult v)

/-! ### Methods of collections -/

namespace CollectionMethod

/-- Does a function given to the method choose among the elements? -/
def narrows : CollectionMethod → Bool
  | count | longCount | any | first | firstOrDefault | last | lastOrDefault | filter => true
  | _ => false

/-- Does a function given to the method compute what the method works on? -/
def projects : CollectionMethod → Bool
  | sum | average | min | max | select => true
  | _ => false

/-- What the method gives for the items that it works on.  `all` has its function go through them
instead. -/
def conclude (method : CollectionMethod) (items : List Value) (argument : Option Value)
    (element result : Ty) : Except EvalError Value :=
  match method with
  | count => (Collection.count items.length).mapError .collection
  | longCount => .ok (.long (Int64.ofNat items.length))
  | any => .ok (.bool (!items.isEmpty))
  | all => .error (.missingFunction method)
  | sum => (Collection.sum items result).mapError .collection
  | average => (Collection.average items result).mapError .collection
  | min => (Collection.min items result).mapError .collection
  | max => (Collection.max items result).mapError .collection
  | first => (Collection.first items).mapError .collection
  | firstOrDefault => .ok (Collection.firstOrDefault items element)
  | last => (Collection.last items).mapError .collection
  | lastOrDefault => .ok (Collection.lastOrDefault items element)
  | filter | select | toList => .ok (.sequence items)
  | distinct => .ok (.sequence (Collection.distinct items))
  | contains => .ok (.bool (items.any fun v => v.looselyEqual (argument.getD .null)))

section Apply

variable {m : Type → Type} [Monad m] [MonadExceptOf EvalError m]

/-- What a function computes from an item, as a condition on the item. -/
def condition (f : Value → m Value) (v : Value) : m Bool := do liftResult (← f v).asCondition

/-- The items that the method works on: those that its function chooses, or what it computes. -/
def prepare (method : CollectionMethod) (items : List Value) (function : Option (Value → m Value)) :
    m (List Value) :=
  match function with
  | some f =>
    if method.narrows then Each.keep (condition f) items
    else if method.projects then Each.map f items
    else pure items
  | none => pure items

/-- The method on its items.  `function` is what its function computes from an item, `element` the
type of the items and `result` that of the result. -/
def apply (method : CollectionMethod) (items : List Value) (function : Option (Value → m Value))
    (argument : Option Value) (element result : Ty) : m Value := do
  let items ← method.prepare items function
  match method, function with
  | all, some f => return .bool (← Each.all (condition f) items)
  | _, _ => liftResult (method.conclude items argument element result)

end Apply

end CollectionMethod

/-! ### Parts of values -/

namespace Value

/-- Is the value the boolean that holds? -/
def isTrue : Value → Bool
  | bool true => true
  | _ => false

/-- The field of a record at a place. -/
def fieldAt (v : Value) (index : Nat) (name : String) : Except EvalError Value :=
  match v with
  | record _ values =>
    match values[index]? with
    | some v => .ok v
    | none => .error (.missingField name)
  | null => .error (.nullReference name)
  | v => .error (.notRecord name v)

/-- The key of a grouping. -/
def groupKey (v : Value) : Except EvalError Value :=
  match v with
  | grouping key _ => .ok key
  | null => .error (.nullReference "Key")
  | v => .error (.notGrouping v)

/-- The value of a nullable, which may not be null. -/
def unwrapped (v : Value) : Except EvalError Value :=
  match v with
  | null => .error .nullValue
  | v => .ok v

/-- The elements that a method works on. -/
def itemsFor (v : Value) (method : CollectionMethod) : Except EvalError (List Value) :=
  match v with
  | null => .error (.nullReference method.name)
  | v =>
    match v.elements? with
    | some items => .ok items
    | none => .error (.notSequence v)

/-- The text that a method works on. -/
def textFor (v : Value) (method : TextMethod) : Except EvalError String :=
  match v with
  | string s => .ok s
  | null => .error (.nullReference method.name)
  | v => .error (.notText v)

/-- A part of a timestamp. -/
def datePart (v : Value) (part : DatePart) : Except EvalError Value :=
  match v with
  | timestamp t => .ok (part.read t)
  | null => .error (.nullReference part.name)
  | v => .error (.notTimestamp v)

end Value

/-- The value in a slot. -/
def slotValue (frame : Frame) (slot : Nat) : Except EvalError Value :=
  match frame[slot]? with
  | some v => .ok v
  | none => .error (.unboundSlot slot)

/-- The operator on its first operand and a computation of the second one, which is carried out only
where it is needed. -/
def BinaryOp.combine {m : Type → Type} [Monad m] [MonadExceptOf EvalError m] (op : BinaryOp)
    (left : Value) (rhs : m Value) : m Value :=
  match op with
  | .and =>
    match left with
    | .bool false => return .bool false
    | _ => do return .bool (← rhs).isTrue
  | .or =>
    match left with
    | .bool true => return .bool true
    | _ => do return .bool (← rhs).isTrue
  | .coalesce =>
    match left with
    | .null => rhs
    | left => return left
  | op => do liftResult (op.apply left (← rhs))

/-! ### Expressions -/

mutual

/-- The value of an expression in the current frame. -/
def Expr.eval (e : Expr) : Run Value :=
  match e with
  | .constant v _ => pure v
  | .parameter slot _ => do liftResult (slotValue (← get) slot)
  | .field target index name _ => do liftResult ((← target.eval).fieldAt index name)
  | .key target _ => do liftResult (← target.eval).groupKey
  | .convert operand type => do return (← operand.eval).convert type
  | .unwrap operand _ => do liftResult (← operand.eval).unwrapped
  | .unary op operand _ => do liftResult (op.apply (← operand.eval))
  | .binary op lhs rhs _ => do op.combine (← lhs.eval) rhs.eval
  | .cond test ifTrue ifFalse _ => do if (← test.eval).isTrue then ifTrue.eval else ifFalse.eval
  | .record type members => do return .record type (← Expr.evalAll members)
  | .collection method source function argument type => do
    let items ← liftResult ((← source.eval).itemsFor method)
    let argument ← Expr.evalOption argument
    method.apply items (Lambda.invokeOption function) argument
      (source.type.element?.getD .object) type
  | .text method target args _ => do
    let s ← liftResult ((← target.eval).textFor method)
    liftResult (method.apply s (← Expr.evalAll args))
  | .datePart part target _ => do liftResult ((← target.eval).datePart part)

/-- The values of several expressions, in order. -/
def Expr.evalAll (es : List Expr) : Run (List Value) :=
  match es with
  | [] => pure []
  | e :: es => do
    let v ← e.eval
    let vs ← Expr.evalAll es
    return v :: vs

/-- The value of an expression that may be absent. -/
def Expr.evalOption (e : Option Expr) : Run (Option Value) :=
  match e with
  | some e => some <$> e.eval
  | none => pure none

/-- The value of a function literal on arguments. -/
def Lambda.invoke (l : Lambda) (args : List Value) : Run Value :=
  match l with
  | .mk base params body _ => do
    if args.length ≠ params.length then throw (.argumentCount params.length args.length)
    modify fun frame => frame.take base ++ args
    body.eval

/-- What a function literal that may be absent computes from a value. -/
def Lambda.invokeOption (l : Option Lambda) : Option (Value → Run Value) :=
  match l with
  | some l => some fun v => l.invoke [v]
  | none => none

end

namespace Lambda

/-- Does the literal, as a condition, hold for a value? -/
def test (l : Lambda) (v : Value) : Run Bool := do liftResult (← l.invoke [v]).asCondition

/-- The value of the literal on arguments, from an empty frame. -/
def call (l : Lambda) (args : List Value) : Except EvalError Value := (l.invoke args |>.run []).1

/-- Does the literal hold for a value, from an empty frame? -/
def holds (l : Lambda) (v : Value) : Except EvalError Bool := (l.test v |>.run []).1

end Lambda

end LambdaQuery
