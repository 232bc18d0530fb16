/-
**Properties that pass through sequencing.**  Evaluation carries out its parts one after the other,
in one frame.  What holds of results that do not depend on the frame, and of two computations in
sequence if it holds of both, holds of operators, of computations over lists and of the methods of
collections, whatever the property is.

The only error that depends on the frame is that a slot is unbound, so that the results of operators
and methods on values are *settled*: they do not report it.

Main definitions:
* `Settled` — a result is not that a slot is unbound;
* `Sequential` — a property of computations passes through sequencing.

Main results:
* `Settled.unary`, `Settled.binary`, `Settled.text`, `Settled.conclude`, … — what operators and
  methods compute from values is settled, whatever the values are;
* `Sequential.each_map`, `Sequential.each_keep`, `Sequential.each_all`, `Sequential.evalAll` —
  properties of computations over lists;
* `Sequential.combine`, `Sequential.apply` — properties of operators and of methods.
-/

import LambdaQuery.Proofs.Denotation

namespace LambdaQuery

/-! ### Results that report no unbound slot -/

/-- Does the error say that a slot is unbound? -/
def EvalError.isUnbound : EvalError → Bool
  | unboundSlot _ => true
  | _ => false

/-- The result is not that a slot is unbound. -/
def Settled {α : Type} (r : Except EvalError α) : Prop := ∀ slot, r ≠ .error (.unboundSlot slot)

namespace Settled

variable {α β : Type}

theorem ofOk (a : α) : Settled (.ok a) := by
  intro slot h
  cases h

theorem ofError {e : EvalError} (h : e.isUnbound = false) :
    Settled (.error e : Except EvalError α) := by
  intro slot he
  cases he
  cases h

theorem map {r : Except EvalError α} (h : Settled r) (f : α → β) : Settled (r.map f) := by
  cases r with
  | ok a => exact ofOk (f a)
  | error e =>
      intro slot he
      cases he
      exact h slot rfl

theorem collection (r : Except CollectionError α) : Settled (r.mapError .collection) := by
  cases r with
  | ok a => exact ofOk a
  | error e => exact ofError rfl

/-! ### Parts of values -/

theorem asCondition (v : Value) : Settled v.asCondition := by
  unfold Value.asCondition
  split
  · exact ofOk _
  · exact ofOk _
  · exact ofError rfl

theorem fieldAt (v : Value) (index : Nat) (name : String) : Settled (v.fieldAt index name) := by
  unfold Value.fieldAt
  split
  · split
    · exact ofOk _
    · exact ofError rfl
  · exact ofError rfl
  · exact ofError rfl

theorem groupKey (v : Value) : Settled v.groupKey := by
  unfold Value.groupKey
  split
  · exact ofOk _
  · exact ofError rfl
  · exact ofError rfl

theorem unwrapped (v : Value) : Settled v.unwrapped := by
  unfold Value.unwrapped
  split
  · exact ofError rfl
  · exact ofOk _

theorem itemsFor (v : Value) (method : CollectionMethod) : Settled (v.itemsFor method) := by
  unfold Value.itemsFor
  split
  · exact ofError rfl
  · split
    · exact ofOk _
    · exact ofError rfl

theorem textFor (v : Value) (method : TextMethod) : Settled (v.textFor method) := by
  unfold Value.textFor
  split
  · exact ofOk _
  · exact ofError rfl
  · exact ofError rfl

theorem datePart (v : Value) (part : DatePart) : Settled (v.datePart part) := by
  unfold Value.datePart
  split
  · exact ofOk _
  · exact ofError rfl
  · exact ofError rfl

/-! ### Operators and methods -/

theorem unary (op : UnaryOp) (v : Value) : Settled (op.apply v) := by
  unfold UnaryOp.apply
  split <;> first | exact ofOk _ | exact ofError rfl

/-- A quotient, which is refused for a zero divisor alone. -/
theorem ofDivisor (zero : Prop) [Decidable zero] (a : α) :
    Settled (if zero then .error .divideByZero else .ok a) := by
  split
  · exact ofError rfl
  · exact ofOk a

theorem onInt (op : BinaryOp) (a b : Int32) : Settled (op.onInt a b) := by
  cases op with
  | add | subtract | multiply => exact ofOk _
  | _ => exact ofDivisor _ _

theorem onLong (op : BinaryOp) (a b : Int64) : Settled (op.onLong a b) := by
  cases op with
  | add | subtract | multiply => exact ofOk _
  | _ => exact ofDivisor _ _

theorem arithmetic (op : BinaryOp) (a b : Value) : Settled (op.arithmetic a b) := by
  unfold BinaryOp.arithmetic
  split
  · exact ofOk _
  · exact ofOk _
  · split
    · exact ofOk _
    · exact ofError rfl
  · exact onInt op _ _
  · split
    · exact onLong op _ _
    · split
      · exact ofOk _
      · exact ofError rfl

theorem binary (op : BinaryOp) (a b : Value) : Settled (op.apply a b) := by
  cases op with
  | concat | equal | notEqual | less | lessEqual | greater | greaterEqual => exact ofOk _
  | _ => exact arithmetic _ a b

theorem text (method : TextMethod) (target : String) (args : List Value) :
    Settled (method.apply target args) := by
  have hargument : Settled (method.argument args) := by
    unfold TextMethod.argument
    split
    · exact ofOk _
    · exact ofError rfl
    · exact ofError rfl
  cases method with
  | length => exact collection (Collection.count target.length)
  | toUpper | toLower | trim => exact ofOk _
  | startsWith | endsWith | contains => exact hargument.map _

theorem conclude (method : CollectionMethod) (items : List Value) (argument : Option Value)
    (element result : Ty) : Settled (method.conclude items argument element result) := by
  cases method with
  | count | sum | average | min | max | first | last =>
      unfold CollectionMethod.conclude
      exact collection _
  | all => exact ofError rfl
  | _ => exact ofOk _

end Settled

/-! ### Properties that pass through sequencing -/

/-- The property holds of every result that does not depend on the frame and reports no unbound
slot, and of two computations one after the other if it holds of both. -/
structure Sequential (P : (α : Type) → Run α → Prop) : Prop where
  lift : ∀ {α : Type} {r : Except EvalError α}, Settled r → P α (liftResult r)
  bind : ∀ {α β : Type} {m : Run α} {k : α → Run β}, P α m → (∀ a, P β (k a)) → P β (m >>= k)

namespace Sequential

variable {P : (α : Type) → Run α → Prop} (hP : Sequential P) {α β : Type}
include hP

theorem ofPure (a : α) : P α (pure a) := hP.lift (Settled.ofOk a)

theorem bind_lift {m : Run α} (hm : P α m) {f : α → Except EvalError β} (hf : ∀ a, Settled (f a)) :
    P β (m >>= fun a => liftResult (f a)) :=
  hP.bind hm fun a => hP.lift (hf a)

theorem bind_pure {m : Run α} (hm : P α m) (f : α → β) : P β (m >>= fun a => pure (f a)) :=
  hP.bind hm fun a => hP.ofPure (f a)

/-! ### Lists -/

theorem each_map {f : α → Run β} (h : ∀ a, P β (f a)) (xs : List α) :
    P (List β) (Each.map f xs) := by
  induction xs with
  | nil => exact hP.ofPure []
  | cons x xs ih => exact hP.bind (h x) fun y => hP.bind ih fun ys => hP.ofPure _

theorem each_keep {f : α → Run Bool} (h : ∀ a, P Bool (f a)) (xs : List α) :
    P (List α) (Each.keep f xs) := by
  induction xs with
  | nil => exact hP.ofPure []
  | cons x xs ih => exact hP.bind (h x) fun y => hP.bind ih fun ys => hP.ofPure _

theorem each_all {f : α → Run Bool} (h : ∀ a, P Bool (f a)) (xs : List α) :
    P Bool (Each.all f xs) := by
  induction xs with
  | nil => exact hP.ofPure true
  | cons x xs ih =>
      refine hP.bind (h x) fun b => ?_
      cases b with
      | false => exact hP.ofPure false
      | true => exact ih

theorem evalAll {es : List Expr} (h : ∀ e ∈ es, P Value e.eval) :
    P (List Value) (Expr.evalAll es) := by
  induction es with
  | nil => exact hP.ofPure []
  | cons e es ih =>
      have he := h e (List.mem_cons_self ..)
      have hes := ih fun e' he' => h e' (List.mem_cons_of_mem _ he')
      unfold Expr.evalAll
      exact hP.bind he fun v => hP.bind hes fun vs => hP.ofPure _

/-! ### Operators and methods -/

theorem combine (op : BinaryOp) (left : Value) {m : Run Value} (h : P Value m) :
    P Value (op.combine left m) := by
  have logic : P Value (m >>= fun v => pure (Value.bool v.isTrue)) := hP.bind_pure h _
  have strict : P Value (m >>= fun v => liftResult (op.apply left v)) :=
    hP.bind_lift h fun v => .binary op left v
  unfold BinaryOp.combine
  cases op with
  | and =>
      simp only
      split
      · exact hP.ofPure _
      · exact logic
  | or =>
      simp only
      split
      · exact hP.ofPure _
      · exact logic
  | coalesce =>
      simp only
      split
      · exact h
      · exact hP.ofPure _
  | _ => exact strict

theorem condition {f : Value → Run Value} (h : ∀ v, P Value (f v)) (v : Value) :
    P Bool (CollectionMethod.condition f v) :=
  hP.bind_lift (h v) .asCondition

/-- A method is a sequence of the calls of its function and of what it concludes from them. -/
theorem apply (method : CollectionMethod) (items : List Value)
    {function : Option (Value → Run Value)} (h : ∀ f ∈ function, ∀ v, P Value (f v))
    (argument : Option Value) (element result : Ty) :
    P Value (method.apply items function argument element result) := by
  have hprepare : P (List Value) (method.prepare items function) := by
    unfold CollectionMethod.prepare
    cases function with
    | none => exact hP.ofPure items
    | some f =>
        simp only
        split
        · exact hP.each_keep (hP.condition (h f rfl)) items
        split
        · exact hP.each_map (h f rfl) items
        · exact hP.ofPure items
  refine hP.bind hprepare fun items => ?_
  split
  · rename_i f
    exact hP.bind_pure (hP.each_all (hP.condition (h f rfl)) items) _
  · exact hP.lift (.conclude method items argument element result)

end Sequential

end LambdaQuery
