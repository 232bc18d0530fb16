/-
**What an expression denotes.**  Evaluation threads one frame through all calls of function
literals, and what an inner call leaves behind stays there.  An expression made from text never
sees it: its value is a function of the parameters in scope alone.

`Expr.value` is that function, by recursion on the expression, with the values of the parameters as
an environment that is passed down and never changed.  An environment is in place in a frame that
starts with it, and a computation denotes a result if it gives the result in every such frame and
leaves the environment in place.

Main definitions:
* `Expr.value`, `Lambda.value` — the value of an expression in an environment, and of a literal on
  arguments;
* `Denotes` — a computation with a frame gives a result that depends on the environment alone.

Main results:
* `Denotes.bind`, `Denotes.each_map`, `Denotes.each_keep`, `Denotes.each_all`, `Denotes.apply` —
  denotation passes through sequencing and through the methods of collections;
* `Expr.Typed.denotes` — **evaluation of a typed expression is its value**, whatever the frame holds
  past the environment;
* `Lambda.Typed.denotes` — the same for a call of a typed literal.
-/

import LambdaQuery.Expr.Eval
import LambdaQuery.Proofs.ExprTyping

namespace LambdaQuery

/-! ### Values in an environment -/

mutual

/-- The value of an expression in an environment. -/
def Expr.value (env : List Value) (e : Expr) : Except EvalError Value :=
  match e with
  | .constant v _ => .ok v
  | .parameter slot _ => slotValue env slot
  | .field target index name _ => do (← target.value env).fieldAt index name
  | .key target _ => do (← target.value env).groupKey
  | .convert operand type => do return (← operand.value env).convert type
  | .unwrap operand _ => do (← operand.value env).unwrapped
  | .unary op operand _ => do op.apply (← operand.value env)
  | .binary op lhs rhs _ => do op.combine (← lhs.value env) (rhs.value env)
  | .cond test ifTrue ifFalse _ => do
    if (← test.value env).isTrue then ifTrue.value env else ifFalse.value env
  | .record type members => do return .record type (← Expr.values env members)
  | .collection method source function argument type => do
    let items ← (← source.value env).itemsFor method
    let argument ← Expr.valueOption env argument
    method.apply items (Lambda.valueOption env function) argument
      (source.type.element?.getD .object) type
  | .text method target args _ => do
    let s ← (← target.value env).textFor method
    method.apply s (← Expr.values env args)
  | .datePart part target _ => do (← target.value env).datePart part

/-- The values of several expressions, in order. -/
def Expr.values (env : List Value) (es : List Expr) : Except EvalError (List Value) :=
  match es with
  | [] => .ok []
  | e :: es => do
    let v ← e.value env
    let vs ← Expr.values env es
    return v :: vs

/-- The value of an expression that may be absent. -/
def Expr.valueOption (env : List Value) (e : Option Expr) : Except EvalError (Option Value) :=
  match e with
  | some e => do return some (← e.value env)
  | none => .ok none

/-- The value of a function literal on arguments: its body sees the environment up to the base of
the literal, and the arguments after it. -/
def Lambda.value (env : List Value) (l : Lambda) (args : List Value) : Except EvalError Value :=
  match l with
  | .mk base params body _ =>
    if args.length = params.length then body.value (env.take base ++ args)
    else .error (.argumentCount params.length args.length)

/-- What a function literal that may be absent computes from a value. -/
def Lambda.valueOption (env : List Value) (l : Option Lambda) :
    Option (Value → Except EvalError Value) :=
  match l with
  | some l => some fun v => l.value env [v]
  | none => none

end

/-! ### Denotation -/

/-- In every frame that starts with the environment, the computation gives the result and leaves a
frame that starts with the environment. -/
def Denotes {α : Type} (env : List Value) (m : Run α) (r : Except EvalError α) : Prop :=
  ∀ frame, env <+: frame → ∃ frame', m.run frame = (r, frame') ∧ env <+: frame'

theorem liftResult_except {α : Type} (r : Except EvalError α) :
    (liftResult r : Except EvalError α) = r := by
  cases r <;> rfl

/-- A sequence goes on in the state that its first part leaves, and stops there if that part
fails. -/
theorem run_bind {ε σ α β : Type} (m : ExceptT ε (StateM σ) α) (k : α → ExceptT ε (StateM σ) β)
    (state : σ) :
    (m >>= k).run state =
      match m.run state with
      | (.ok a, state') => (k a).run state'
      | (.error e, state') => (.error e, state') := by
  show (ExceptT.bindCont k (m.run state).1 : StateM σ _) (m.run state).2 = _
  obtain ⟨r, state'⟩ := m.run state
  cases r <;> rfl

namespace CollectionMethod

variable {m : Type → Type} [Monad m] [MonadExceptOf EvalError m] {method : CollectionMethod}
  {items : List Value} {argument : Option Value} {element result : Ty}

/-- Every method but `all` prepares its items and concludes. -/
theorem apply_eq (hm : method ≠ .all) (function : Option (Value → m Value)) :
    method.apply items function argument element result =
      method.prepare items function >>= fun items =>
        liftResult (method.conclude items argument element result) := by
  cases method with
  | all => exact absurd rfl hm
  | _ => rfl

theorem apply_none_eq :
    method.apply items (none : Option (Value → m Value)) argument element result =
      pure items >>= fun items => liftResult (method.conclude items argument element result) := by
  cases method <;> rfl

end CollectionMethod

namespace Denotes

variable {env : List Value} {α β : Type}

theorem ofPure (a : α) : Denotes env (pure a) (.ok a) := by
  intro frame h
  exact ⟨frame, rfl, h⟩

theorem ofThrow (e : EvalError) : Denotes env (throw e : Run α) (.error e) := by
  intro frame h
  exact ⟨frame, rfl, h⟩

theorem lift (r : Except EvalError α) : Denotes env (liftResult r) r := by
  cases r with
  | ok a => exact ofPure a
  | error e => exact ofThrow e

theorem bind {m : Run α} {r : Except EvalError α} {k : α → Run β} {k' : α → Except EvalError β}
    (hm : Denotes env m r) (hk : ∀ a, r = .ok a → Denotes env (k a) (k' a)) :
    Denotes env (m >>= k) (r >>= k') := by
  intro frame h
  obtain ⟨frame', hrun, h'⟩ := hm frame h
  have hbind := run_bind m k frame
  rw [hrun] at hbind
  cases r with
  | ok a =>
      obtain ⟨frame'', hk, h''⟩ := hk a rfl frame' h'
      exact ⟨frame'', hbind.trans hk, h''⟩
  | error e => exact ⟨frame', hbind, h'⟩

/-- A result that is used on the spot. -/
theorem bind_lift {m : Run α} {r : Except EvalError α} {f : α → Except EvalError β}
    (hm : Denotes env m r) : Denotes env (m >>= fun a => liftResult (f a)) (r >>= f) :=
  hm.bind fun _ _ => lift _

theorem bind_pure {m : Run α} {r : Except EvalError α} {f : α → β} (hm : Denotes env m r) :
    Denotes env (m >>= fun a => pure (f a)) (r >>= fun a => pure (f a)) :=
  hm.bind fun _ _ => ofPure _

theorem congr {m : Run α} {r r' : Except EvalError α} (hm : Denotes env m r) (h : r = r') :
    Denotes env m r' :=
  h ▸ hm

/-! ### Lists -/

theorem each_map {f : α → Run β} {g : α → Except EvalError β} :
    ∀ {xs : List α}, (∀ x ∈ xs, Denotes env (f x) (g x)) →
      Denotes env (Each.map f xs) (Each.map g xs) := by
  intro xs
  induction xs with
  | nil =>
      intro _
      exact ofPure []
  | cons x xs ih =>
      intro h
      have hx := h x (List.mem_cons_self ..)
      have hxs := ih fun y hy => h y (List.mem_cons_of_mem _ hy)
      exact hx.bind fun y _ => hxs.bind fun ys _ => ofPure _

theorem each_keep {f : α → Run Bool} {g : α → Except EvalError Bool} :
    ∀ {xs : List α}, (∀ x ∈ xs, Denotes env (f x) (g x)) →
      Denotes env (Each.keep f xs) (Each.keep g xs) := by
  intro xs
  induction xs with
  | nil =>
      intro _
      exact ofPure []
  | cons x xs ih =>
      intro h
      have hx := h x (List.mem_cons_self ..)
      have hxs := ih fun y hy => h y (List.mem_cons_of_mem _ hy)
      exact hx.bind fun y _ => hxs.bind fun ys _ => ofPure _

theorem each_all {f : α → Run Bool} {g : α → Except EvalError Bool} :
    ∀ {xs : List α}, (∀ x ∈ xs, Denotes env (f x) (g x)) →
      Denotes env (Each.all f xs) (Each.all g xs) := by
  intro xs
  induction xs with
  | nil =>
      intro _
      exact ofPure true
  | cons x xs ih =>
      intro h
      have hx := h x (List.mem_cons_self ..)
      have hxs := ih fun y hy => h y (List.mem_cons_of_mem _ hy)
      refine hx.bind fun b _ => ?_
      cases b with
      | false => exact ofPure false
      | true => exact hxs

/-! ### Methods of collections -/

section Methods

variable {f : Value → Run Value} {g : Value → Except EvalError Value} {items : List Value}

theorem condition {v : Value} (h : Denotes env (f v) (g v)) :
    Denotes env (CollectionMethod.condition f v) (CollectionMethod.condition g v) :=
  h.bind fun _ _ => (lift _).congr (liftResult_except _).symm

theorem prepare (method : CollectionMethod) (h : ∀ v ∈ items, Denotes env (f v) (g v)) :
    Denotes env (method.prepare items (some f)) (method.prepare items (some g)) := by
  unfold CollectionMethod.prepare
  simp only
  split
  · exact each_keep fun v hv => condition (h v hv)
  split
  · exact each_map h
  · exact ofPure items

theorem apply_some (method : CollectionMethod) (argument : Option Value) (element result : Ty)
    (h : ∀ v ∈ items, Denotes env (f v) (g v)) :
    Denotes env (method.apply items (some f) argument element result)
      (method.apply items (some g) argument element result) := by
  by_cases hm : method = .all
  · -- the only method that asks its function once more, of items that are as they were
    subst hm
    exact (ofPure items).bind fun xs hxs => by
      cases hxs
      exact (each_all fun v hv => condition (h v hv)).bind fun b _ => ofPure _
  · rw [CollectionMethod.apply_eq hm, CollectionMethod.apply_eq hm]
    exact (prepare method h).bind fun xs _ => (lift _).congr (liftResult_except _).symm

theorem apply_none (method : CollectionMethod) (argument : Option Value) (element result : Ty) :
    Denotes env (method.apply items none argument element result)
      (method.apply items none argument element result) := by
  rw [CollectionMethod.apply_none_eq, CollectionMethod.apply_none_eq]
  exact (ofPure items).bind fun xs _ => (lift _).congr (liftResult_except _).symm

end Methods

/-! ### Operators -/

theorem combine (op : BinaryOp) (left : Value) {m : Run Value} {r : Except EvalError Value}
    (h : Denotes env m r) : Denotes env (op.combine left m) (op.combine left r) := by
  have logic : Denotes env (m >>= fun v => pure (Value.bool v.isTrue))
      (r >>= fun v => pure (Value.bool v.isTrue)) := h.bind_pure
  have strict : Denotes env (m >>= fun v => liftResult (op.apply left v))
      (r >>= fun v => liftResult (op.apply left v)) :=
    h.bind fun v _ => (lift _).congr (liftResult_except _).symm
  unfold BinaryOp.combine
  cases op with
  | and =>
      cases left with
      | bool b =>
          cases b with
          | false => exact ofPure _
          | true => exact logic
      | _ => exact logic
  | or =>
      cases left with
      | bool b =>
          cases b with
          | false => exact logic
          | true => exact ofPure _
      | _ => exact logic
  | coalesce =>
      cases left with
      | null => exact h
      | _ => exact ofPure _
  | _ => exact strict

theorem binary {op : BinaryOp} {lhs rhs : Expr} {t : Ty}
    (hl : Denotes env lhs.eval (lhs.value env)) (hr : Denotes env rhs.eval (rhs.value env)) :
    Denotes env (Expr.binary op lhs rhs t).eval ((Expr.binary op lhs rhs t).value env) := by
  unfold Expr.eval Expr.value
  exact hl.bind fun left _ => hr.combine op left

/-! ### Frames -/

/-- A slot of the environment is read off every frame that starts with it. -/
theorem slot {slot : Nat} (h : slot < env.length) :
    Denotes env (do liftResult (slotValue (← get) slot)) (slotValue env slot) := by
  intro frame hp
  obtain ⟨rest, rfl⟩ := hp
  have hs : slotValue (env ++ rest) slot = slotValue env slot := by
    unfold slotValue
    rw [List.getElem?_append_left h]
  refine ⟨env ++ rest, ?_, List.prefix_append _ _⟩
  rw [← hs]
  show (liftResult (slotValue (env ++ rest) slot) : Run Value).run (env ++ rest) = _
  cases slotValue (env ++ rest) slot <;> rfl

/-- A call puts its arguments after the environment, and the body sees both. -/
theorem invoke {l : Lambda} {args : List Value} (hb : l.base = env.length)
    (hbody : args.length = l.params.length →
      Denotes (env ++ args) l.body.eval (l.body.value (env ++ args))) :
    Denotes env (l.invoke args) (l.value env args) := by
  obtain ⟨base, params, body, returns⟩ := l
  simp only [Lambda.base] at hb
  subst hb
  unfold Lambda.invoke Lambda.value
  by_cases hl : args.length = params.length
  · rw [if_neg (by simpa using hl), if_pos hl, List.take_length]
    intro frame hp
    obtain ⟨rest, rfl⟩ := hp
    obtain ⟨frame', hrun, h'⟩ := hbody hl (env ++ args) (List.prefix_refl _)
    refine ⟨frame', ?_, (List.prefix_append env args).trans h'⟩
    show body.eval.run ((env ++ rest).take env.length ++ args) = _
    rw [List.take_left]
    exact hrun
  · rw [if_pos hl, if_neg hl]
    intro frame hp
    exact ⟨frame, rfl, hp⟩

theorem evalAll {es : List Expr} (h : ∀ e ∈ es, Denotes env e.eval (e.value env)) :
    Denotes env (Expr.evalAll es) (Expr.values env es) := by
  induction es with
  | nil => exact ofPure []
  | cons e es ih =>
      have he := h e (List.mem_cons_self ..)
      have hes := ih fun e' he' => h e' (List.mem_cons_of_mem _ he')
      unfold Expr.evalAll Expr.values
      exact he.bind fun v _ => hes.bind fun vs _ => ofPure _

end Denotes

/-! ### Typed expressions -/

/-- **Evaluation of a typed expression is its value** in the environment, whatever the frame holds
past it.  The induction is on the rules of typing. -/
theorem Expr.Typed.denotes {C : Value → Ty → Prop} {Γ : List Ty} {e : Expr} (h : e.Typed C Γ) :
    ∀ {env : List Value}, env.length = Γ.length → Denotes env e.eval (e.value env) := by
  -- the body of a literal is typed under one more parameter, so the environment stays open
  induction h with
  | constant h =>
      intro env _
      rw [Expr.eval, Expr.value]
      exact .ofPure _
  | parameter h =>
      intro env hl
      rw [Expr.eval, Expr.value]
      refine .slot ?_
      rw [hl]
      exact (List.getElem?_eq_some_iff.mp h).1
  | field _ _ _ ih =>
      intro env hl
      rw [Expr.eval, Expr.value]
      exact (ih hl).bind_lift
  | key _ _ ih =>
      intro env hl
      rw [Expr.eval, Expr.value]
      exact (ih hl).bind_lift
  | convert _ _ ih =>
      intro env hl
      rw [Expr.eval, Expr.value]
      exact (ih hl).bind_pure
  | unwrap _ _ ih =>
      intro env hl
      rw [Expr.eval, Expr.value]
      exact (ih hl).bind_lift
  | negate _ _ ih =>
      intro env hl
      rw [Expr.eval, Expr.value]
      exact (ih hl).bind_lift
  | not _ _ ih =>
      intro env hl
      rw [Expr.eval, Expr.value]
      exact (ih hl).bind_lift
  | concat _ _ ihl ihr =>
      intro env hl
      exact .binary (ihl hl) (ihr hl)
  | logic _ _ _ _ _ ihl ihr =>
      intro env hl
      exact .binary (ihl hl) (ihr hl)
  | arithmetic _ _ _ _ _ _ ihl ihr =>
      intro env hl
      exact .binary (ihl hl) (ihr hl)
  | comparison _ _ _ ihl ihr =>
      intro env hl
      exact .binary (ihl hl) (ihr hl)
  | @coalesce _ lhs rhs t _ _ _ _ ihl ihr =>
      intro env hl
      refine .binary ?_ (ihr hl)
      -- the first operand is converted only where its type differs
      unfold Expr.convertTo
      split
      · exact ihl hl
      · unfold Expr.eval Expr.value
        exact (ihl hl).bind_pure
  | cond _ _ _ _ _ _ iht ih1 ih2 =>
      intro env hl
      rw [Expr.eval, Expr.value]
      refine (iht hl).bind fun v _ => ?_
      split
      · exact ih1 hl
      · exact ih2 hl
  | record _ _ ih =>
      intro env hl
      rw [Expr.eval, Expr.value]
      exact (Denotes.evalAll fun e he => ih e he hl).bind_pure
  | bareMethod _ _ _ _ ih =>
      intro env hl
      rw [Expr.eval, Expr.value]
      refine (ih hl).bind fun v _ => (Denotes.lift _).bind fun items _ => ?_
      unfold Expr.evalOption Expr.valueOption Lambda.invokeOption Lambda.valueOption
      exact (Denotes.ofPure _).bind fun argument _ => Denotes.apply_none _ _ _ _
  | itemMethod _ _ _ ihs ihi =>
      intro env hl
      rw [Expr.eval, Expr.value]
      refine (ihs hl).bind fun v _ => (Denotes.lift _).bind fun items _ => ?_
      unfold Expr.evalOption Expr.valueOption Lambda.invokeOption Lambda.valueOption
      exact (ihi hl).bind_pure.bind fun argument _ => Denotes.apply_none _ _ _ _
  | functionMethod _ _ _ _ _ ihs ihb =>
      intro env hl
      rw [Expr.eval, Expr.value]
      refine (ihs hl).bind fun v _ => (Denotes.lift _).bind fun items _ => ?_
      unfold Expr.evalOption Expr.valueOption Lambda.invokeOption Lambda.valueOption
      refine (Denotes.ofPure _).bind fun argument _ => Denotes.apply_some _ _ _ _ fun v _ => ?_
      -- the base of the literal is the length of the environment around it
      exact .invoke hl.symm fun _ => ihb (by simp [hl])
  | length _ _ ih =>
      intro env hl
      rw [Expr.eval, Expr.value]
      refine (ih hl).bind fun v _ => (Denotes.lift _).bind fun s _ => ?_
      exact (Denotes.evalAll fun e he => by cases he).bind_lift
  | text _ _ _ _ _ _ ih iha =>
      intro env hl
      rw [Expr.eval, Expr.value]
      refine (ih hl).bind fun v _ => (Denotes.lift _).bind fun s _ => ?_
      exact (Denotes.evalAll fun e he => iha e he hl).bind_lift
  | datePart _ _ ih =>
      intro env hl
      rw [Expr.eval, Expr.value]
      exact (ih hl).bind_lift

/-- In a frame that starts with the environment a typed expression gives its value. -/
theorem Expr.Typed.run_eval {C : Value → Ty → Prop} {Γ : List Ty} {e : Expr} (h : e.Typed C Γ)
    {env : List Value} (hlen : env.length = Γ.length) {frame : Frame} (hframe : env <+: frame) :
    (e.eval.run frame).1 = e.value env := by
  obtain ⟨frame', hrun, -⟩ := h.denotes hlen frame hframe
  rw [hrun]

/-- **A call of a typed literal is its value** on the arguments, in the environment in place. -/
theorem Lambda.Typed.denotes {C : Value → Ty → Prop} {Γ : List Ty} {l : Lambda} (h : l.Typed C Γ)
    {env args : List Value} (hl : env.length = Γ.length) :
    Denotes env (l.invoke args) (l.value env args) := by
  refine .invoke (h.base.trans hl.symm) fun ha => h.body.denotes ?_
  simp [hl, ha, Lambda.paramTypes]

end LambdaQuery
