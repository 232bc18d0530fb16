/-
**Frame discipline.**  All literals of an expression share one frame.  A call of a literal cuts the
frame down to the literal's base and puts its arguments there, and nothing is taken off when it ends
or fails.  No parameter is lost by that, because the base of every literal that typing makes is the
number of parameters around it.

`Keeps n m` says that the computation `m` leaves the first `n` slots of every frame as they were,
whether it succeeds or fails.  It passes through sequencing, and evaluation is a sequence of its
parts but for two things: a parameter is read off the frame, and the call of a literal changes it.

Main definitions:
* `Expr.parts`, `Expr.function?` — the direct parts of an expression, each with the number of
  further parameters that it sees, and the literal of a method;
* `Expr.Occurs` — an expression occurs in another one, with so many parameters in scope;
* `Expr.Framed` — the base of every literal is the number of parameters in scope where it stands;
* `Keeps` — a computation leaves the first slots of every frame as they were.

Main results:
* `Expr.Typed.of_parts` — a property passes from the parts of typed expressions to the whole;
* `Expr.Typed.framed` — the bases of a typed expression are right;
* `Sequential.eval` — a property that passes through sequencing holds of evaluation if it holds of
  the parameters and of the calls of literals, by induction on the expression;
* `Expr.Framed.keeps` — with right bases evaluation keeps the slots in scope;
* `Lambda.compile_frame_discipline` — **a compiled literal gives the same in every frame, and no
  part of it changes the slots of the parameters in scope**.
-/

import LambdaQuery.Proofs.Sequencing

namespace LambdaQuery

/-! ### Parts of expressions -/

namespace Expr

/-- The direct parts of an expression, each with the number of parameters that it sees besides those
of the expression: the body of a literal sees the literal's own. -/
def parts : Expr → List (Nat × Expr)
  | constant _ _ | parameter _ _ => []
  | field e _ _ _ | key e _ | convert e _ | unwrap e _ | unary _ e _ | datePart _ e _ => [(0, e)]
  | binary _ lhs rhs _ => [(0, lhs), (0, rhs)]
  | cond test ifTrue ifFalse _ => [(0, test), (0, ifTrue), (0, ifFalse)]
  | record _ members => members.map (0, ·)
  | collection _ source function argument _ =>
    (0, source) :: (argument.toList.map (0, ·) ++
      function.toList.map fun l => (l.params.length, l.body))
  | text _ target args _ => (0, target) :: args.map (0, ·)

/-- Is the expression a parameter? -/
def isParameter : Expr → Bool
  | parameter _ _ => true
  | _ => false

/-- The literal of a method. -/
def function? : Expr → Option Lambda
  | collection _ _ function _ _ => function
  | _ => none

/-- The body of the literal of a method is a part. -/
theorem body_mem_parts {e : Expr} {l : Lambda} (h : e.function? = some l) :
    (l.params.length, l.body) ∈ e.parts := by
  cases e with
  | collection method source function argument t =>
      obtain rfl : function = some l := h
      simp [parts]
  | _ => cases h

/-- Under `n` parameters the expression `e` has the expression as a part, at any depth, that sees so
many parameters. -/
inductive Occurs (n : Nat) (e : Expr) : Nat → Expr → Prop
  | self : Occurs n e n e
  | part {m k : Nat} {e' p : Expr} (h : Occurs n e m e') (hp : (k, p) ∈ e'.parts) :
      Occurs n e (m + k) p

/-- Under `n` parameters the base of every literal is the number of parameters in scope. -/
def Framed (n : Nat) (e : Expr) : Prop :=
  ∀ m e' l, e.Occurs n m e' → e'.function? = some l → l.base = m

variable {n m k : Nat} {e e' p : Expr} {l : Lambda}

theorem Occurs.trans {e'' : Expr} {m' : Nat} (h : e.Occurs n m e') (h' : e'.Occurs m m' e'') :
    e.Occurs n m' e'' := by
  induction h' with
  | self => exact h
  | part _ hp ih => exact .part ih hp

/-- An occurrence is the expression itself or lies in one of its parts. -/
theorem Occurs.cases_head (h : e.Occurs n m e') :
    (m = n ∧ e' = e) ∨ ∃ k p, (k, p) ∈ e.parts ∧ p.Occurs (n + k) m e' := by
  induction h with
  | self => exact .inl ⟨rfl, rfl⟩
  | part _ hp ih =>
      refine .inr ?_
      rcases ih with ⟨rfl, rfl⟩ | ⟨k', p', hp', h'⟩
      · exact ⟨_, _, hp, .self⟩
      · exact ⟨k', p', hp', .part h' hp⟩

theorem Framed.of_occurs (h : e.Framed n) (ho : e.Occurs n m e') : e'.Framed m :=
  fun _ _ _ ho' hl => h _ _ _ (ho.trans ho') hl

theorem Framed.part (h : e.Framed n) (hp : (k, p) ∈ e.parts) : p.Framed (n + k) :=
  h.of_occurs (.part .self hp)

theorem Framed.base (h : e.Framed n) (hl : e.function? = some l) : l.base = n := h _ _ _ .self hl

/-- The bases are right if they are in every part and in the expression itself. -/
theorem Framed.of_parts (hparts : ∀ k p, (k, p) ∈ e.parts → p.Framed (n + k))
    (hfunction : ∀ l, e.function? = some l → l.base = n) : e.Framed n := by
  intro m e' l ho hl
  rcases ho.cases_head with ⟨rfl, rfl⟩ | ⟨k, p, hp, ho⟩
  · exact hfunction l hl
  · exact hparts k p hp _ _ _ ho hl

/-- A part is smaller than the expression. -/
theorem sizeOf_lt_of_mem_parts (h : (k, p) ∈ e.parts) : sizeOf p < sizeOf e := by
  cases e with
  | constant | parameter => cases h
  | field | key | convert | unwrap | unary | datePart =>
      simp only [parts, List.mem_singleton, Prod.mk.injEq] at h
      obtain ⟨-, rfl⟩ := h
      simp only [field.sizeOf_spec, key.sizeOf_spec, convert.sizeOf_spec, unwrap.sizeOf_spec,
        unary.sizeOf_spec, datePart.sizeOf_spec]
      omega
  | binary op lhs rhs t =>
      simp only [parts, List.mem_cons, List.not_mem_nil, or_false, Prod.mk.injEq] at h
      rcases h with ⟨-, rfl⟩ | ⟨-, rfl⟩ <;> simp only [binary.sizeOf_spec] <;> omega
  | cond test ifTrue ifFalse t =>
      simp only [parts, List.mem_cons, List.not_mem_nil, or_false, Prod.mk.injEq] at h
      rcases h with ⟨-, rfl⟩ | ⟨-, rfl⟩ | ⟨-, rfl⟩ <;> simp only [cond.sizeOf_spec] <;> omega
  | record r members =>
      simp only [parts, List.mem_map, Prod.mk.injEq] at h
      obtain ⟨e, he, -, rfl⟩ := h
      have := List.sizeOf_lt_of_mem he
      simp only [record.sizeOf_spec]
      omega
  | collection method source function argument t =>
      simp only [parts, List.mem_cons, List.mem_append, List.mem_map, Option.mem_toList,
        Prod.mk.injEq] at h
      rcases h with ⟨-, rfl⟩ | ⟨e, rfl, -, rfl⟩ | ⟨⟨base, params, body, returns⟩, rfl, -, rfl⟩
      · simp only [collection.sizeOf_spec]
        omega
      · simp only [collection.sizeOf_spec, Option.some.sizeOf_spec]
        omega
      · simp only [collection.sizeOf_spec, Option.some.sizeOf_spec, Lambda.mk.sizeOf_spec,
          Lambda.body]
        omega
  | text method target args t =>
      simp only [parts, List.mem_cons, List.mem_map, Prod.mk.injEq] at h
      rcases h with ⟨-, rfl⟩ | ⟨e, he, -, rfl⟩
      · simp only [text.sizeOf_spec]
        omega
      · have := List.sizeOf_lt_of_mem he
        simp only [text.sizeOf_spec]
        omega

/-! ### Parts of typed expressions -/

/-- A property of expressions under parameters of given types holds of all typed expressions if it
holds of the parameters, passes from its parts to an expression that is no parameter and has no
literal of its own, and passes to a method from its source and the body of its literal, whose base
is the number of parameters around it. -/
theorem Typed.of_parts {C : Value → Ty → Prop} {P : List Ty → Expr → Prop}
    (hparameter : ∀ {Γ : List Ty} {slot : Nat} {t : Ty}, Γ[slot]? = some t →
      P Γ (.parameter slot t))
    (hplain : ∀ {Γ : List Ty} {e : Expr} (direct : List Expr), e.isParameter = false →
      e.function? = none → e.parts = direct.map (0, ·) → (∀ p ∈ direct, P Γ p) → P Γ e)
    (hliteral : ∀ {Γ : List Ty} {m : CollectionMethod} {source body : Expr} {name : String}
      {element t : Ty}, P Γ source → P (Γ ++ [element]) body →
        P Γ (.collection m source (some (.ofBody Γ.length [(name, element)] body)) none t))
    {Γ : List Ty} {e : Expr} (h : e.Typed C Γ) : P Γ e := by
  have single {Γ : List Ty} {p : Expr} (hp : P Γ p) : ∀ p' ∈ [p], P Γ p' :=
    List.forall_mem_singleton.mpr hp
  induction h with
  | constant => exact hplain [] rfl rfl rfl fun p hp => by cases hp
  | parameter h => exact hparameter h
  | field _ _ _ ih | key _ _ ih | convert _ _ ih | unwrap _ _ ih | negate _ _ ih | not _ _ ih
  | bareMethod _ _ _ _ ih | length _ _ ih | datePart _ _ ih =>
      exact hplain [_] rfl rfl rfl (single ih)
  | concat _ _ ihl ihr | logic _ _ _ _ _ ihl ihr | arithmetic _ _ _ _ _ _ ihl ihr
  | comparison _ _ _ ihl ihr | itemMethod _ _ _ ihl ihr =>
      exact hplain [_, _] rfl rfl rfl (List.forall_mem_cons.mpr ⟨ihl, single ihr⟩)
  | @coalesce Γ lhs _ t _ _ _ _ ihl ihr =>
      -- the first operand is converted only where its type differs
      have hconverted : P Γ (lhs.convertTo t) := by
        rw [Expr.convertTo]
        split
        · exact ihl
        · exact hplain [_] rfl rfl rfl (single ihl)
      exact hplain [_, _] rfl rfl rfl (List.forall_mem_cons.mpr ⟨hconverted, single ihr⟩)
  | cond _ _ _ _ _ _ iht ih1 ih2 =>
      exact hplain [_, _, _] rfl rfl rfl
        (List.forall_mem_cons.mpr ⟨iht, List.forall_mem_cons.mpr ⟨ih1, single ih2⟩⟩)
  | record _ _ ih => exact hplain _ rfl rfl rfl ih
  | functionMethod _ _ _ _ _ ihs ihb => exact hliteral ihs ihb
  | text _ _ _ _ _ _ ih iha =>
      exact hplain (_ :: _) rfl rfl rfl (List.forall_mem_cons.mpr ⟨ih, iha⟩)

/-- **The base of every literal in a typed expression is the number of parameters in scope.** -/
theorem Typed.framed {C : Value → Ty → Prop} {Γ : List Ty} {e : Expr} (h : e.Typed C Γ) :
    e.Framed Γ.length := by
  refine h.of_parts (P := fun Γ e => e.Framed Γ.length) (fun _ => ?_)
    (fun direct _ hf hparts hdirect => ?_) fun hs hb => ?_
  · exact .of_parts (fun k p hp => by cases hp) fun l hl => by cases hl
  · refine .of_parts (fun k p hp => ?_) fun l hl => by rw [hf] at hl; cases hl
    rw [hparts] at hp
    obtain ⟨p, hp, heq⟩ := List.mem_map.mp hp
    cases heq
    exact hdirect p hp
  · -- the literal starts where the parameters around it end
    refine .of_parts (fun k p hp => ?_) fun l hl => by cases hl; rfl
    simp only [parts, Option.toList, List.map_cons, List.map_nil, List.nil_append, List.mem_cons,
      List.not_mem_nil, or_false, Prod.mk.injEq] at hp
    rcases hp with ⟨rfl, rfl⟩ | ⟨rfl, rfl⟩
    · exact hs
    · simpa [Lambda.ofBody, Lambda.params, Lambda.body] using hb

end Expr

/-! ### Evaluation as sequencing -/

/-- **A property that passes through sequencing holds of evaluation** under any number of parameters
if it holds of the parameters that occur, and of every call of a literal of whose body it holds.
The induction is on the expression. -/
theorem Sequential.eval {P : Nat → (α : Type) → Run α → Prop} (hP : ∀ n, Sequential (P n)) {n : Nat}
    (e : Expr)
    (hparameter : ∀ m slot t, e.Occurs n m (.parameter slot t) →
      P m Value (Expr.parameter slot t).eval)
    (hliteral : ∀ m e' l, e.Occurs n m e' → e'.function? = some l →
      P (m + l.params.length) Value l.body.eval → ∀ args, P m Value (l.invoke args)) :
    P n Value e.eval := by
  have inner : ∀ {k p}, (k, p) ∈ e.parts → P (n + k) Value p.eval := by
    intro k p hp
    have := Expr.sizeOf_lt_of_mem_parts hp
    have hoccurs : e.Occurs n (n + k) p := .part .self hp
    exact eval hP p (fun m slot t ho => hparameter m slot t (hoccurs.trans ho))
      fun m e' l ho => hliteral m e' l (hoccurs.trans ho)
  have direct : ∀ {p}, (0, p) ∈ e.parts → P n Value p.eval := inner
  have h := hP n
  unfold Expr.eval
  cases e with
  | constant v t => exact h.ofPure v
  | parameter slot t =>
      have hslot := hparameter n slot t .self
      unfold Expr.eval at hslot
      exact hslot
  | field target index name t =>
      exact h.bind_lift (direct (by simp [Expr.parts])) fun v => .fieldAt v index name
  | key target t => exact h.bind_lift (direct (by simp [Expr.parts])) .groupKey
  | convert operand t => exact h.bind_pure (direct (by simp [Expr.parts])) _
  | unwrap operand t => exact h.bind_lift (direct (by simp [Expr.parts])) .unwrapped
  | unary op operand t => exact h.bind_lift (direct (by simp [Expr.parts])) (.unary op)
  | binary op lhs rhs t =>
      exact h.bind (direct (by simp [Expr.parts])) fun left =>
        h.combine op left (direct (by simp [Expr.parts]))
  | cond test ifTrue ifFalse t =>
      refine h.bind (direct (by simp [Expr.parts])) fun v => ?_
      split
      · exact direct (by simp [Expr.parts])
      · exact direct (by simp [Expr.parts])
  | record r members =>
      exact h.bind_pure (h.evalAll fun e he => direct (by simpa [Expr.parts] using he)) _
  | collection method source function argument t =>
      refine h.bind (direct (by simp [Expr.parts])) fun v => h.bind (h.lift (.itemsFor v method))
        fun items => ?_
      have hargument : P n (Option Value) (Expr.evalOption argument) := by
        cases argument with
        | none => exact h.ofPure none
        | some e => exact h.bind_pure (direct (by simp [Expr.parts])) some
      refine h.bind hargument fun argument => h.apply _ _ ?_ _ _ _
      intro f hf v
      cases function with
      | none => cases hf
      | some l =>
          cases hf
          exact hliteral n _ l .self rfl (inner (Expr.body_mem_parts rfl)) [v]
  | text method target args t =>
      refine h.bind (direct (by simp [Expr.parts])) fun v => h.bind (h.lift (.textFor v method))
        fun s => ?_
      exact h.bind_lift (h.evalAll fun e he => direct (by simpa [Expr.parts] using .inr he))
        fun vs => .text method s vs
  | datePart part target t =>
      exact h.bind_lift (direct (by simp [Expr.parts])) fun v => .datePart v part
termination_by sizeOf e

/-! ### Computations that keep slots -/

/-- Whatever frame the computation starts with, a value in one of the first `n` slots is there when
it ends, whether it succeeds or fails. -/
def Keeps {α : Type} (n : Nat) (m : Run α) : Prop :=
  ∀ (frame : Frame) (slot : Nat) (v : Value), slot < n → frame[slot]? = some v →
    (m.run frame).2[slot]? = some v

namespace Keeps

variable {n : Nat} {α β : Type}

theorem lift (r : Except EvalError α) : Keeps n (liftResult r) := by
  cases r <;> exact fun _ _ _ _ hv => hv

theorem bind {m : Run α} {k : α → Run β} (hm : Keeps n m) (hk : ∀ a, Keeps n (k a)) :
    Keeps n (m >>= k) := by
  intro frame slot v hs hv
  have hv' := hm frame slot v hs hv
  rw [run_bind]
  generalize m.run frame = r at hv' ⊢
  obtain ⟨r, frame'⟩ := r
  cases r with
  | ok a => exact hk a frame' slot v hs hv'
  | error e => exact hv'

theorem sequential (n : Nat) : Sequential fun _ m => Keeps n m := ⟨fun {_ r} _ => lift r, bind⟩

/-- A call cuts the frame down to the parameters in scope and goes on from there. -/
theorem invoke {l : Lambda} (hb : l.base = n) (hbody : Keeps (n + l.params.length) l.body.eval)
    (args : List Value) : Keeps n (l.invoke args) := by
  obtain ⟨base, params, body, returns⟩ := l
  simp only [Lambda.base] at hb
  subst hb
  unfold Lambda.invoke
  by_cases hl : args.length = params.length
  · rw [if_neg (by simpa using hl)]
    intro frame slot v hs hv
    have hslot : (frame.take base ++ args)[slot]? = some v := by
      have hlt : slot < frame.length := (List.getElem?_eq_some_iff.mp hv).1
      have hcut : slot < (frame.take base).length := by
        rw [List.length_take]
        exact Nat.lt_min.mpr ⟨hs, hlt⟩
      rw [List.getElem?_append_left hcut, List.getElem?_take_of_lt hs, hv]
    exact hbody (frame.take base ++ args) slot v (Nat.lt_add_right _ hs) hslot
  · rw [if_pos hl]
    exact fun _ _ _ _ hv => hv

end Keeps

/-- **With right bases evaluation keeps the slots in scope.** -/
theorem Expr.Framed.keeps {n : Nat} {e : Expr} (h : e.Framed n) : Keeps n e.eval := by
  refine Sequential.eval Keeps.sequential e (fun m slot t _ => ?_) fun m e' l ho hl => ?_
  · unfold Expr.eval
    intro frame
    exact Keeps.lift (slotValue frame slot) frame
  · exact Keeps.invoke (h m e' l ho hl)

/-! ### Compiled literals -/

/-- **Frame discipline.**  A compiled literal gives the same value or the same error on the same
arguments, whatever has been left in the frame.  Every expression in it, and every literal in it on
whatever arguments, keeps the slots of the parameters in scope. -/
theorem Lambda.compile_frame_discipline {text : String} {types : List Ty} {b : Bindings}
    {l : Lambda} (h : Lambda.compile text types b = .ok l) :
    (∀ args frame frame', ((l.invoke args).run frame).1 = ((l.invoke args).run frame').1) ∧
      ∀ n e, l.body.Occurs l.params.length n e →
        Keeps n e.eval ∧
          ∀ inner, e.function? = some inner → ∀ args, Keeps n (inner.invoke args) := by
  obtain ⟨hl, -, -⟩ := Lambda.compile_typed_any h
  refine ⟨?_, ?_⟩
  · intro args frame frame'
    -- in every frame the call is the value of the literal in no environment
    have hd : Denotes [] (l.invoke args) (l.value [] args) := hl.denotes rfl
    obtain ⟨_, hrun, -⟩ := hd frame List.nil_prefix
    obtain ⟨_, hrun', -⟩ := hd frame' List.nil_prefix
    rw [hrun, hrun']
  · intro n e ho
    have hbody : l.body.Framed l.params.length := by
      simpa [Lambda.paramTypes] using hl.body.framed
    have he := hbody.of_occurs ho
    refine ⟨he.keeps, ?_⟩
    intro inner hi args
    exact .invoke (he.base hi) (he.part (Expr.body_mem_parts hi)).keeps args

/-- Two literals one inside the other, the inner one with a parameter of the outer one. -/
theorem compile_frame_discipline_nested :
    ∃ l, Lambda.compile "it.All(x => it.Any(y => x != y))" [.list .int] .empty = .ok l ∧
      (∀ args frame frame', ((l.invoke args).run frame).1 = ((l.invoke args).run frame').1) ∧
      ∃ inner e, l.body.Occurs 1 2 e ∧ e.function? = some inner ∧ Keeps 2 e.eval ∧
        ∀ args, Keeps 2 (inner.invoke args) := by
  let x : Expr := .parameter 1 .int
  let y : Expr := .parameter 2 .int
  let it : Expr := .parameter 0 (.list .int)
  let inner : Lambda := .mk 2 [("y", .int)] (.binary .notEqual x y .bool) .bool
  let e : Expr := .collection .any it (some inner) none .bool
  let outer : Lambda := .mk 1 [("x", .int)] e .bool
  let body : Expr := .collection .all it (some outer) none .bool
  have h : Lambda.compile "it.All(x => it.Any(y => x != y))" [.list .int] .empty =
      .ok (.mk 0 [("it", .list .int)] body .bool) := by cbv
  have ho : body.Occurs 1 2 e := .part .self (Expr.body_mem_parts (e := body) (l := outer) rfl)
  obtain ⟨hcall, hkeeps⟩ := Lambda.compile_frame_discipline h
  exact ⟨_, h, hcall, inner, e, ho, rfl, (hkeeps 2 e ho).1, (hkeeps 2 e ho).2 inner rfl⟩

end LambdaQuery
