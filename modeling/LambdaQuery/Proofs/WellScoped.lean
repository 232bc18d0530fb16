/-
**Well-scoped literals.**  Typing resolves the parameters of all literals around an expression to
slots, counted from the outermost literal inwards.  In what it makes, the base of every literal is
the number of parameters around the literal, and every parameter is one of those in scope, of the
type declared for it.  Therefore evaluation finds a value in every slot that it reads: a call of a
literal binds the slots that its body has in scope, and nothing that is evaluated takes any of them
off the frame.

Main definitions:
* `Expr.Encloses` — an expression is part of another one, with parameters of given types in scope;
* `Expr.WellScoped` — the bases of literals and the slots of parameters are right;
* `Bound` — in a frame that has the first slots a computation reports no unbound slot, and leaves
  such a frame.

Main results:
* `Expr.Typed.wellScoped` — typed expressions are well scoped;
* `Expr.WellScoped.bound` — **a well-scoped expression reports no unbound slot** in a frame that has
  the parameters in scope;
* `Lambda.compile_well_scoped` — **compiled literals are well scoped**, and typing them in place
  leaves the scope as it was.
-/

import LambdaQuery.Proofs.FrameDiscipline
import LambdaQuery.Proofs.InPlaceTyping

namespace LambdaQuery

/-! ### Parts and the parameters they see -/

namespace Expr

/-- Under parameters of the types `Γ` the expression `e` has the expression as a part, at any depth,
where parameters of those types are in scope: the given ones and, in the body of a literal, the
literal's own after the ones around it. -/
inductive Encloses (Γ : List Ty) (e : Expr) : List Ty → Expr → Prop
  | self : Encloses Γ e Γ e
  -- the body of a literal without parameters falls under both rules, which then agree
  | part {Δ : List Ty} {e' p : Expr} (h : Encloses Γ e Δ e') (hp : (0, p) ∈ e'.parts) :
      Encloses Γ e Δ p
  | body {Δ : List Ty} {e' : Expr} {l : Lambda} (h : Encloses Γ e Δ e')
      (hl : e'.function? = some l) : Encloses Γ e (Δ ++ l.paramTypes) l.body

variable {Γ Δ : List Ty} {e e' : Expr}

/-- A part sees no further parameters, unless it is the body of the literal of a method. -/
theorem mem_parts_cases {k : Nat} {p : Expr} (h : (k, p) ∈ e.parts) :
    k = 0 ∨ ∃ l, e.function? = some l ∧ k = l.params.length ∧ p = l.body := by
  cases e with
  | constant | parameter => cases h
  | field | key | convert | unwrap | unary | datePart =>
      exact .inl (Prod.mk.inj (List.mem_singleton.mp h)).1
  | binary op lhs rhs t =>
      simp only [parts, List.mem_cons, List.not_mem_nil, or_false, Prod.mk.injEq] at h
      rcases h with ⟨rfl, -⟩ | ⟨rfl, -⟩ <;> exact .inl rfl
  | cond test ifTrue ifFalse t =>
      simp only [parts, List.mem_cons, List.not_mem_nil, or_false, Prod.mk.injEq] at h
      rcases h with ⟨rfl, -⟩ | ⟨rfl, -⟩ | ⟨rfl, -⟩ <;> exact .inl rfl
  | record r members =>
      obtain ⟨_, -, h⟩ := List.mem_map.mp h
      exact .inl (Prod.mk.inj h).1.symm
  | collection method source function argument t =>
      simp only [parts, List.mem_cons, List.mem_append, List.mem_map, Option.mem_toList,
        Prod.mk.injEq] at h
      rcases h with ⟨rfl, -⟩ | ⟨_, -, rfl, -⟩ | ⟨l, rfl, rfl, rfl⟩
      · exact .inl rfl
      · exact .inl rfl
      · exact .inr ⟨l, rfl, rfl, rfl⟩
  | text method target args t =>
      rcases List.mem_cons.mp h with h | h
      · exact .inl (Prod.mk.inj h).1
      · obtain ⟨_, -, h⟩ := List.mem_map.mp h
        exact .inl (Prod.mk.inj h).1.symm

/-- A part is the expression itself, lies in one of its direct parts or in the body of its
literal. -/
theorem Encloses.cases_head (h : e.Encloses Γ Δ e') :
    (Δ = Γ ∧ e' = e) ∨ (∃ p, (0, p) ∈ e.parts ∧ p.Encloses Γ Δ e') ∨
      ∃ l, e.function? = some l ∧ l.body.Encloses (Γ ++ l.paramTypes) Δ e' := by
  induction h with
  | self => exact .inl ⟨rfl, rfl⟩
  | part _ hp ih =>
      refine .inr ?_
      rcases ih with ⟨rfl, rfl⟩ | ⟨p, hp', h⟩ | ⟨l, hl, h⟩
      · exact .inl ⟨_, hp, .self⟩
      · exact .inl ⟨p, hp', .part h hp⟩
      · exact .inr ⟨l, hl, .part h hp⟩
  | body _ hf ih =>
      refine .inr ?_
      rcases ih with ⟨rfl, rfl⟩ | ⟨p, hp', h⟩ | ⟨l, hl, h⟩
      · exact .inr ⟨_, hf, .self⟩
      · exact .inl ⟨p, hp', .body h hf⟩
      · exact .inr ⟨l, hl, .body h hf⟩

theorem Encloses.trans {Θ : List Ty} {e'' : Expr} (h : e.Encloses Γ Δ e')
    (h' : e'.Encloses Δ Θ e'') : e.Encloses Γ Θ e'' := by
  induction h' with
  | self => exact h
  | part _ hp ih => exact .part ih hp
  | body _ hl ih => exact .body ih hl

/-- The types of the parameters in scope give their number. -/
theorem Encloses.occurs (h : e.Encloses Γ Δ e') : e.Occurs Γ.length Δ.length e' := by
  induction h with
  | self => exact .self
  | part _ hp ih => exact .part ih hp
  | @body _ _ l _ hl ih => simpa [Lambda.paramTypes] using Occurs.part ih (body_mem_parts hl)

/-- Wherever an expression occurs, the parameters in scope have types. -/
theorem Occurs.encloses {m : Nat} (h : e.Occurs Γ.length m e') :
    ∃ Δ : List Ty, Δ.length = m ∧ e.Encloses Γ Δ e' := by
  induction h with
  | self => exact ⟨Γ, rfl, .self⟩
  | part _ hp ih =>
      obtain ⟨Δ, rfl, h⟩ := ih
      rcases mem_parts_cases hp with rfl | ⟨l, hl, rfl, rfl⟩
      · exact ⟨Δ, rfl, .part h hp⟩
      · exact ⟨Δ ++ l.paramTypes, by simp [Lambda.paramTypes], .body h hl⟩

/-- Under parameters of the types `Γ` the expression is well scoped: the base of every literal is
the number of parameters in scope, and every parameter is one of those in scope, of the type
declared for it. -/
structure WellScoped (Γ : List Ty) (e : Expr) : Prop where
  base : ∀ {Δ : List Ty} {e' : Expr} {l : Lambda}, e.Encloses Γ Δ e' → e'.function? = some l →
    l.base = Δ.length
  slot : ∀ {Δ : List Ty} {slot : Nat} {t : Ty}, e.Encloses Γ Δ (.parameter slot t) →
    Δ[slot]? = some t

theorem WellScoped.of_encloses (h : e.WellScoped Γ) (he : e.Encloses Γ Δ e') : e'.WellScoped Δ :=
  ⟨fun he' hl => h.base (he.trans he') hl, fun he' => h.slot (he.trans he')⟩

theorem WellScoped.framed (h : e.WellScoped Γ) : e.Framed Γ.length := by
  intro m e' l ho hl
  obtain ⟨Δ, rfl, he⟩ := ho.encloses
  exact h.base he hl

/-- **Typed expressions are well scoped.** -/
theorem Typed.wellScoped {C : Value → Ty → Prop} (h : e.Typed C Γ) : e.WellScoped Γ := by
  refine ⟨fun he hl => h.framed _ _ _ he.occurs hl, fun {Δ slot t} he => ?_⟩
  -- `Δ` and the slot stay fixed while the expression around the parameter gets smaller
  refine h.of_parts (P := fun Γ e => e.Encloses Γ Δ (.parameter slot t) → Δ[slot]? = some t)
    (fun hs he => ?_) (fun direct hne hf hparts hdirect he => ?_) (fun hs hb he => ?_) he
  · rcases he.cases_head with ⟨rfl, heq⟩ | ⟨p, hp, -⟩ | ⟨l, hl, -⟩
    · cases heq
      exact hs
    · cases hp
    · cases hl
  · rcases he.cases_head with ⟨-, heq⟩ | ⟨p, hp, hpart⟩ | ⟨l, hl, -⟩
    · subst heq
      cases hne
    · rw [hparts] at hp
      obtain ⟨p, hp, heq⟩ := List.mem_map.mp hp
      cases heq
      exact hdirect p hp hpart
    · rw [hf] at hl
      cases hl
  · rcases he.cases_head with ⟨-, heq⟩ | ⟨p, hp, hpart⟩ | ⟨l, hl, hinside⟩
    · cases heq
    · simp only [parts, Option.toList, List.map_cons, List.map_nil, List.nil_append, List.mem_cons,
        List.not_mem_nil, or_false, Prod.mk.injEq, true_and] at hp
      rcases hp with rfl | ⟨hp, -⟩
      · exact hs hpart
      · cases hp
    · cases hl
      exact hb hinside

end Expr

/-! ### Slots in scope -/

/-- In every frame that has the first `n` slots the computation reports no unbound slot, and it
leaves a frame that has them. -/
def Bound {α : Type} (n : Nat) (m : Run α) : Prop :=
  ∀ frame : Frame, n ≤ frame.length → Settled (m.run frame).1 ∧ n ≤ (m.run frame).2.length

namespace Bound

variable {n : Nat} {α β : Type}

theorem lift {r : Except EvalError α} (h : Settled r) : Bound n (liftResult r) := by
  intro frame hf
  cases r <;> exact ⟨h, hf⟩

theorem bind {m : Run α} {k : α → Run β} (hm : Bound n m) (hk : ∀ a, Bound n (k a)) :
    Bound n (m >>= k) := by
  intro frame hf
  obtain ⟨hr, hf'⟩ := hm frame hf
  rw [run_bind]
  generalize m.run frame = r at hr hf' ⊢
  obtain ⟨r, frame'⟩ := r
  cases r with
  | ok a => exact hk a frame' hf'
  | error e => exact ⟨fun slot he => by cases he; exact hr slot rfl, hf'⟩

theorem sequential (n : Nat) : Sequential fun _ m => Bound n m := ⟨lift, bind⟩

/-- A parameter in scope has a slot. -/
theorem parameter {slot : Nat} {t : Ty} (h : slot < n) :
    Bound n (Expr.parameter slot t).eval := by
  unfold Expr.eval
  intro frame hf
  have hs : slotValue frame slot = .ok frame[slot] := by
    unfold slotValue
    rw [List.getElem?_eq_getElem (by omega)]
  exact lift (hs ▸ .ofOk _) frame hf

/-- A call binds the slots that the body has in scope. -/
theorem invoke {l : Lambda} (hb : l.base = n) (hbody : Bound (n + l.params.length) l.body.eval)
    (args : List Value) : Bound n (l.invoke args) := by
  obtain ⟨base, params, body, returns⟩ := l
  simp only [Lambda.base] at hb
  subst hb
  unfold Lambda.invoke
  intro frame hf
  by_cases hl : args.length = params.length
  · rw [if_neg (by simpa using hl)]
    have hlen : (frame.take base ++ args).length = base + params.length := by
      simp [hl, Nat.min_eq_left hf]
    obtain ⟨hr, hf'⟩ := hbody (frame.take base ++ args) (Nat.le_of_eq hlen.symm)
    exact ⟨hr, Nat.le_trans (Nat.le_add_right ..) hf'⟩
  · rw [if_pos hl]
    exact ⟨.ofError rfl, hf⟩

end Bound

/-- **A well-scoped expression reports no unbound slot** in a frame that has the parameters in
scope. -/
theorem Expr.WellScoped.bound {Γ : List Ty} {e : Expr} (h : e.WellScoped Γ) :
    Bound Γ.length e.eval := by
  refine Sequential.eval Bound.sequential e (fun m slot t ho => ?_) fun m e' l ho hl => ?_
  · obtain ⟨Δ, rfl, he⟩ := ho.encloses
    exact .parameter (List.getElem?_eq_some_iff.mp (h.slot he)).1
  · exact Bound.invoke (h.framed m e' l ho hl)

/-! ### Compiled literals -/

/-- **Compiled literals are well scoped.**  Typing in one scope that is changed in place gives what
`Scope.function` gives and leaves the scope as it was, whether it succeeds or fails.  A compiled
literal starts at the first slot.  Wherever parameters of the types `Δ` are in scope in it, the base
of a literal is their number, a parameter is one of them and has the type declared for it, and
evaluation in a frame that has them reports no unbound slot.  Hence no call of the literal does,
whatever the arguments are and whatever has been left in the frame. -/
theorem Lambda.compile_well_scoped :
    (∀ (t : Term) (types : List Ty) (s : Scope),
      (Binder.function types t).run s = (s.function types t, s)) ∧
    ∀ {text : String} {types : List Ty} {b : Bindings} {l : Lambda},
      Lambda.compile text types b = .ok l →
        l.base = 0 ∧ l.paramTypes = types ∧
          (∀ Δ e, l.body.Encloses types Δ e →
            (∀ inner, e.function? = some inner → inner.base = Δ.length) ∧
              (∀ slot t, e = .parameter slot t → ∃ h : slot < Δ.length, Δ[slot] = t) ∧
                Bound Δ.length e.eval) ∧
          ∀ args frame slot, ((l.invoke args).run frame).1 ≠ .error (.unboundSlot slot) := by
  refine ⟨fun t types => Binder.function_restores types t, ?_⟩
  intro text types b l h
  obtain ⟨hl, rfl, -⟩ := Lambda.compile_typed_any h
  have hbody : l.body.WellScoped l.paramTypes := hl.body.wellScoped
  refine ⟨hl.base, rfl, fun Δ e he => ⟨?_, ?_, ?_⟩, ?_⟩
  · intro inner hi
    exact hbody.base he hi
  · rintro slot t rfl
    exact List.getElem?_eq_some_iff.mp (hbody.slot he)
  · exact (hbody.of_encloses he).bound
  · intro args frame
    have hinner : Bound (0 + l.params.length) l.body.eval := by
      simpa [Lambda.paramTypes] using hbody.bound
    exact (Bound.invoke hl.base hinner args frame (Nat.zero_le _)).1

/-- Two literals one inside the other, the inner one with a parameter of a name that is taken: it
gets a slot of its own, after those of the parameters around it. -/
theorem compile_well_scoped_shadowed :
    ∃ l, Lambda.compile "(xs, ys) => xs.Any(x => ys.All(xs => xs != x))" [.list .int, .list .int]
        .empty = .ok l ∧ l.base = 0 ∧
      (∃ inner e, l.body.Encloses [.list .int, .list .int] [.list .int, .list .int, .int] e ∧
        e.function? = some inner ∧ inner.base = 3 ∧ Bound 3 e.eval) ∧
      (∃ Δ, l.body.Encloses [.list .int, .list .int] Δ (.parameter 3 .int) ∧
        ∃ h : 3 < Δ.length, Δ[3] = .int) ∧
      ∀ args frame slot, ((l.invoke args).run frame).1 ≠ .error (.unboundSlot slot) := by
  let left : Expr := .parameter 3 .int
  let test : Expr := .binary .notEqual left (.parameter 2 .int) .bool
  let inner : Lambda := .mk 3 [("xs", .int)] test .bool
  let e : Expr := .collection .all (.parameter 1 (.list .int)) (some inner) none .bool
  let outer : Lambda := .mk 2 [("x", .int)] e .bool
  let body : Expr := .collection .any (.parameter 0 (.list .int)) (some outer) none .bool
  have h : Lambda.compile "(xs, ys) => xs.Any(x => ys.All(xs => xs != x))"
      [.list .int, .list .int] .empty =
        .ok (.mk 0 [("xs", .list .int), ("ys", .list .int)] body .bool) := by cbv
  have he : body.Encloses [.list .int, .list .int] [.list .int, .list .int, .int] e :=
    .body (l := outer) .self rfl
  have hleft : body.Encloses [.list .int, .list .int] [.list .int, .list .int, .int, .int] left :=
    .part (.body (l := inner) he rfl) (List.mem_cons_self ..)
  obtain ⟨hbase, -, hparts, hcall⟩ := Lambda.compile_well_scoped.2 h
  obtain ⟨hinner, -, hbound⟩ := hparts _ e he
  exact ⟨_, h, hbase, ⟨inner, e, he, rfl, hinner inner rfl, hbound⟩,
    ⟨_, hleft, (hparts _ left hleft).2.1 3 .int rfl⟩, hcall⟩

end LambdaQuery
