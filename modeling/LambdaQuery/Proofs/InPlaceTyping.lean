/-
**Typing in one scope that is changed in place.**  `Binder` shares one scope between all literals of
a term: a literal puts its parameters there, and makes its own the implicit one if it is a bare
expression, has its body typed, and takes off again what it has put.  It does so also when its body
is refused, at whatever depth.

`Restores m f` says that the computation `m` gives in every scope what `f` says of that scope, and
leaves the scope as it was.  It passes through sequencing, and a literal enters and leaves the scope
of its body in one place, so that it holds of all that is typed.

Main definitions:
* `Restores` — a computation gives what a function of the scope says, and leaves the scope as it
  was.

Main results:
* `Restores.inside` — what is put on the scope for a computation is taken off after it;
* `Binder.term_restores` — **typing a term in place gives the typed expression of the term and
  leaves the scope as it was**, whether it succeeds or fails;
* `Binder.function_restores` — the same for a term as a function literal.
-/

import LambdaQuery.Expr.Binder
import LambdaQuery.Proofs.Denotation

namespace LambdaQuery

/-! ### Computations that restore the scope -/

/-- A computation followed by a change of the scope, which is made also when it fails. -/
theorem Binder.run_finally {α : Type} (m : Binder α) (change : Scope → Scope) (s : Scope) :
    (tryFinally m (modify change)).run s = ((m.run s).1, change (m.run s).2) := by
  -- only what the computation does in this scope matters
  have h : (tryFinally m (modify change)).run s =
      (tryFinally (ExceptT.mk fun _ => m.run s : Binder α) (modify change)).run s := rfl
  rw [h]
  rcases m.run s with ⟨a | e, s'⟩ <;> rfl

/-- In every scope the computation gives what `f` says of the scope and leaves the scope as it was,
whether it succeeds or fails. -/
def Restores {α : Type} (m : Binder α) (f : Scope → Except CompileError α) : Prop :=
  ∀ s, m.run s = (f s, s)

namespace Restores

variable {α β : Type}

theorem ofExcept (r : Except CompileError α) : Restores (liftExcept r) fun _ => r := by
  intro s
  cases r <;> rfl

theorem ofPure (a : α) : Restores (pure a) fun _ => .ok a := fun _ => rfl

theorem ofThrow (e : CompileError) : Restores (throw e : Binder α) fun _ => .error e := fun _ => rfl

theorem get : Restores MonadState.get .ok := fun _ => rfl

theorem reads (f : Scope → Except CompileError α) : Restores (Binder.reads f) f :=
  fun s => ofExcept (f s) s

theorem bind {m : Binder α} {k : α → Binder β} {f : Scope → Except CompileError α}
    {g : α → Scope → Except CompileError β} (hm : Restores m f) (hk : ∀ a, Restores (k a) (g a)) :
    Restores (m >>= k) fun s => f s >>= fun a => g a s := by
  intro s
  show _ = (f s >>= fun a => g a s, s)
  rw [run_bind, hm s]
  cases f s with
  | ok a => exact hk a s
  | error e => rfl

theorem bind_pure {m : Binder α} {f : Scope → Except CompileError α} (hm : Restores m f)
    (g : α → β) : Restores (m >>= fun a => pure (g a)) fun s => (f s).map g := by
  intro s
  show _ = ((f s).map g, s)
  rw [run_bind, hm s]
  cases f s <;> rfl

theorem congr {m : Binder α} {f g : Scope → Except CompileError α} (hm : Restores m f)
    (h : ∀ s, f s = g s) : Restores m g := by
  intro s
  rw [hm s, h s]

/-! ### Function literals -/

/-- What is put on the scope for a computation is taken off after it. -/
theorem inside {body : Binder α} {f : Scope → Except CompileError α} (hb : Restores body f)
    {enter : Scope → Scope} (henter : ∀ s, ∃ params implicit,
      enter s = { s with params := s.params ++ params, implicit := implicit }) :
    Restores (Binder.inside enter body) fun s => f (enter s) := by
  intro s
  let leave (s' : Scope) : Scope :=
    { s' with params := s'.params.take s.params.length, implicit := s.implicit }
  have hrun : (Binder.inside enter body).run s =
      (tryFinally body (modify leave)).run (enter s) := rfl
  have hleave : leave (enter s) = s := by
    obtain ⟨params, implicit, he⟩ := henter s
    simp [leave, he]
  rw [hrun, Binder.run_finally, hb, hleave]

/-- A refused number of parameters changes nothing; otherwise they are taken off after the body. -/
theorem explicit {body : Binder Expr} {f : Scope → Except CompileError Expr} (hb : Restores body f)
    (types : List Ty) (names : List String) :
    Restores (Binder.explicit types names body) (·.explicit types names f) := by
  unfold Binder.explicit Scope.explicit
  by_cases hl : names.length = types.length
  · simp only [hl, ne_eq, not_true, if_false]
    have hbody : Restores (Binder.inside (·.extend (names.zip types)) body) fun s =>
        f (s.extend (names.zip types)) := hb.inside fun _ => ⟨_, _, rfl⟩
    exact (get.bind fun s => hbody.bind_pure _).congr fun s => rfl
  · simp only [hl, ne_eq, not_false_eq_true, if_true]
    exact ofThrow _

theorem bare {body : Binder Expr} {f : Scope → Except CompileError Expr} (hb : Restores body f)
    (types : List Ty) : Restores (Binder.bare types body) (·.bare types f) := by
  match types with
  | [t] =>
      have hbody : Restores (Binder.inside (·.extendImplicit t) body) fun s =>
          f (s.extendImplicit t) := hb.inside fun _ => ⟨_, _, rfl⟩
      exact (get.bind fun s => hbody.bind_pure _).congr fun s => rfl
  | [] | _ :: _ :: _ => exact ofThrow _

/-- A term as a literal restores the scope if the terms in it do that become its body. -/
theorem function {t : Term}
    (h : ∀ inside, sizeOf inside ≤ sizeOf t → Restores (Binder.term inside) (·.term inside))
    (types : List Ty) : Restores (Binder.function types t) (·.function types t) := by
  unfold Binder.function Scope.function
  cases t with
  | lambda names body => exact (h body (by simp)).explicit types names
  | _ => exact (h _ (Nat.le_refl _)).bare types

end Restores

/-! ### Terms -/

mutual

/-- **The binder leaves the scope as it was and gives what the scope gives**, for every term.  The
induction follows the term, and a literal enters the scope of its body by one lemma. -/
theorem Binder.term_restores : ∀ t : Term, Restores (Binder.term t) (·.term t)
  | .string _ | .integer _ | .long _ | .float _ | .bool _ | .null | .name _ | .positional _
  | .named _ | .lambda _ _ => by
    rw [Binder.term]
    exact .reads _
  | .member target text => by
    rw [Binder.term]
    refine ((Binder.term_restores target).bind fun on => .reads _).congr fun s => ?_
    rw [Scope.term]
  | .call target text args => by
    unfold Binder.term
    refine (Restores.bind (f := fun s => target.elim (s.implicitTarget text) s.term)
      (g := fun on s => s.methodOn on text args) ?_ fun on => ?_).congr fun s => ?_
    · cases target with
      | some target => exact Binder.term_restores target
      | none => exact .reads _
    · unfold Scope.methodOn
      cases on.type.element? with
      | some element =>
          exact (Restores.reads _).bind fun m => Binder.collection_restores args m on element
      | none =>
          exact (Restores.reads _).bind fun m => (Restores.ofExcept _).bind fun _ =>
            (Binder.texts_restores args).bind fun es => .ofPure _
    · cases target with
      | some target => exact (Scope.term_call_some target text args).symm
      | none => exact (Scope.term_call_none text args).symm
  | .binary op lhs rhs => by
    rw [Binder.term]
    refine ((Binder.term_restores lhs).bind fun lhs => (Binder.term_restores rhs).bind fun rhs =>
      .ofExcept _).congr fun s => ?_
    rw [Scope.term]
  | .unary op operand => by
    rw [Binder.term]
    refine ((Binder.term_restores operand).bind fun operand => .ofExcept _).congr fun s => ?_
    rw [Scope.term]
  | .cond test ifTrue ifFalse => by
    rw [Binder.term]
    refine ((Binder.term_restores test).bind fun test => (Restores.ofExcept _).bind fun _ =>
      (Binder.term_restores ifTrue).bind fun ifTrue =>
        (Binder.term_restores ifFalse).bind fun ifFalse => .ofExcept _).congr fun s => ?_
    rw [Scope.term]
  | .record ms => by
    rw [Binder.term]
    refine ((Binder.members_restores [] ms).bind fun ms => .ofPure _).congr fun s => ?_
    rw [Scope.term]
    rfl

/-- So does a method of a collection.  Only one with an argument enters a scope. -/
theorem Binder.collection_restores : ∀ (args : List Term) (m : CollectionMethod) (source : Expr)
    (element : Ty),
    Restores (Binder.collection m source element args) (·.collection m source element args)
  | [], m, source, element | _ :: _ :: _, m, source, element => by
    unfold Binder.collection
    exact .reads _
  | [arg], m, source, element => by
    have hitem := (Binder.term_restores arg).bind fun item =>
      .ofExcept (m.withItem source element item)
    have hliteral : Restores (Binder.function [element] arg) (·.function [element] arg) :=
      .function (fun inside _ => Binder.term_restores inside) [element]
    have hfunction := hliteral.bind fun l => .ofExcept (m.withFunction source element l)
    unfold Binder.function Scope.function at hfunction
    unfold Binder.collection Scope.collection
    cases m.argument? 1 with
    | none => exact .ofThrow _
    | some a =>
        cases a with
        | none => exact .ofThrow _
        | item => exact hitem
        | predicate | selector =>
            -- an explicit literal has its own body, a bare expression is its own body
            cases arg with
            | lambda names body => exact hfunction
            | _ => exact hfunction

theorem Binder.texts_restores : ∀ args : List Term, Restores (Binder.texts args) (·.texts args)
  | [] => by
    rw [Binder.texts]
    refine (Restores.ofPure _).congr fun s => ?_
    rw [Scope.texts]
  | arg :: rest => by
    rw [Binder.texts]
    refine ((Binder.term_restores arg).bind (g := fun e s =>
      if e.type.assignable .string then (s.texts rest).map (e :: ·)
      else .error (.typeMismatch .string e.type)) fun e => ?_).congr fun s => ?_
    · split
      · exact (Binder.texts_restores rest).bind_pure _
      · exact .ofThrow _
    · rw [Scope.texts]
      rfl

theorem Binder.members_restores : ∀ (before : List String) (ms : List (Option String × Term)),
    Restores (Binder.members before ms) (·.members before ms)
  | before, [] => by
    rw [Binder.members]
    refine (Restores.ofPure _).congr fun s => ?_
    rw [Scope.members]
  | before, (written, value) :: rest => by
    rw [Binder.members]
    refine ((Restores.ofExcept _).bind fun name => (Binder.term_restores value).bind fun e =>
      (Binder.members_restores (before ++ [name]) rest).bind fun ms => .ofPure _).congr fun s => ?_
    rw [Scope.members]
    rfl

end

/-- A term as a function literal leaves the scope as it was, whatever the scope holds. -/
theorem Binder.function_restores (types : List Ty) (t : Term) :
    Restores (Binder.function types t) (·.function types t) :=
  Restores.function (fun inside _ => Binder.term_restores inside) types

end LambdaQuery
