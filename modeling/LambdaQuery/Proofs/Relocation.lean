/-
**Terms under further parameters.**  A literal that is written inside another one is compiled behind
the parameters of that one.  The further parameters stand in front of its own, so that all its slots
move up, and the base of every literal in it.

Main definitions:
* `Expr.shift`, `Lambda.shift` — an expression and a literal with their slots and bases moved up;
* `Scope.under` — a scope with further parameters in front of its own.

Main results:
* `Expr.shift_eq_raise`, `Scope.under_eq_among` — they are put in at the first place;
* `Scope.function_under` — **typing under further parameters moves the slots**, and fails with the
  same error where it fails;
* `Lambda.Typed.value_shift` — **a moved literal has the same value** behind the values of the
  further parameters.
-/

import LambdaQuery.Proofs.FurtherParameters

namespace LambdaQuery

/-! ### Moved expressions -/

mutual

/-- The expression with its slots moved up. -/
def Expr.shift (n : Nat) : Expr → Expr
  | .constant v t => .constant v t
  | .parameter slot t => .parameter (n + slot) t
  | .field target index name t => .field (target.shift n) index name t
  | .key target t => .key (target.shift n) t
  | .convert operand t => .convert (operand.shift n) t
  | .unwrap operand t => .unwrap (operand.shift n) t
  | .unary op operand t => .unary op (operand.shift n) t
  | .binary op lhs rhs t => .binary op (lhs.shift n) (rhs.shift n) t
  | .cond test ifTrue ifFalse t => .cond (test.shift n) (ifTrue.shift n) (ifFalse.shift n) t
  | .record r members => .record r (Expr.shiftAll n members)
  | .collection m source function argument t =>
    .collection m (source.shift n) (Lambda.shiftOption n function) (Expr.shiftOption n argument) t
  | .text m target args t => .text m (target.shift n) (Expr.shiftAll n args) t
  | .datePart part target t => .datePart part (target.shift n) t

def Expr.shiftAll (n : Nat) : List Expr → List Expr
  | [] => []
  | e :: es => e.shift n :: Expr.shiftAll n es

def Expr.shiftOption (n : Nat) : Option Expr → Option Expr
  | none => none
  | some e => some (e.shift n)

/-- The literal with its base and the slots of its body moved up. -/
def Lambda.shift (n : Nat) : Lambda → Lambda
  | .mk base params body returns => .mk (n + base) params (body.shift n) returns

def Lambda.shiftOption (n : Nat) : Option Lambda → Option Lambda
  | none => none
  | some l => some (l.shift n)

end

mutual

/-- All slots are those from the first place on. -/
theorem Expr.shift_eq_raise : ∀ {n : Nat} (e : Expr), e.shift n = e.raise 0 n
  | _, .constant _ _ => by rw [Expr.shift, Expr.raise]
  | n, .parameter slot _ => by rw [Expr.shift, Expr.raise, raised_of_le (Nat.zero_le slot)]
  | _, .field target _ _ _ | _, .key target _ | _, .convert target _ | _, .unwrap target _
  | _, .unary _ target _ | _, .datePart _ target _ => by
    rw [Expr.shift, Expr.raise, Expr.shift_eq_raise target]
  | _, .binary _ lhs rhs _ => by
    rw [Expr.shift, Expr.raise, Expr.shift_eq_raise lhs, Expr.shift_eq_raise rhs]
  | _, .cond test ifTrue ifFalse _ => by
    rw [Expr.shift, Expr.raise, Expr.shift_eq_raise test, Expr.shift_eq_raise ifTrue,
      Expr.shift_eq_raise ifFalse]
  | _, .record _ members => by rw [Expr.shift, Expr.raise, Expr.shiftAll_eq_raiseAll members]
  | _, .collection _ source function argument _ => by
    rw [Expr.shift, Expr.raise, Expr.shift_eq_raise source,
      Lambda.shiftOption_eq_raiseOption function, Expr.shiftOption_eq_raiseOption argument]
  | _, .text _ target args _ => by
    rw [Expr.shift, Expr.raise, Expr.shift_eq_raise target, Expr.shiftAll_eq_raiseAll args]

theorem Expr.shiftAll_eq_raiseAll :
    ∀ {n : Nat} (es : List Expr), Expr.shiftAll n es = Expr.raiseAll 0 n es
  | _, [] => by rw [Expr.shiftAll, Expr.raiseAll]
  | _, e :: es => by
    rw [Expr.shiftAll, Expr.raiseAll, Expr.shift_eq_raise e, Expr.shiftAll_eq_raiseAll es]

theorem Expr.shiftOption_eq_raiseOption :
    ∀ {n : Nat} (e : Option Expr), Expr.shiftOption n e = Expr.raiseOption 0 n e
  | _, none => by rw [Expr.shiftOption, Expr.raiseOption]
  | _, some e => by rw [Expr.shiftOption, Expr.raiseOption, Expr.shift_eq_raise e]

theorem Lambda.shift_eq_raise : ∀ {n : Nat} (l : Lambda), l.shift n = l.raise 0 n
  | _, .mk base _ body _ => by
    rw [Lambda.shift, Lambda.raise, Expr.shift_eq_raise body, raised_of_le (Nat.zero_le base)]

theorem Lambda.shiftOption_eq_raiseOption :
    ∀ {n : Nat} (l : Option Lambda), Lambda.shiftOption n l = Lambda.raiseOption 0 n l
  | _, none => by rw [Lambda.shiftOption, Lambda.raiseOption]
  | _, some l => by rw [Lambda.shiftOption, Lambda.raiseOption, Lambda.shift_eq_raise l]

end

@[simp] theorem Lambda.returns_shift (l : Lambda) (n : Nat) : (l.shift n).returns = l.returns := by
  rw [shift_eq_raise, returns_raise]

/-! ### Scopes with further parameters in front -/

namespace Scope

/-- The scope with further parameters in front of its own. -/
def under (outer : List (String × Ty)) (s : Scope) : Scope :=
  { s with params := outer ++ s.params, implicit := s.implicit.map (outer.length + ·) }

variable {outer : List (String × Ty)} {s : Scope}

theorem under_eq_among : s.under outer = s.among 0 outer := by
  have hraised : raised 0 outer.length = (outer.length + ·) :=
    funext fun slot => raised_of_le (Nat.zero_le slot)
  rw [under, among, hraised, List.take_zero, List.drop_zero, List.nil_append]

/-- **Typing a literal under further parameters moves its slots**, as long as none of its names
means one of these parameters. -/
theorem function_under (t : Term) {types : List Ty} (h : s.settings.Avoids outer t.names) :
    (s.under outer).function types t = (s.function types t).map (Lambda.shift outer.length) := by
  have hshift : Lambda.shift outer.length = Lambda.raise 0 outer.length :=
    funext Lambda.shift_eq_raise
  rw [under_eq_among, hshift]
  exact function_among t (Nat.zero_le _) h

end Scope

/-- **A moved literal has the same value** on the same arguments. -/
theorem Lambda.Typed.value_shift {C : Value → Ty → Prop} {Γ : List Ty} {outer env : List Value}
    {l : Lambda} (h : l.Typed C Γ) (hl : env.length = Γ.length) (args : List Value) :
    (l.shift outer.length).value (outer ++ env) args = l.value env args := by
  have hlength : (([] : List Value) ++ env).length = Γ.length := hl
  rw [shift_eq_raise]
  exact h.value_raise hlength args

end LambdaQuery
