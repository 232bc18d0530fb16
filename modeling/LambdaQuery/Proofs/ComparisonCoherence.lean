/-
**The comparisons say one thing.**  The orders and the equalities of lambda text are typed by
different rules and computed by different functions.  Yet where `<` is accepted, the rules bring the
operands of all six comparisons to the same form, from either side; and on values of that form the
equality holds just where the order has them in one place.

Main definitions:
* `Value.Alike` — two values that an order may stand between: of one kind, or null;
* `BinaryOp.compares` — what a comparison says of two values;
* `Expr.Operands` — the form of the operands in all comparisons of two expressions;
* `Coherent` — the laws of the six comparisons.

Main results:
* `Value.Alike.looselyEqual_eq` — the equality is that of the order;
* `Value.Alike.coherent` — **the laws hold on values that are alike**;
* `Expr.operands_of_less` — **operands of `<` are operands of all comparisons, in the same form**;
* `Scope.comparisons_coherent` — **the six comparisons of two terms**, compiled and evaluated.
-/

import LambdaQuery.Proofs.CommonTypes
import LambdaQuery.Proofs.ExprSoundness
import LambdaQuery.Proofs.ValueOrder

namespace LambdaQuery

/-! ### Values -/

/-- Two values of one kind that has an order, where either may be null instead. -/
inductive Value.Alike : Value → Value → Prop
  | nullLeft (b : Value) : Alike .null b
  | nullRight (a : Value) : Alike a .null
  | numbers {a b : Value} (ha : a.isNumeric = true) (hb : b.isNumeric = true) : Alike a b
  | bools (p q : Bool) : Alike (.bool p) (.bool q)
  | strings (s t : String) : Alike (.string s) (.string t)
  | timestamps (s t : Timestamp) : Alike (.timestamp s) (.timestamp t)

/-- What a comparison says of two values; nothing is before or after null. -/
def BinaryOp.compares (op : BinaryOp) (a b : Value) : Bool :=
  match op with
  | .equal => a.looselyEqual b
  | .notEqual => !(a.looselyEqual b)
  | op => !a.isNull && !b.isNull && op.holds (a.compare b)

theorem BinaryOp.apply_comparison {op : BinaryOp} (h : op.isComparison = true) (a b : Value) :
    op.apply a b = .ok (.bool (op.compares a b)) := by
  cases op <;> first | rfl | cases h

theorem Timestamp.compare_eq_iff {s t : Timestamp} : s.compare t = .eq ↔ s = t := by
  cases s
  cases t
  simp [Timestamp.compare, Ordering.then_eq_eq]

/-- The laws of the six comparisons: what they say of two values, and of the two exchanged. -/
structure Coherent (leftNull rightNull : Bool) (truth exchanged : BinaryOp → Bool) : Prop where
  /-- Exactly one of `<`, `==` and `>` holds, if neither value is null. -/
  one : leftNull = false → rightNull = false →
    [truth .less, truth .equal, truth .greater].count true = 1
  lessEqual : leftNull = false → rightNull = false →
    truth .lessEqual = (truth .less || truth .equal)
  greaterEqual : leftNull = false → rightNull = false →
    truth .greaterEqual = (truth .greater || truth .equal)
  less_exchanged : truth .less = exchanged .greater
  equal_exchanged : truth .equal = exchanged .equal
  /-- Nothing is ordered with null. -/
  unordered : leftNull = true ∨ rightNull = true →
    truth .less = false ∧ truth .lessEqual = false ∧ truth .greater = false ∧
      truth .greaterEqual = false
  /-- Null equals null alone. -/
  equal_null : leftNull = true ∨ rightNull = true →
    (truth .equal = true ↔ leftNull = true ∧ rightNull = true)
  notEqual : truth .notEqual = !truth .equal

namespace Value.Alike

variable {a b : Value}

theorem symm (h : Alike a b) : Alike b a := by
  cases h with
  | nullLeft b => exact .nullRight b
  | nullRight a => exact .nullLeft a
  | numbers ha hb => exact .numbers hb ha
  | bools p q => exact .bools q p
  | strings s t => exact .strings t s
  | timestamps s t => exact .timestamps t s

/-- The equality of values that are alike is that of their order. -/
theorem looselyEqual_eq (h : Alike a b) (ha : a.isNull = false) (hb : b.isNull = false) :
    a.looselyEqual b = (a.compare b == .eq) := by
  cases h with
  | nullLeft b => cases ha
  | nullRight a => cases hb
  | numbers ha hb => rw [looselyEqual, if_pos (by simp [ha, hb])]
  | bools p q => cases p <;> cases q <;> rfl
  | strings s t =>
      rw [Bool.eq_iff_iff, beq_iff_eq, Value.compare, Std.LawfulEqOrd.compare_eq_iff_eq]
      exact beq_iff_eq
  | timestamps s t =>
      rw [Bool.eq_iff_iff, beq_iff_eq, Value.compare, Timestamp.compare_eq_iff]
      exact beq_iff_eq

/-- Null equals null alone. -/
theorem looselyEqual_null (h : a.isNull = true ∨ b.isNull = true) :
    a.looselyEqual b = (a.isNull && b.isNull) := by
  cases a <;> cases b <;> first | rfl | simp [isNull] at h

/-- **The comparisons of values that are alike are coherent.** -/
theorem coherent (h : Alike a b) :
    Coherent a.isNull b.isNull (·.compares a b) (·.compares b a) where
  one ha hb := by
    simp only [BinaryOp.compares, ha, hb, h.looselyEqual_eq ha hb]
    cases a.compare b <;> rfl
  lessEqual ha hb := by
    simp only [BinaryOp.compares, ha, hb, h.looselyEqual_eq ha hb]
    cases a.compare b <;> rfl
  greaterEqual ha hb := by
    simp only [BinaryOp.compares, ha, hb, h.looselyEqual_eq ha hb]
    cases a.compare b <;> rfl
  less_exchanged := by
    simp only [BinaryOp.compares, compare_swap a b]
    cases a.isNull <;> cases b.isNull <;> cases a.compare b <;> rfl
  equal_exchanged := by
    by_cases hnull : a.isNull = true ∨ b.isNull = true
    · simp only [BinaryOp.compares, looselyEqual_null hnull, looselyEqual_null hnull.symm,
        Bool.and_comm]
    · have ha : a.isNull = false := by simpa using fun ha => hnull (.inl ha)
      have hb : b.isNull = false := by simpa using fun hb => hnull (.inr hb)
      simp only [BinaryOp.compares, h.looselyEqual_eq ha hb, h.symm.looselyEqual_eq hb ha,
        compare_swap a b]
      cases a.compare b <;> rfl
  unordered hnull := by
    rcases hnull with hnull | hnull <;> simp [BinaryOp.compares, hnull]
  equal_null hnull := by
    simp only [BinaryOp.compares, looselyEqual_null hnull, Bool.and_eq_true]
  notEqual := rfl

end Value.Alike

/-! ### Operands -/

namespace Expr

variable {lhs rhs e left right : Expr} {t : Ty}

/-- What stands for two expressions in a comparison: numbers in a common type, and expressions of
another type that is ordered as they are. -/
inductive Operands (lhs rhs : Expr) : Expr → Expr → Prop
  | promoted (hl : lhs.type.isNumeric = true) (hr : rhs.type.isNumeric = true) (t : Ty) :
      Operands lhs rhs (lhs.convertTo t) (rhs.convertTo t)
  | unchanged (hlr : lhs.type.underlying = rhs.type.underlying)
      (h : isOrdered lhs.type.underlying = true) : Operands lhs rhs lhs rhs

/-- Two numbers of any kinds are unified as they are promoted. -/
theorem unify_of_promote {s t u : Ty} (h : Ty.promote s t = some u) : Ty.unify s t = some u := by
  rw [Ty.unify]
  split
  · rename_i hst
    subst hst
    obtain ⟨i, j, hi, hj, hu, hn⟩ := Ty.promote_eq_some_iff.mp h
    cases hi.symm.trans hj
    rw [Nat.max_self] at hu
    rw [Bool.or_self] at hn
    rw [Ty.eq_of_numericRank? hi hu hn.symm]
  · rw [h]

/-- So all comparisons of numbers have both operands in the common type. -/
theorem ofBinary_of_promote (h : Ty.promote lhs.type rhs.type = some t) {op : BinaryOp}
    (hop : op.isComparison = true) :
    ofBinary op lhs rhs = .ok (.binary op (lhs.convertTo t) (rhs.convertTo t) .bool) := by
  have ht : t.isNumeric = true := isNumeric_of_promote h
  obtain ⟨i, j, hi, hj, -⟩ := Ty.promote_eq_some_iff.mp h
  have hl : lhs.type.isNumeric = true := by rw [Ty.isNumeric, hi]; rfl
  have hr : rhs.type.isNumeric = true := by rw [Ty.isNumeric, hj]; rfl
  cases op <;> cases hop <;>
    simp only [ofBinary, promoted, unify_of_promote h, ht, hl, hr, h, and_self, if_true]

/-- The types of values that are ordered although they are no numbers. -/
theorem isOrdered_iff : isOrdered t = true ↔ t = .string ∨ t = .timestamp ∨ t = .bool := by
  simp [isOrdered, or_assoc]

theorem not_isNumeric_of_isOrdered (h : isOrdered t.underlying = true) : t.isNumeric = false := by
  rw [Ty.isNumeric, Ty.numericRank?]
  rcases isOrdered_iff.mp h with h | h | h <;> rw [h] <;> rfl

/-- Types of such values that are one but for nullability have a common type, which is not
numeric. -/
theorem unify_of_isOrdered {s t : Ty} (hst : s.underlying = t.underlying)
    (h : isOrdered s.underlying = true) : ∃ u, Ty.unify s t = some u ∧ u.isNumeric = false := by
  have hlayer : ∀ {s u : Ty}, s.underlying = u → s = u ∨ s = .nullable u := by
    intro s u hs
    cases s <;> simp_all [Ty.underlying]
  rcases isOrdered_iff.mp h with hu | hu | hu <;>
    rcases hlayer hu with rfl | rfl <;>
    rcases hlayer (hst.symm.trans hu) with rfl | rfl <;>
    exact ⟨_, rfl, rfl⟩

/-- All comparisons of such values take their operands as they are. -/
theorem ofBinary_of_isOrdered (hlr : lhs.type.underlying = rhs.type.underlying)
    (h : isOrdered lhs.type.underlying = true) {op : BinaryOp} (hop : op.isComparison = true) :
    ofBinary op lhs rhs = .ok (.binary op lhs rhs .bool) := by
  obtain ⟨u, hu, hnum⟩ := unify_of_isOrdered hlr h
  have hl : lhs.type.isNumeric = false := not_isNumeric_of_isOrdered h
  cases op <;> cases hop <;> simp [ofBinary, hu, hnum, hl, hlr ▸ h, hlr]

/-- **Operands of `<` are operands of all comparisons**, from either side and in the same form. -/
theorem operands_of_less (h : ofBinary .less lhs rhs = .ok e) :
    ∃ left right, Operands lhs rhs left right ∧ ∀ op : BinaryOp, op.isComparison = true →
      ofBinary op lhs rhs = .ok (.binary op left right .bool) ∧
        ofBinary op rhs lhs = .ok (.binary op right left .bool) := by
  unfold ofBinary at h
  simp only at h
  split at h
  · rename_i hnum
    obtain ⟨i, hi⟩ := Option.isSome_iff_exists.mp hnum.1
    obtain ⟨j, hj⟩ := Option.isSome_iff_exists.mp hnum.2
    obtain ⟨t, ht⟩ := Ty.exists_promote hi hj
    have ht' : Ty.promote rhs.type lhs.type = some t := (Ty.promote_comm ..).trans ht
    exact ⟨_, _, .promoted hnum.1 hnum.2 t, fun op hop =>
      ⟨ofBinary_of_promote ht hop, ofBinary_of_promote ht' hop⟩⟩
  · split at h
    · rename_i hord
      obtain ⟨hlr, hord⟩ := hord
      exact ⟨_, _, .unchanged hlr hord, fun op hop =>
        ⟨ofBinary_of_isOrdered hlr hord hop, ofBinary_of_isOrdered hlr.symm (hlr ▸ hord) hop⟩⟩
    · cases h

/-! ### Values of operands -/

/-- A number converted is a number, and null is null. -/
theorem value_convertTo {env : List Value} {v : Value} (h : e.value env = .ok v) (t : Ty) :
    ∃ w, (e.convertTo t).value env = .ok w ∧ w.isNull = v.isNull ∧ w.isNumeric = v.isNumeric := by
  rw [convertTo]
  split
  · exact ⟨v, h, rfl, rfl⟩
  · refine ⟨v.convert t, by rw [value, h]; rfl, ?_⟩
    unfold Value.convert
    split <;> exact ⟨rfl, rfl⟩

/-- Numbers are alike, and so are nulls in their place. -/
theorem alike_of_numbers {a b : Value} (ha : a.isNull = true ∨ a.isNumeric = true)
    (hb : b.isNull = true ∨ b.isNumeric = true) : a.Alike b := by
  rcases ha with ha | ha
  · cases a <;> first | exact .nullLeft b | cases ha
  rcases hb with hb | hb
  · cases b <;> first | exact .nullRight a | cases hb
  · exact .numbers ha hb

/-- So are values of a type that is ordered, and nulls. -/
theorem alike_of_isOrdered {s t : Ty} {a b : Value} (hst : s.underlying = t.underlying)
    (h : isOrdered s.underlying = true) (ha : a.Belongs s) (hb : b.Belongs t) : a.Alike b := by
  have hs := s.base_underlying
  have ht := t.base_underlying
  rw [← hst] at ht
  rcases isOrdered_iff.mp h with hu | hu | hu <;> rw [hu] at hs ht
  · rcases (Value.conforms_string_iff hs.symm).mp ha.conforms with ⟨rfl, -⟩ | ⟨x, rfl⟩
    · exact .nullLeft b
    rcases (Value.conforms_string_iff ht.symm).mp hb.conforms with ⟨rfl, -⟩ | ⟨y, rfl⟩
    · exact .nullRight _
    · exact .strings x y
  · rcases (Value.conforms_timestamp_iff hs.symm).mp ha.conforms with ⟨rfl, -⟩ | ⟨x, rfl⟩
    · exact .nullLeft b
    rcases (Value.conforms_timestamp_iff ht.symm).mp hb.conforms with ⟨rfl, -⟩ | ⟨y, rfl⟩
    · exact .nullRight _
    · exact .timestamps x y
  · rcases (Value.conforms_bool_iff hs.symm).mp ha.conforms with ⟨rfl, -⟩ | ⟨x, rfl⟩
    · exact .nullLeft b
    rcases (Value.conforms_bool_iff ht.symm).mp hb.conforms with ⟨rfl, -⟩ | ⟨y, rfl⟩
    · exact .nullRight _
    · exact .bools x y

/-- A value of a numeric type is null or a number. -/
theorem isNull_or_isNumeric {v : Value} (hv : v.Belongs t) (ht : t.isNumeric = true) :
    v.isNull = true ∨ v.isNumeric = true := by
  rcases Yields.numeric_cases hv ht with ⟨rfl, -⟩ | ⟨-, n, rfl⟩ | ⟨-, n, rfl⟩ | ⟨-, x, rfl⟩
  · exact .inl rfl
  all_goals exact .inr rfl

/-- The operands of a comparison evaluate to values that are alike, and to null where the
expressions do. -/
theorem Operands.alike {env : List Value} {a b : Value} {left right : Expr}
    (hoperands : Operands lhs rhs left right) (ha : lhs.value env = .ok a)
    (hb : rhs.value env = .ok b) (hta : a.Belongs lhs.type) (htb : b.Belongs rhs.type) :
    ∃ a' b', left.value env = .ok a' ∧ right.value env = .ok b' ∧ a'.isNull = a.isNull ∧
      b'.isNull = b.isNull ∧ a'.Alike b' := by
  cases hoperands with
  | promoted hl hr t =>
      obtain ⟨a', ha', hnull, hnum⟩ := value_convertTo ha t
      obtain ⟨b', hb', hnull', hnum'⟩ := value_convertTo hb t
      refine ⟨a', b', ha', hb', hnull, hnull', alike_of_numbers ?_ ?_⟩
      · rw [hnull, hnum]
        exact isNull_or_isNumeric hta hl
      · rw [hnull', hnum']
        exact isNull_or_isNumeric htb hr
  | unchanged hlr hord => exact ⟨a, b, ha, hb, rfl, rfl, alike_of_isOrdered hlr hord hta htb⟩

/-- A comparison of expressions with values says what it says of the values. -/
theorem value_comparison {env : List Value} {a b : Value} {left right : Expr} {op : BinaryOp}
    (hop : op.isComparison = true) (ha : left.value env = .ok a) (hb : right.value env = .ok b) :
    (binary op left right .bool).value env = .ok (.bool (op.compares a b)) := by
  have hstrict : op.combine a (.ok b : Except EvalError Value) = op.apply a b := by
    cases op <;> first | (cases hop; done) | rfl
  rw [value, ha, hb]
  exact hstrict.trans (BinaryOp.apply_comparison hop a b)

end Expr

/-- **The comparisons of two terms are coherent.**  If `l < r` compiles, so do all six comparisons
of the two, in either order.  In every frame that starts with values of the types of the parameters,
if both terms evaluate, so do all these comparisons, and they obey the laws: of values that are not
null exactly one of `<`, `==` and `>` holds, `<=` and `>=` are these or `==`, `<` is `>` exchanged
and `==` is symmetric; null is in no order and equals null alone; and `!=` is the negation of
`==`. -/
theorem Scope.comparisons_coherent {s : Scope} {l r : Term} {e : Expr}
    (hb : s.bindings.All fun v => v.Belongs v.typeOf) (h : s.term (.binary .less l r) = .ok e) :
    ∃ (lhs rhs : Expr) (forward backward : BinaryOp → Expr),
      s.term l = .ok lhs ∧ s.term r = .ok rhs ∧
      (∀ op : BinaryOp, op.isComparison = true →
        s.term (.binary op l r) = .ok (forward op) ∧
          s.term (.binary op r l) = .ok (backward op)) ∧
      ∀ (env : List Value) (frame : Frame) (a b : Value), Environment s.types env →
        env <+: frame → (lhs.eval.run frame).1 = .ok a → (rhs.eval.run frame).1 = .ok b →
          ∃ truth exchanged : BinaryOp → Bool,
            (∀ op : BinaryOp, op.isComparison = true →
              ((forward op).eval.run frame).1 = .ok (.bool (truth op)) ∧
                ((backward op).eval.run frame).1 = .ok (.bool (exchanged op))) ∧
            Coherent a.isNull b.isNull truth exchanged := by
  have hC : s.Grants Value.Belongs := ⟨fun _ _ h => h, hb⟩
  rw [term] at h
  obtain ⟨lhs, hl, h⟩ := bind_eq_ok.mp h
  obtain ⟨rhs, hr, h⟩ := bind_eq_ok.mp h
  obtain ⟨left, right, hoperands, hops⟩ := Expr.operands_of_less h
  have htl : lhs.Typed Value.Belongs s.types := term_typed l hC hl
  have htr : rhs.Typed Value.Belongs s.types := term_typed r hC hr
  refine ⟨lhs, rhs, fun op => .binary op left right .bool, fun op => .binary op right left .bool,
    hl, hr, fun op hop => ?_, fun env frame a b henv hframe ha hb => ?_⟩
  · rw [term, term, hl, hr]
    exact hops op hop
  · have hvalue : ∀ {e : Expr}, e.Typed Value.Belongs s.types →
        (e.eval.run frame).1 = e.value env :=
      fun he => he.run_eval henv.length_eq.symm hframe
    rw [hvalue htl] at ha
    rw [hvalue htr] at hb
    have hta := htl.belongs henv ha
    have htb := htr.belongs henv hb
    obtain ⟨a', b', ha', hb', hnull, hnull', halike⟩ := hoperands.alike ha hb hta htb
    refine ⟨(·.compares a' b'), (·.compares b' a'), fun op hop => ⟨?_, ?_⟩, ?_⟩
    · rw [hvalue (Expr.ofBinary_typed htl htr (hops op hop).1)]
      exact Expr.value_comparison hop ha' hb'
    · rw [hvalue (Expr.ofBinary_typed htr htl (hops op hop).2)]
      exact Expr.value_comparison hop hb' ha'
    · rw [← hnull, ← hnull']
      exact halike.coherent

/-- An integer that may be null, compared with a wider one that is bound, in a frame that has kept
something from before. -/
theorem Scope.comparisons_coherent_widths :
    let s : Scope :=
      ⟨{ Bindings.empty with values := [.long 3] }, [("x", .nullable .int)], none⟩
    ∃ forward : BinaryOp → Expr,
      (∀ op : BinaryOp, op.isComparison = true →
        s.term (.binary op (.name "x") (.positional 0)) = .ok (forward op)) ∧
      ∃ truth exchanged : BinaryOp → Bool,
        (∀ op : BinaryOp, op.isComparison = true →
          ((forward op).eval.run [.int 2, .null]).1 = .ok (.bool (truth op))) ∧
        Coherent false false truth exchanged := by
  intro s
  have hb : s.bindings.All fun v => v.Belongs v.typeOf := by
    refine ⟨fun v hv => ?_, fun entry he => by cases he⟩
    rw [List.mem_singleton.mp hv]
    decide
  have hx : s.term (.name "x") = .ok (.parameter 0 (.nullable .int)) := by cbv
  have h3 : s.term (.positional 0) = .ok (.constant (.long 3) .long) := by cbv
  have hless : s.term (.binary .less (.name "x") (.positional 0)) =
      .ok (.binary .less (.convert (.parameter 0 (.nullable .int)) (.nullable .long))
        (.convert (.constant (.long 3) .long) (.nullable .long)) .bool) := by cbv
  obtain ⟨lhs, rhs, forward, backward, hl, hr, hcompiled, hcoherent⟩ :=
    comparisons_coherent hb hless
  obtain rfl := Except.ok.inj (hx.symm.trans hl)
  obtain rfl := Except.ok.inj (h3.symm.trans hr)
  have henv : Environment s.types [.int 2] := .cons (by decide) .nil
  obtain ⟨truth, exchanged, hgives, hlaws⟩ :=
    hcoherent [.int 2] [.int 2, .null] _ _ henv ⟨[.null], rfl⟩ rfl rfl
  exact ⟨forward, fun op hop => (hcompiled op hop).1, truth, exchanged,
    fun op hop => (hgives op hop).1, hlaws⟩

end LambdaQuery
