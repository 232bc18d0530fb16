/-
**The common type of two branches.**  `Ty.promote` finds the common type of two numbers and
`Ty.unify` that of any two branches.  Neither depends on the order of the branches, and conversion
to the common type leads from the values of either branch to values of the common type.

A numeric type is told by its rank and by whether it is nullable, and promotion takes the greater
rank and is nullable if one side is.  So it inherits the laws of `max` and `or`.  Unification also
falls back on assignability, in either direction, and there its symmetry is antisymmetry.

Main results:
* `Ty.eq_of_numericRank?` — rank and nullability tell a numeric type;
* `Ty.promote_eq_some_iff` — promotion in terms of ranks;
* `Ty.promote_comm`, `Ty.promote_assoc`, `Ty.unify_comm` — the laws of both;
* `Expr.run_convert` — what evaluation makes of a conversion;
* `Ty.unify_sound` — **unification is symmetric and sound for the values of both branches**.
-/

import LambdaQuery.Proofs.AssignabilityOrder
import LambdaQuery.Proofs.Denotation

namespace LambdaQuery

namespace Ty

variable {s t u : Ty}

/-! ### Numeric types -/

/-- Numeric types of one rank are one type if both are nullable or neither is. -/
theorem eq_of_numericRank? {i : Nat} (hs : s.numericRank? = some i) (ht : t.numericRank? = some i)
    (hn : s.isNullable = t.isNullable) : s = t := by
  have hs := numericRank?_cases hs
  have ht := numericRank?_cases ht
  simp only [List.mem_cons, Prod.mk.injEq, List.not_mem_nil, or_false] at hs ht
  rcases hs with ⟨rfl, rfl⟩ | ⟨rfl, rfl⟩ | ⟨rfl, rfl⟩ | ⟨rfl, rfl⟩ | ⟨rfl, rfl⟩ | ⟨rfl, rfl⟩ <;>
    simp only [Nat.reduceEqDiff, and_true, and_false, or_false, false_or] at ht <;>
    rcases ht with rfl | rfl <;> first | rfl | cases hn

/-- Two numeric types have a common type. -/
theorem exists_promote {i j : Nat} (hs : s.numericRank? = some i) (ht : t.numericRank? = some j) :
    ∃ u, promote s t = some u := by
  simp [promote, hs, ht]

/-- **The common type of two numbers** has the greater rank and is nullable if one of them is. -/
theorem promote_eq_some_iff :
    promote s t = some u ↔
      ∃ i j, s.numericRank? = some i ∧ t.numericRank? = some j ∧
        u.numericRank? = some (max i j) ∧ u.isNullable = (s.isNullable || t.isNullable) := by
  constructor
  · exact promote_spec
  · rintro ⟨i, j, hi, hj, hu, hn⟩
    obtain ⟨w, hw⟩ := exists_promote hi hj
    obtain ⟨i', j', hi', hj', hr, hn'⟩ := promote_spec hw
    cases hi.symm.trans hi'
    cases hj.symm.trans hj'
    rw [hw, eq_of_numericRank? hu hr (hn.trans hn'.symm)]

theorem promote_comm (s t : Ty) : promote s t = promote t s := by
  ext u
  rw [promote_eq_some_iff, promote_eq_some_iff]
  constructor
  · rintro ⟨i, j, hi, hj, hu, hn⟩
    exact ⟨j, i, hj, hi, by rwa [Nat.max_comm], by rwa [Bool.or_comm]⟩
  · rintro ⟨j, i, hj, hi, hu, hn⟩
    exact ⟨i, j, hi, hj, by rwa [Nat.max_comm], by rwa [Bool.or_comm]⟩

/-- The common type of three numbers has the greatest rank and is nullable if one of them is. -/
theorem promote_bind_eq_some_iff {x : Ty} :
    ((promote s t).bind fun w => promote w u) = some x ↔
      ∃ i j k, s.numericRank? = some i ∧ t.numericRank? = some j ∧ u.numericRank? = some k ∧
        x.numericRank? = some (max (max i j) k) ∧
        x.isNullable = (s.isNullable || t.isNullable || u.isNullable) := by
  rw [Option.bind_eq_some_iff]
  constructor
  · rintro ⟨w, hw, hx⟩
    obtain ⟨i, j, hi, hj, hwr, hwn⟩ := promote_spec hw
    obtain ⟨m, k, hm, hk, hxr, hxn⟩ := promote_spec hx
    cases hwr.symm.trans hm
    exact ⟨i, j, k, hi, hj, hk, hxr, by rw [hxn, hwn]⟩
  · rintro ⟨i, j, k, hi, hj, hk, hxr, hxn⟩
    obtain ⟨w, hw⟩ := exists_promote hi hj
    obtain ⟨i', j', hi', hj', hwr, hwn⟩ := promote_spec hw
    cases hi.symm.trans hi'
    cases hj.symm.trans hj'
    exact ⟨w, hw, promote_eq_some_iff.mpr ⟨_, k, hwr, hk, hxr, by rw [hxn, hwn]⟩⟩

/-- Three numbers have one common type however they are bracketed, and one bracketing has none
exactly when the other has none. -/
theorem promote_assoc (s t u : Ty) :
    ((promote s t).bind fun w => promote w u) = (promote t u).bind fun w => promote s w := by
  have hcomm : (fun w => promote s w) = fun w => promote w s := funext (promote_comm s)
  ext x
  rw [hcomm, promote_bind_eq_some_iff, promote_bind_eq_some_iff]
  constructor
  · rintro ⟨i, j, k, hi, hj, hk, hx, hn⟩
    refine ⟨j, k, i, hj, hk, hi, ?_, ?_⟩
    · rw [hx, Nat.max_assoc, Nat.max_comm]
    · rw [hn, Bool.or_assoc, Bool.or_comm]
  · rintro ⟨j, k, i, hj, hk, hi, hx, hn⟩
    refine ⟨i, j, k, hi, hj, hk, ?_, ?_⟩
    · rw [hx, Nat.max_comm, Nat.max_assoc]
    · rw [hn, Bool.or_comm, Bool.or_assoc]

/-! ### Branches -/

/-- The order of two branches does not matter. -/
theorem unify_comm (hs : s.wellFormed = true) (ht : t.wellFormed = true) :
    unify s t = unify t s := by
  by_cases hst : s = t
  · rw [hst]
  unfold unify
  rw [if_neg hst, if_neg (Ne.symm hst), promote_comm t s]
  cases promote s t with
  | some wider => rfl
  | none =>
      by_cases hsn : s = null
      · have htn : t ≠ null := fun h => hst (hsn.trans h.symm)
        simp [hsn, htn]
      by_cases htn : t = null
      · simp [hsn, htn]
      -- neither is null, and both directions at once would make them one type
      have hboth : ¬ (s.assignable t = true ∧ t.assignable s = true) := by
        rintro ⟨hst', hts'⟩
        exact hst (assignable_antisymm s hs ht hst' hts')
      cases hl : s.assignable t <;> cases hr : t.assignable s <;> simp_all

end Ty

/-! ### Conversion -/

/-- Conversion widens what its operand evaluates to, in the frame that the operand leaves. -/
theorem Expr.run_convert {e : Expr} {v : Value} {frame after : Frame}
    (h : e.eval.run frame = (.ok v, after)) (t : Ty) :
    (Expr.convert e t).eval.run frame = (.ok (v.convert t), after) := by
  have hbind : (Expr.convert e t).eval = e.eval >>= fun v => pure (v.convert t) := rfl
  rw [hbind, run_bind, h]
  rfl

/-- **The common type of two branches.**  Unification is symmetric for the types whose nullability
stands around value types alone; promotion is commutative and associative, and defined on one side
when it is on the other; and a branch that evaluates to a value of either type, converted to their
common type, evaluates to a value of the common type. -/
theorem Ty.unify_sound :
    (∀ s t : Ty, s.wellFormed = true → t.wellFormed = true → unify s t = unify t s) ∧
      (∀ s t : Ty, promote s t = promote t s) ∧
      (∀ s t u : Ty,
        ((promote s t).bind fun w => promote w u) = (promote t u).bind fun w => promote s w) ∧
      ∀ s t c : Ty, unify s t = some c →
        ∀ v : Value, v.conforms s = true ∨ v.conforms t = true →
          ∀ (e : Expr) (frame after : Frame), e.eval.run frame = (.ok v, after) →
            ∃ w, (Expr.convert e c).eval.run frame = (.ok w, after) ∧ w.conforms c = true := by
  refine ⟨fun s t => unify_comm, promote_comm, promote_assoc, ?_⟩
  intro s t c hc v hv e frame after he
  obtain ⟨hs, ht⟩ := widens_of_unify hc
  refine ⟨v.convert c, Expr.run_convert he c, ?_⟩
  rcases hv with hv | hv
  · exact Value.conforms_convert hv hs
  · exact Value.conforms_convert hv ht

/-- An integer that may be null beside a double, and `null` beside a list. -/
theorem Ty.unify_sound_numbers_and_null :
    let s := nullable int
    let l := list (record (some "Row") [("mark", nullable bool)])
    s.wellFormed = true ∧ l.wellFormed = true ∧
      unify s double = unify double s ∧ unify null l = unify l null ∧
      unify s double = some (nullable double) ∧ unify null l = some l ∧
      (∃ w, (Expr.convert (.constant (.int 5) s) (nullable double)).eval.run [.null] =
        (.ok w, [.null]) ∧ w.conforms (nullable double) = true) ∧
      ∃ w, (Expr.convert (.parameter 0 .null) l).eval.run [.null] = (.ok w, [.null]) ∧
        w.conforms l = true := by
  intro s l
  obtain ⟨comm, -, -, sound⟩ := unify_sound
  have hs : s.wellFormed = true := by decide
  have hl : l.wellFormed = true := by decide
  have hnumbers : unify s double = some (nullable double) := by decide
  have hnull : unify null l = some l := by decide
  refine ⟨hs, hl, comm s double hs rfl, comm null l rfl hl, hnumbers, hnull, ?_, ?_⟩
  · exact sound s double _ hnumbers (.int 5) (.inl rfl) (.constant (.int 5) s) [.null] [.null] rfl
  · exact sound null l _ hnull .null (.inl rfl) (.parameter 0 .null) [.null] [.null] rfl

end LambdaQuery
