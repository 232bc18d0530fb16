/-
**The equality of keys is one.**  `Value.same` tells apart the keys of groups and joins and the
members of sets.  What is built by asking for equal keys over and over is determined by its keys
only if this equality is reflexive, symmetric and transitive.  That of doubles is, and that of
values is made of it.

Main results:
* `Value.same_self`, `Value.same_comm`, `Value.same_trans` — **the equality of values is
  reflexive, symmetric and transitive**, by induction on the first of them;
* `Value.same_congr` — equal values are equal to the same values.
-/

import LambdaQuery.Proofs.Equality

namespace LambdaQuery

/-! ### Values -/

namespace Value

variable {a b c : Value}

mutual

/-- Every value is the same as itself. -/
theorem same_self : ∀ a : Value, a.same a = true
  | null => rfl
  | bool _ | int _ | long _ | string _ | timestamp _ => by simp [same]
  | double x => Double.same_self x
  | sequence items => by simp only [same]; exact sameAll_self items
  | record type values => by simp [same, sameAll_self values]
  | grouping key elements => by simp [same, same_self key, sameAll_self elements]

theorem sameAll_self : ∀ as : List Value, sameAll as as = true
  | [] => rfl
  | a :: as => by simp [sameAll, same_self a, sameAll_self as]

end

mutual

/-- Values are the same in either order. -/
theorem same_comm : ∀ a b : Value, a.same b = b.same a
  | a, b => by
    cases a <;> cases b <;> simp only [same]
    case bool.bool | int.int | long.long | string.string | timestamp.timestamp =>
      exact Bool.beq_comm
    case double.double x y => exact Double.same_comm x y
    case sequence.sequence as bs => exact sameAll_comm as bs
    case record.record s as t bs => rw [sameAll_comm as bs, Bool.beq_comm]
    case grouping.grouping j as k bs => rw [same_comm j k, sameAll_comm as bs]

theorem sameAll_comm : ∀ as bs : List Value, sameAll as bs = sameAll bs as
  | [], [] | [], _ :: _ | _ :: _, [] => rfl
  | a :: as, b :: bs => by rw [sameAll, sameAll, same_comm a b, sameAll_comm as bs]

end

mutual

/-- What is the same as the same value is the same. -/
theorem same_trans : ∀ {a b c : Value}, a.same b = true → b.same c = true → a.same c = true
  | a, b, c => by
    intro hab hbc
    cases a <;> cases b <;> cases c <;> simp only [same, Bool.false_eq_true] at hab hbc ⊢
    case double.double.double => exact Double.same_trans hab hbc
    case sequence.sequence.sequence => exact sameAll_trans hab hbc
    case record.record.record =>
      simp only [Bool.and_eq_true, beq_iff_eq] at hab hbc ⊢
      exact ⟨hab.1.trans hbc.1, sameAll_trans hab.2 hbc.2⟩
    case grouping.grouping.grouping =>
      simp only [Bool.and_eq_true] at hab hbc ⊢
      exact ⟨same_trans hab.1 hbc.1, sameAll_trans hab.2 hbc.2⟩
    all_goals
      simp only [beq_iff_eq] at hab hbc ⊢
      exact hab.trans hbc

theorem sameAll_trans : ∀ {as bs cs : List Value}, sameAll as bs = true → sameAll bs cs = true →
    sameAll as cs = true
  | [], [], _ => fun _ hbc => hbc
  | [], _ :: _, _ => fun hab _ => by cases hab
  | _ :: _, [], _ => fun hab _ => by cases hab
  | _ :: _, _ :: _, [] => fun _ hbc => by cases hbc
  | a :: as, b :: bs, c :: cs => fun hab hbc => by
    simp only [sameAll, Bool.and_eq_true] at hab hbc ⊢
    exact ⟨same_trans hab.1 hbc.1, sameAll_trans hab.2 hbc.2⟩

end

/-- Equal values are equal to the same values. -/
theorem same_congr (h : a.same b = true) (c : Value) : a.same c = b.same c := by
  rw [Bool.eq_iff_iff]
  constructor
  · intro hac
    exact same_trans (same_comm b a ▸ h) hac
  · intro hbc
    exact same_trans h hbc

/-- Null is equal to nothing else. -/
theorem isNull_of_same (h : a.same b = true) : a.isNull = b.isNull := by
  cases a <;> cases b <;> first | rfl | cases h

end Value

end LambdaQuery
