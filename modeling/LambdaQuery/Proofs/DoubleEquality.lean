/-
**Doubles that are the same.**  A double is the same as another when it has the same bits, when both
are zeros, or when both are NaNs.  Only the first of these makes them one: there are two zeros, and
as many NaNs as there are bits left for them.  This is an equality, reflexive on NaN as well, which
as a number equals nothing; and the total order tells apart what differs in any bit.

Main definitions:
* `Double.unpack` — what the bits of a double stand for;
* `Double.Alike` — two unpacked doubles are identical, or both zero.

Main results:
* `Double.unpack_toFloat` — the number of a double is what its bits stand for;
* `Double.isNaN_iff`, `Double.eq_of_unpack` — all NaNs stand for one thing, and all else for one
  each;
* `Double.equals_iff` — doubles are equal as numbers when they are alike, but for NaN;
* `Double.same_iff` — **doubles are the same when they are alike**, NaN among them;
* `Double.same_self`, `Double.same_comm`, `Double.same_trans` — this is an equality;
* `Double.totalCompare_eq_iff` — every double has a place of its own in the total order.
-/

import LambdaQuery.Proofs.IntegerRounding

namespace LambdaQuery.Double

open Float.Model

variable {x y z : Double}

/-! ### What bits stand for -/

/-- What the bits of a double stand for. -/
def unpack (x : Double) : UnpackedFloat := UnpackedFloat.unpack .binary64 x.bits.toBitVec

/-- The exponent of a double in its bits. -/
theorem unpackExponent_toNat (b : UInt64) :
    (@UnpackedFloat.unpackExponent .binary64 b.toBitVec).toNat = b.toNat / 2 ^ 52 % 2 ^ 11 := by
  rw [UnpackedFloat.unpackExponent_def, BitVec.extractLsb'_toNat, Nat.shiftRight_eq_div_pow]
  rfl

/-- The fraction of a double in its bits. -/
theorem unpackMantissa_toNat (b : UInt64) :
    (@UnpackedFloat.unpackMantissa .binary64 b.toBitVec).toNat = b.toNat % 2 ^ 52 := by
  rw [UnpackedFloat.unpackMantissa_def, BitVec.extractLsb'_toNat, Nat.shiftRight_eq_div_pow]
  simp

/-- A NaN is told by its two fields. -/
theorem isNaN_iff_isNaNBits :
    x.isNaN = true ↔ @UnpackedFloat.isNaNBits .binary64 x.bits.toBitVec = true := by
  rw [isNaN, Bool.and_eq_true, beq_iff_eq, bne_iff_ne, exponentField, fractionField,
    UnpackedFloat.isNaNBits, decide_eq_true_iff, ← BitVec.toNat_inj, ne_eq, ne_eq,
    ← BitVec.toNat_inj, unpackExponent_toNat, unpackMantissa_toNat]
  simp only [Nat.pow_eq]
  rfl

theorem unpack_of_isNaN (h : x.isNaN = true) : x.unpack = .notANumber := by
  rw [isNaN_iff_isNaNBits, UnpackedFloat.isNaNBits, decide_eq_true_iff] at h
  unfold unpack UnpackedFloat.unpack
  exact (if_pos h.1).trans (if_neg h.2)

/-- All NaNs stand for one thing. -/
theorem isNaN_iff : x.isNaN = true ↔ x.unpack = .notANumber := by
  refine ⟨unpack_of_isNaN, fun h => ?_⟩
  rw [isNaN_iff_isNaNBits, UnpackedFloat.isNaNBits, decide_eq_true_iff]
  unfold unpack UnpackedFloat.unpack at h
  simp only at h
  split at h
  · rename_i he
    split at h
    · cases h
    · rename_i hm
      exact ⟨he, hm⟩
  · split at h
    · split at h <;> cases h
    · cases h

/-- Packing what a double stands for gives its bits, but for NaN. -/
theorem pack_unpack (h : x.isNaN = false) :
    UnpackedFloat.pack .binary64 x.unpack = x.bits.toBitVec := by
  refine (UnpackedFloat.pack_unpack _ (by decide)).trans (if_neg ?_)
  rw [← isNaN_iff_isNaNBits, h]
  exact Bool.false_ne_true

/-- **The number of a double is what its bits stand for.** -/
theorem unpack_toFloat (x : Double) : x.toFloat.toModel.unpack = x.unpack := by
  show UnpackedFloat.unpack .binary64 (UnpackedFloat.pack .binary64 x.unpack) = x.unpack
  cases h : x.isNaN with
  | true =>
      rw [unpack_of_isNaN h]
      rfl
  | false =>
      rw [pack_unpack h]
      rfl

/-- Doubles that stand for one number are one. -/
theorem eq_of_unpack (hx : x.isNaN = false) (h : x.unpack = y.unpack) : x = y := by
  have hy : y.isNaN = false := by
    rw [← Bool.not_eq_true, isNaN_iff, ← h, ← isNaN_iff, hx]
    exact Bool.false_ne_true
  obtain ⟨p⟩ := x
  obtain ⟨q⟩ := y
  congr 1
  apply UInt64.toBitVec_inj.mp
  rw [← pack_unpack hx, ← pack_unpack hy, h]

/-! ### Alike doubles -/

/-- Two unpacked doubles are identical, or zeros whatever their signs. -/
def Alike (u v : UnpackedFloat) : Prop :=
  u = v ∨ ((∃ s, u = .zero s) ∧ ∃ s, v = .zero s)

namespace Alike

variable {u v w : UnpackedFloat}

theorem symm (h : Alike u v) : Alike v u := by
  rcases h with h | ⟨hu, hv⟩
  · exact .inl h.symm
  · exact .inr ⟨hv, hu⟩

theorem trans (h : Alike u v) (h' : Alike v w) : Alike u w := by
  rcases h with rfl | ⟨hu, hv⟩
  · exact h'
  rcases h' with rfl | ⟨-, hw⟩
  · exact .inr ⟨hu, hv⟩
  · exact .inr ⟨hu, hw⟩

/-- What is alike to NaN is NaN. -/
theorem eq_notANumber (h : Alike u v) (hv : v = .notANumber) : u = .notANumber := by
  rcases h with rfl | ⟨-, s, rfl⟩
  · exact hv
  · cases hv

end Alike

/-- All but NaN compare with themselves as equal. -/
theorem unpacked_compare_self {u : UnpackedFloat} (h : u ≠ .notANumber) :
    u.compare u = some .eq := by
  cases u with
  | notANumber => exact absurd rfl h
  | infinity s => cases s <;> rfl
  | zero s => rfl
  | finite s m e hm => cases s <;> simp [UnpackedFloat.compare]

/-- Two unpacked doubles compare as equal when they are alike, but for NaN. -/
theorem unpacked_compare_eq_iff {u v : UnpackedFloat} :
    u.compare v = some .eq ↔ u ≠ .notANumber ∧ Alike u v := by
  constructor
  · intro h
    cases u with
    | notANumber => cases v <;> cases h
    | infinity s =>
        refine ⟨nofun, .inl ?_⟩
        cases v with
        | infinity t => cases s <;> cases t <;> first | rfl | cases h
        | _ => cases s <;> cases h
    | zero s =>
        refine ⟨nofun, .inr ⟨⟨s, rfl⟩, ?_⟩⟩
        cases v with
        | zero t => exact ⟨t, rfl⟩
        | notANumber => cases h
        | infinity t => cases t <;> cases h
        | finite t m e hm => cases t <;> cases h
    | finite s m e hm =>
        refine ⟨nofun, .inl ?_⟩
        cases v with
        | notANumber => cases s <;> cases h
        | infinity t => cases s <;> cases t <;> cases h
        | zero t => cases s <;> cases h
        | finite t n d hn =>
            cases s <;> cases t <;>
              simp [UnpackedFloat.compare, Ordering.swap_eq_eq, Ordering.then_eq_eq] at h
            · simp [h.1, h.2]
            · simp [h.1, h.2]
  · rintro ⟨hn, rfl | ⟨⟨s, rfl⟩, t, rfl⟩⟩
    · exact unpacked_compare_self hn
    · rfl

/-- Doubles are equal as numbers when they are alike, but for NaN. -/
theorem equals_iff : x.equals y = true ↔ x.isNaN = false ∧ Alike x.unpack y.unpack := by
  rw [← Bool.not_eq_true, isNaN_iff, ← unpacked_compare_eq_iff, ← unpack_toFloat x,
    ← unpack_toFloat y]
  show (x.toFloat.toModel.unpack.compare y.toFloat.toModel.unpack == some .eq) = true ↔ _
  exact beq_iff_eq

/-- **Doubles are the same when they are alike**, NaN among them. -/
theorem same_iff : same x y = true ↔ Alike x.unpack y.unpack := by
  rw [same, Bool.or_eq_true, Bool.and_eq_true, equals_iff, isNaN_iff, isNaN_iff]
  constructor
  · rintro (⟨-, h⟩ | ⟨hx, hy⟩)
    · exact h
    · exact .inl (hx.trans hy.symm)
  · intro h
    cases hx : x.isNaN with
    | true => exact .inr ⟨unpack_of_isNaN hx, h.symm.eq_notANumber (unpack_of_isNaN hx)⟩
    | false => exact .inl ⟨rfl, h⟩

/-- Every double is the same as itself. -/
theorem same_self (x : Double) : same x x = true := same_iff.mpr (.inl rfl)

theorem same_comm (x y : Double) : same x y = same y x := by
  rw [Bool.eq_iff_iff, same_iff, same_iff]
  exact ⟨Alike.symm, Alike.symm⟩

theorem same_trans (h : same x y = true) (h' : same y z = true) : same x z = true :=
  same_iff.mpr ((same_iff.mp h).trans (same_iff.mp h'))

/-! ### Places -/

/-- Every double has a place of its own in the total order. -/
theorem totalCompare_eq_iff : totalCompare x y = .eq ↔ x = y := by
  rw [totalCompare]
  constructor
  · intro h
    exact orderKey_inj (Int.compare_eq_eq.mp h)
  · rintro rfl
    exact Int.compare_eq_eq.mpr rfl

end LambdaQuery.Double
