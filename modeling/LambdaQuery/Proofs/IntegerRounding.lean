/-
**Integers as doubles.**  The double nearest to an integer keeps the order of integers, but not
their differences: past `2 ^ 53` several integers share one double.

The place of a double in its total order is read off its bits.  For the double of a natural number
the bits are `natBits`, whose leading part is the length of the number and whose rest is the
rounded significand, so that a longer number has greater bits whatever the rest is.

Main results:
* `Double.roundHalfEven_mono`, `Double.significand_bounds` — rounding keeps the order, and the
  significand has fifty-three bits or just overflows them;
* `Double.natBits_mono` — a greater number has bits that are as great;
* `Double.orderKey_ofInt`, `Double.orderKey_ofInt_mono` — **the doubles of integers are ordered as
  the integers**;
* `Double.orderKey_ofInt_strict` — they differ for integers up to `2 ^ 53`.
-/

import LambdaQuery.Double.Reader
import Mathlib

namespace LambdaQuery.Double

/-! ### Rounding -/

theorem roundHalfEven_le_succ (n k : Nat) : roundHalfEven n k ≤ n / 2 ^ k + 1 := by
  rw [roundHalfEven]
  simp only [Nat.pow_eq]
  split <;> omega

theorem le_roundHalfEven (n k : Nat) : n / 2 ^ k ≤ roundHalfEven n k := by
  rw [roundHalfEven]
  simp only [Nat.pow_eq]
  split <;> omega

/-- Rounding keeps the order. -/
theorem roundHalfEven_mono {m n : Nat} (h : m ≤ n) (k : Nat) :
    roundHalfEven m k ≤ roundHalfEven n k := by
  have hq : m / 2 ^ k ≤ n / 2 ^ k := Nat.div_le_div_right h
  by_cases heq : m / 2 ^ k = n / 2 ^ k
  · -- with the same quotient the greater remainder is rounded up at least as soon
    have hm := Nat.div_add_mod m (2 ^ k)
    have hn := Nat.div_add_mod n (2 ^ k)
    rw [heq] at hm
    have hr : m % 2 ^ k ≤ n % 2 ^ k := by omega
    unfold roundHalfEven
    simp only [Nat.pow_eq, heq]
    split <;> split <;> omega
  · calc roundHalfEven m k ≤ m / 2 ^ k + 1 := roundHalfEven_le_succ m k
      _ ≤ n / 2 ^ k := by omega
      _ ≤ roundHalfEven n k := le_roundHalfEven n k

/-! ### Significands -/

theorem log2_bounds {n : Nat} (h : n ≠ 0) : 2 ^ n.log2 ≤ n ∧ n < 2 ^ (n.log2 + 1) :=
  ⟨Nat.log2_self_le h, Nat.lt_log2_self⟩

/-- The significand has fifty-three bits, unless rounding has carried it to the next power. -/
theorem significand_bounds {n : Nat} (h : n ≠ 0) :
    2 ^ 52 ≤ significand n ∧ significand n ≤ 2 ^ 53 := by
  obtain ⟨hlo, hhi⟩ := log2_bounds h
  rw [significand]
  simp only [Nat.pow_eq]
  by_cases hl : n.log2 ≤ 52
  · -- a short number is shifted up, and loses no bit
    rw [if_pos hl]
    have hp : 2 ^ n.log2 * 2 ^ (52 - n.log2) = 2 ^ 52 := by
      rw [← Nat.pow_add]
      congr 1
      omega
    have hpos : 0 < 2 ^ (52 - n.log2) := Nat.two_pow_pos _
    constructor
    · rw [← hp]
      exact Nat.mul_le_mul_right _ hlo
    · calc n * 2 ^ (52 - n.log2) ≤ 2 ^ (n.log2 + 1) * 2 ^ (52 - n.log2) :=
            Nat.mul_le_mul_right _ (Nat.le_of_lt hhi)
        _ = 2 * (2 ^ n.log2 * 2 ^ (52 - n.log2)) := by rw [Nat.pow_succ]; ring
        _ = 2 ^ 53 := by rw [hp]; rfl
  · -- a long one is cut off after fifty-three bits, and rounding adds one at most
    rw [if_neg hl]
    have hdiv : 2 ^ 52 ≤ n / 2 ^ (n.log2 - 52) ∧ n / 2 ^ (n.log2 - 52) < 2 ^ 53 := by
      constructor
      · rw [Nat.le_div_iff_mul_le (Nat.two_pow_pos _), ← Nat.pow_add]
        have he : 52 + (n.log2 - 52) = n.log2 := by omega
        rwa [he]
      · rw [Nat.div_lt_iff_lt_mul (Nat.two_pow_pos _), ← Nat.pow_add]
        have he : 53 + (n.log2 - 52) = n.log2 + 1 := by omega
        rwa [he]
    have hle := le_roundHalfEven n (n.log2 - 52)
    have hge := roundHalfEven_le_succ n (n.log2 - 52)
    omega

/-- Among numbers of one length the significand keeps the order. -/
theorem significand_mono {m n : Nat} (h : m ≤ n) (hl : m.log2 = n.log2) :
    significand m ≤ significand n := by
  unfold significand
  rw [hl]
  split
  · exact Nat.mul_le_mul_right _ h
  · exact roundHalfEven_mono h _

/-! ### Bits -/

theorem log2_mono {m n : Nat} (h : m ≤ n) (hm : m ≠ 0) : m.log2 ≤ n.log2 := by
  by_contra hlt
  obtain ⟨hlo, -⟩ := log2_bounds hm
  obtain ⟨-, hhi⟩ := log2_bounds (n := n) (by omega)
  have hp : 2 ^ (n.log2 + 1) ≤ 2 ^ m.log2 := Nat.pow_le_pow_right (by omega) (by omega)
  omega

/-- The bits before they are cut off at infinity. -/
theorem unbounded_mono {m n : Nat} (h : m ≤ n) (hm : m ≠ 0) :
    (m.log2 + 1022) * 2 ^ 52 + significand m ≤ (n.log2 + 1022) * 2 ^ 52 + significand n := by
  have hs := significand_bounds hm
  have hs' := significand_bounds (n := n) (by omega)
  by_cases hl : m.log2 = n.log2
  · have := significand_mono h hl
    rw [hl]
    omega
  · -- of two lengths the exponents decide: a carry does not pass the next one
    have := log2_mono h hm
    omega

/-- **A greater number has bits that are as great.** -/
theorem natBits_mono {m n : Nat} (h : m ≤ n) : natBits m ≤ natBits n := by
  unfold natBits
  simp only [Nat.pow_eq]
  by_cases hm : m = 0
  · rw [if_pos hm]
    exact Nat.zero_le _
  · have hn : n ≠ 0 := by omega
    rw [if_neg hm, if_neg hn]
    have := unbounded_mono h hm
    omega

theorem natBits_le (n : Nat) : natBits n ≤ infinityBits := by
  rw [natBits]
  split
  · exact Nat.zero_le _
  · exact Nat.min_le_right _ _

theorem natBits_pos {n : Nat} (h : n ≠ 0) : 0 < natBits n := by
  have hs := significand_bounds h
  unfold natBits infinityBits
  simp only [Nat.pow_eq, if_neg h]
  omega

/-- Up to `2 ^ 53` no rounding takes place, and different numbers have different bits. -/
theorem natBits_strict {m n : Nat} (h : m < n) (hn : n ≤ 2 ^ 53) : natBits m < natBits n := by
  by_cases hm : m = 0
  · subst hm
    exact natBits_pos (by omega)
  have hn0 : n ≠ 0 := by omega
  have hs := significand_bounds hm
  have hs' := significand_bounds hn0
  obtain ⟨hlo, hhi⟩ := log2_bounds hm
  obtain ⟨hlo', hhi'⟩ := log2_bounds hn0
  have hml : m.log2 ≤ 52 := by
    by_contra hl
    have hp : 2 ^ 53 ≤ 2 ^ m.log2 := Nat.pow_le_pow_right (by omega) (by omega)
    omega
  have hnl : n.log2 ≤ 53 := by
    by_contra hl
    have hp : 2 ^ 54 ≤ 2 ^ n.log2 := Nat.pow_le_pow_right (by omega) (by omega)
    omega
  have hll := log2_mono (Nat.le_of_lt h) hm
  -- the significand of the smaller number has not been carried
  have hsm : significand m < 2 ^ 53 := by
    rw [significand]
    simp only [Nat.pow_eq, if_pos hml]
    calc m * 2 ^ (52 - m.log2) < 2 ^ (m.log2 + 1) * 2 ^ (52 - m.log2) :=
          Nat.mul_lt_mul_of_pos_right hhi (Nat.two_pow_pos _)
      _ = 2 ^ 53 := by
          rw [← Nat.pow_add]
          congr 1
          omega
  have hlt : (m.log2 + 1022) * 2 ^ 52 + significand m
      < (n.log2 + 1022) * 2 ^ 52 + significand n := by
    by_cases hl : m.log2 = n.log2
    · have hsig : significand m < significand n := by
        unfold significand
        simp only [Nat.pow_eq, ← hl, if_pos hml]
        exact Nat.mul_lt_mul_of_pos_right h (Nat.two_pow_pos _)
      rw [hl]
      omega
    · omega
  unfold natBits infinityBits
  simp only [Nat.pow_eq, if_neg hm, if_neg hn0]
  omega

/-! ### Places in the total order -/

/-- The bits of the double of an integer: those of its magnitude under its sign. -/
theorem bits_ofInt (n : Int) :
    (ofInt n).bits.toNat = (if n < 0 then 2 ^ 63 else 0) + natBits n.natAbs := by
  have hle := natBits_le n.natAbs
  rw [infinityBits] at hle
  simp only [Nat.pow_eq] at hle
  have hlt : (if n < 0 then 2 ^ 63 else 0) + natBits n.natAbs < 2 ^ 64 := by
    split <;> omega
  exact UInt64.toNat_ofNat_of_lt' hlt

/-- Doubles of one place are one double. -/
theorem orderKey_inj {x y : Double} (h : orderKey x = orderKey y) : x = y := by
  have hx := x.bits.toNat_lt
  have hy := y.bits.toNat_lt
  have hbits : x.bits.toNat = y.bits.toNat := by
    unfold orderKey isNegative at h
    simp only [Nat.pow_eq, beq_iff_eq] at h
    split at h <;> split at h <;> omega
  obtain ⟨p⟩ := x
  obtain ⟨q⟩ := y
  exact congrArg Double.mk (UInt64.toNat_inj.1 hbits)

/-- The place of the double of an integer: its bits, turned round below zero. -/
theorem orderKey_ofInt (n : Int) :
    orderKey (ofInt n) = if n < 0 then -1 - (natBits n.natAbs : Int) else natBits n.natAbs := by
  have hle := natBits_le n.natAbs
  rw [infinityBits] at hle
  simp only [Nat.pow_eq] at hle
  have hb := bits_ofInt n
  unfold orderKey isNegative
  simp only [Nat.pow_eq, hb]
  by_cases hn : n < 0
  · simp only [if_pos hn]
    rw [if_pos (by simp only [beq_iff_eq]; omega)]
    omega
  · simp only [if_neg hn]
    rw [if_neg (by simp only [beq_iff_eq]; omega)]
    omega

/-- **The doubles of integers are ordered as the integers.** -/
theorem orderKey_ofInt_mono {m n : Int} (h : m ≤ n) : orderKey (ofInt m) ≤ orderKey (ofInt n) := by
  rw [orderKey_ofInt, orderKey_ofInt]
  by_cases hm : m < 0
  · by_cases hn : n < 0
    · have := natBits_mono (m := n.natAbs) (n := m.natAbs) (by omega)
      simp only [if_pos hm, if_pos hn]
      omega
    · simp only [if_pos hm, if_neg hn]
      omega
  · have hn : ¬ n < 0 := by omega
    have := natBits_mono (m := m.natAbs) (n := n.natAbs) (by omega)
    simp only [if_neg hm, if_neg hn]
    omega

/-- Different integers up to `2 ^ 53` have different doubles. -/
theorem orderKey_ofInt_strict {m n : Int} (h : m < n) (hm : m.natAbs ≤ 2 ^ 53)
    (hn : n.natAbs ≤ 2 ^ 53) : orderKey (ofInt m) < orderKey (ofInt n) := by
  rw [orderKey_ofInt, orderKey_ofInt]
  by_cases hm0 : m < 0
  · by_cases hn0 : n < 0
    · have := natBits_strict (m := n.natAbs) (n := m.natAbs) (by omega) hm
      simp only [if_pos hm0, if_pos hn0]
      omega
    · simp only [if_pos hm0, if_neg hn0]
      omega
  · have hn0 : ¬ n < 0 := by omega
    have := natBits_strict (m := m.natAbs) (n := n.natAbs) (by omega) hn
    simp only [if_neg hm0, if_neg hn0]
    omega

/-- Past `2 ^ 53` two integers share a double. -/
example : orderKey (ofInt 9007199254740993) = orderKey (ofInt 9007199254740992) := by
  decide +kernel

end LambdaQuery.Double
