/-
**Arithmetic of integers.**  Operands of different widths are brought to the wider one when a term
is compiled, and the operator is carried out in the width of the values when it runs.  The two
widths are the same, so that the result is the exact one, wrapped: quotients are truncated toward
zero, the remainder has the sign of the dividend, and only a zero divisor is refused.  The least
integer divided by minus one wraps to itself, and still the quotient and the remainder give the
dividend back.

Main definitions:
* `BinaryOp.exact` — the result of an operator on integers of any size;
* `BinaryOp.ExactIn` — a result is the exact one, wrapped to a width;
* `IntWidth.wider` — the width in which integers of two widths are computed with.

Main results:
* `IntWidth.arithmetic_exact` — the operators on values of one width;
* `Expr.ofBinary_integers`, `Expr.value_integers` — the operators on integer expressions, compiled
  and evaluated;
* `Expr.value_dividend` — the quotient times the divisor and the remainder;
* `Scope.integer_arithmetic` — **arithmetic of two integer terms is exact modulo the width**.
-/

import LambdaQuery.Proofs.ComparisonCoherence
import LambdaQuery.Proofs.IntegerSums

namespace LambdaQuery

/-! ### One width -/

namespace BinaryOp

/-- The exact result of an arithmetic operator; quotients are truncated toward zero. -/
def exact (op : BinaryOp) (m n : Int) : Int :=
  match op with
  | add => m + n
  | subtract => m - n
  | multiply => m * n
  | divide => m.tdiv n
  | _ => m.tmod n

/-- Does the operator divide? -/
def divides : BinaryOp → Bool
  | divide | modulo => true
  | _ => false

/-- The result of an operator on two integers in a width: the exact one, wrapped, unless it would
divide by zero. -/
structure ExactIn (w : IntWidth) (op : BinaryOp) (m n : Int) (r : Except EvalError Value) :
    Prop where
  zero : op.divides = true → n = 0 → r = .error .divideByZero
  wrapped : (op.divides = true → n ≠ 0) →
    ∃ k, fits w.bits k = true ∧ k ≡ op.exact m n [ZMOD 2 ^ w.bits] ∧ r = .ok (w.value k)

end BinaryOp

namespace IntWidth

variable (w : IntWidth) {m n : Int} {op : BinaryOp}

/-- Wrapping keeps an integer modulo the width, and brings it into the width. -/
theorem exists_wrapped (n : Int) :
    ∃ k, fits w.bits k = true ∧ k ≡ n [ZMOD 2 ^ w.bits] ∧ w.value n = w.value k := by
  refine ⟨n.bmod (2 ^ w.bits), (w.fits_iff).mpr ?_, ?_, (w.value_bmod n).symm⟩
  · have hlow := Int.le_bmod (x := n) (m := 2 ^ w.bits) (Nat.two_pow_pos _)
    have hhigh := Int.bmod_lt (x := n) (m := 2 ^ w.bits) (Nat.two_pow_pos _)
    cases w <;> simp only [bits] at hlow hhigh ⊢ <;> omega
  · have hmod : n.bmod (2 ^ w.bits) % ((2 ^ w.bits : Nat) : Int) = n % ((2 ^ w.bits : Nat) : Int) :=
      Int.bmod_emod
    exact_mod_cast hmod

/-- Integers that fit are told by what they are modulo the width. -/
theorem eq_of_modEq (hm : fits w.bits m = true) (hn : fits w.bits n = true)
    (h : m ≡ n [ZMOD 2 ^ w.bits]) : m = n := by
  rw [fits_iff] at hm hn
  cases w <;> simp only [bits, Int.ModEq] at hm hn h <;> omega

theorem onInt_ofInt (hop : op.isArithmetic = true) (hm : fits 32 m = true)
    (hn : fits 32 n = true) :
    op.onInt (Int32.ofInt m) (Int32.ofInt n) =
      if op.divides = true ∧ n = 0 then .error .divideByZero
      else .ok (.int (Int32.ofInt (op.exact m n))) := by
  have hzero : Int32.ofInt n = 0 ↔ n = 0 := by
    rw [← Int32.toInt_inj, Int32.toInt_ofInt]
    exact Eq.congr (int.bmod_of_fits hn) rfl
  have hbm := int.fits_iff.mp hm
  have hbn := int.fits_iff.mp hn
  have hdiv : Int32.ofInt (m.tdiv n) = Int32.ofInt m / Int32.ofInt n :=
    Int32.ofInt_tdiv hbm.1 (Int.le_of_lt_add_one hbm.2) hbn.1 (Int.le_of_lt_add_one hbn.2)
  have hmod : Int32.ofInt (m.tmod n) = Int32.ofInt m % Int32.ofInt n :=
    Int32.ofInt_tmod hbm.1 (Int.le_of_lt_add_one hbm.2) hbn.1 (Int.le_of_lt_add_one hbn.2)
  cases op with
  | add | subtract | multiply =>
      simp [BinaryOp.onInt, BinaryOp.exact, BinaryOp.divides, Int32.ofInt_add, Int32.ofInt_sub,
        Int32.ofInt_mul]
  | divide => simp only [BinaryOp.onInt, BinaryOp.exact, BinaryOp.divides, hzero, hdiv, true_and]
  | modulo => simp only [BinaryOp.onInt, BinaryOp.exact, BinaryOp.divides, hzero, hmod, true_and]
  | _ => cases hop

theorem onLong_ofInt (hop : op.isArithmetic = true) (hm : fits 64 m = true)
    (hn : fits 64 n = true) :
    op.onLong (Int64.ofInt m) (Int64.ofInt n) =
      if op.divides = true ∧ n = 0 then .error .divideByZero
      else .ok (.long (Int64.ofInt (op.exact m n))) := by
  have hzero : Int64.ofInt n = 0 ↔ n = 0 := by
    rw [← Int64.toInt_inj, Int64.toInt_ofInt]
    exact Eq.congr (long.bmod_of_fits hn) rfl
  have hbm := long.fits_iff.mp hm
  have hbn := long.fits_iff.mp hn
  have hdiv : Int64.ofInt (m.tdiv n) = Int64.ofInt m / Int64.ofInt n :=
    Int64.ofInt_tdiv hbm.1 (Int.le_of_lt_add_one hbm.2) hbn.1 (Int.le_of_lt_add_one hbn.2)
  have hmod : Int64.ofInt (m.tmod n) = Int64.ofInt m % Int64.ofInt n :=
    Int64.ofInt_tmod hbm.1 (Int.le_of_lt_add_one hbm.2) hbn.1 (Int.le_of_lt_add_one hbn.2)
  cases op with
  | add | subtract | multiply =>
      simp [BinaryOp.onLong, BinaryOp.exact, BinaryOp.divides, Int64.ofInt_add, Int64.ofInt_sub,
        Int64.ofInt_mul]
  | divide => simp only [BinaryOp.onLong, BinaryOp.exact, BinaryOp.divides, hzero, hdiv, true_and]
  | modulo => simp only [BinaryOp.onLong, BinaryOp.exact, BinaryOp.divides, hzero, hmod, true_and]
  | _ => cases hop

/-- **The operators on values of one width** are exact modulo the width. -/
theorem arithmetic_exact (hop : op.isArithmetic = true) (hm : fits w.bits m = true)
    (hn : fits w.bits n = true) :
    op.ExactIn w m n (op.arithmetic (w.value m) (w.value n)) := by
  have hvalue : op.arithmetic (w.value m) (w.value n) =
      if op.divides = true ∧ n = 0 then .error .divideByZero
      else .ok (w.value (op.exact m n)) := by
    cases w with
    | int => exact onInt_ofInt hop hm hn
    | long => exact onLong_ofInt hop hm hn
  rw [hvalue]
  constructor
  · intro hdivides hzero
    rw [if_pos ⟨hdivides, hzero⟩]
  · intro hne
    obtain ⟨k, hfits, hmod, hk⟩ := w.exists_wrapped (op.exact m n)
    refine ⟨k, hfits, hmod, ?_⟩
    rw [if_neg fun h => hne h.1 h.2, hk]

/-! ### Two widths -/

/-- The width in which integers of two widths are computed with. -/
def wider : IntWidth → IntWidth → IntWidth
  | int, int => int
  | _, _ => long

theorem wider_comm (i j : IntWidth) : i.wider j = j.wider i := by
  cases i <;> cases j <;> rfl

/-- The place of the integers of a width in the order of widening. -/
def rank : IntWidth → Nat
  | int => 1
  | long => 2

theorem rank_wider (i j : IntWidth) : (i.wider j).rank = max i.rank j.rank := by
  cases i <;> cases j <;> rfl

theorem numericRank?_eq_some_iff {i : IntWidth} {t : Ty} :
    t.numericRank? = some i.rank ↔ t.underlying = i.type := by
  constructor
  · intro h
    have ht := Ty.numericRank?_cases h
    cases i <;> simp [rank] at ht <;> rcases ht with rfl | rfl <;> rfl
  · intro h
    rw [Ty.numericRank?, h]
    cases i <;> rfl

theorem wider_wider (i j : IntWidth) : (i.wider j).wider j = i.wider j := by
  cases i <;> cases j <;> rfl

theorem wider_self (i : IntWidth) : i.wider i = i := by
  cases i <;> rfl

theorem fits_wider {i : IntWidth} (j : IntWidth) (h : fits i.bits n = true) :
    fits (i.wider j).bits n = true := by
  rw [fits_iff] at h ⊢
  cases i <;> cases j <;> simp only [wider, bits] at h ⊢ <;> omega

/-- An integer converted is the same integer in the wider width. -/
theorem convert_value {i j : IntWidth} {t : Ty} (ht : t.underlying = (i.wider j).type)
    (hn : fits i.bits n = true) : (i.value n).convert t = (i.wider j).value n := by
  have hbound := i.fits_iff.mp hn
  unfold Value.convert
  rw [ht]
  cases i with
  | int =>
      cases j with
      | int => rfl
      | long =>
          exact congrArg Value.long
            (Int32.toInt64_ofInt hbound.1 (Int.le_of_lt_add_one hbound.2))
  | long => rfl

end IntWidth

/-! ### Integer expressions -/

namespace Expr

variable {e f g : Expr} {i j : IntWidth} {op : BinaryOp} {t : Ty} {env : List Value} {m n : Int}
  {a b : Value}

/-- An operator on two operands brought to one type. -/
def binaryIn (t : Ty) (op : BinaryOp) (lhs rhs : Expr) : Expr :=
  .binary op (lhs.convertTo t) (rhs.convertTo t) t

/-- The arithmetic operators on integers take both operands in the wider type. -/
theorem ofBinary_integers (he : e.type.underlying = i.type) (hf : f.type.underlying = j.type) :
    ∃ t, t.underlying = (i.wider j).type ∧
      t.isNullable = (e.type.isNullable || f.type.isNullable) ∧
      ∀ op : BinaryOp, op.isArithmetic = true →
        ofBinary op e f = .ok (binaryIn t op e f) := by
  have hre := IntWidth.numericRank?_eq_some_iff.mpr he
  have hrf := IntWidth.numericRank?_eq_some_iff.mpr hf
  obtain ⟨t, ht⟩ := Ty.exists_promote hre hrf
  obtain ⟨_, _, hi, hj, hrank, hnull⟩ := Ty.promote_eq_some_iff.mp ht
  cases hre.symm.trans hi
  cases hrf.symm.trans hj
  refine ⟨t, IntWidth.numericRank?_eq_some_iff.mp ?_, hnull, fun op hop => ?_⟩
  · rw [hrank, IntWidth.rank_wider]
  · have hes : e.type ≠ .string := fun h => by
      rw [h] at hre
      cases hre
    have hfs : f.type ≠ .string := fun h => by
      rw [h] at hrf
      cases hrf
    cases op with
    | add => simp [ofBinary, promoted, binaryIn, ht, hes, hfs]
    | subtract | multiply | divide | modulo => simp [ofBinary, promoted, binaryIn, ht]
    | _ => cases hop

/-- An integer brought to the wider type. -/
theorem value_convertTo_integer (he : e.type.underlying = i.type)
    (ht : t.underlying = (i.wider j).type) (hv : e.value env = .ok (i.value m))
    (hm : fits i.bits m = true) : (e.convertTo t).value env = .ok ((i.wider j).value m) := by
  rw [convertTo]
  split
  · rename_i heq
    have hwidth : i.type = (i.wider j).type := he.symm.trans ((congrArg Ty.underlying heq).trans ht)
    rw [hv]
    cases i <;> cases j <;> first | rfl | cases hwidth
  · rw [value, hv]
    exact congrArg Except.ok (IntWidth.convert_value ht hm)

/-- An arithmetic operator computes from the values of both operands. -/
theorem value_arithmetic (hop : op.isArithmetic = true) (ha : e.value env = .ok a)
    (hb : f.value env = .ok b) : (binary op e f t).value env = op.arithmetic a b := by
  have hstrict :
      op.combine a (.ok b : Except EvalError Value) = liftResult (op.arithmetic a b) := by
    cases op <;> first | rfl | cases hop
  rw [value, ha, hb]
  exact hstrict.trans (liftResult_except _)

/-- Null on either side gives null. -/
theorem value_integers_null (hop : op.isArithmetic = true) (ha : e.value env = .ok a)
    (hb : f.value env = .ok b) (hnull : a = .null ∨ b = .null) :
    (binaryIn t op e f).value env = .ok .null := by
  obtain ⟨a', ha', hna, -⟩ := value_convertTo ha t
  obtain ⟨b', hb', hnb, -⟩ := value_convertTo hb t
  rw [binaryIn, value_arithmetic hop ha' hb']
  rcases hnull with rfl | rfl
  · cases a' <;> first | rfl | cases hna
  · cases b' <;> first | (cases a' <;> rfl) | cases hnb

/-- **An arithmetic operator on integers** is exact in the wider width. -/
theorem value_integers (hop : op.isArithmetic = true) (he : e.type.underlying = i.type)
    (hf : f.type.underlying = j.type) (ht : t.underlying = (i.wider j).type)
    (hm : fits i.bits m = true) (hn : fits j.bits n = true) (ha : e.value env = .ok (i.value m))
    (hb : f.value env = .ok (j.value n)) :
    op.ExactIn (i.wider j) m n ((binaryIn t op e f).value env) := by
  have ha' := value_convertTo_integer he ht ha hm
  have hb' := value_convertTo_integer (j := i) hf (by rw [ht, IntWidth.wider_comm]) hb hn
  rw [IntWidth.wider_comm j i] at hb'
  rw [binaryIn, value_arithmetic hop ha' hb']
  refine (i.wider j).arithmetic_exact hop (IntWidth.fits_wider j hm) ?_
  rw [IntWidth.wider_comm]
  exact IntWidth.fits_wider i hn

/-- **The quotient times the divisor and the remainder make up the dividend.** -/
theorem value_dividend {u c : Ty} (he : e.type.underlying = i.type)
    (hf : f.type.underlying = j.type) (ht : t.underlying = (i.wider j).type)
    (hu : u.underlying = (i.wider j).type) (hc : c.underlying = (i.wider j).type)
    (hm : fits i.bits m = true) (hn : fits j.bits n = true) (ha : e.value env = .ok (i.value m))
    (hb : f.value env = .ok (j.value n)) (hne : n ≠ 0) :
    (binaryIn c .add (binaryIn u .multiply (binaryIn t .divide e f) f)
      (binaryIn t .modulo e f)).value env = .ok ((i.wider j).value m) := by
  have hquotient : BinaryOp.ExactIn (i.wider j) .divide m n ((binaryIn t .divide e f).value env) :=
    value_integers rfl he hf ht hm hn ha hb
  have hremainder : BinaryOp.ExactIn (i.wider j) .modulo m n ((binaryIn t .modulo e f).value env) :=
    value_integers rfl he hf ht hm hn ha hb
  obtain ⟨q, hqfits, hq, hqv⟩ := hquotient.wrapped fun _ => hne
  obtain ⟨x, hxfits, hx, hxv⟩ := hremainder.wrapped fun _ => hne
  have hproduct : BinaryOp.ExactIn ((i.wider j).wider j) .multiply q n
      ((binaryIn u .multiply (binaryIn t .divide e f) f).value env) :=
    value_integers rfl ht hf (by rw [hu, IntWidth.wider_wider]) hqfits hn hqv hb
  rw [IntWidth.wider_wider] at hproduct
  obtain ⟨p, hpfits, hp, hpv⟩ := hproduct.wrapped nofun
  have hsum : BinaryOp.ExactIn ((i.wider j).wider (i.wider j)) .add p x
      ((binaryIn c .add (binaryIn u .multiply (binaryIn t .divide e f) f)
        (binaryIn t .modulo e f)).value env) :=
    value_integers rfl hu ht (by rw [hc, IntWidth.wider_self]) hpfits hxfits hpv hxv
  rw [IntWidth.wider_self] at hsum
  obtain ⟨y, hyfits, hy, hyv⟩ := hsum.wrapped nofun
  have hym : y ≡ m [ZMOD 2 ^ (i.wider j).bits] := calc
    y ≡ p + x [ZMOD _] := hy
    _ ≡ m.tdiv n * n + m.tmod n [ZMOD _] := (hp.trans (hq.mul_right n)).add hx
    _ = m := Int.tdiv_mul_add_tmod m n
  rw [hyv, (i.wider j).eq_of_modEq hyfits (IntWidth.fits_wider j hm) hym]

/-- Both parts compile, and so does their sum. -/
theorem exists_dividend (he : e.type.underlying = i.type) (hf : f.type.underlying = j.type)
    (ht : t.underlying = (i.wider j).type) :
    ∃ back, (ofBinary .multiply (binaryIn t .divide e f) f >>= fun product =>
        ofBinary .add product (binaryIn t .modulo e f)) = .ok back ∧
      ∀ {env : List Value} {m n : Int}, fits i.bits m = true → fits j.bits n = true →
        e.value env = .ok (i.value m) → f.value env = .ok (j.value n) → n ≠ 0 →
          back.value env = .ok ((i.wider j).value m) := by
  have hquotient : (binaryIn t .divide e f).type.underlying = (i.wider j).type := ht
  have hremainder : (binaryIn t .modulo e f).type.underlying = (i.wider j).type := ht
  obtain ⟨u, hu, -, hproducts⟩ := ofBinary_integers hquotient hf
  rw [IntWidth.wider_wider] at hu
  have hproduct : (binaryIn u .multiply (binaryIn t .divide e f) f).type.underlying =
      (i.wider j).type := hu
  obtain ⟨c, hc, -, hsums⟩ := ofBinary_integers hproduct hremainder
  rw [IntWidth.wider_self] at hc
  exact ⟨_, bind_eq_ok.mpr ⟨_, hproducts .multiply rfl, hsums .add rfl⟩,
    fun hm hn ha hb hne => value_dividend he hf ht hu hc hm hn ha hb hne⟩

/-- A value of an integer type is null or an integer that fits. -/
theorem null_or_integer {v : Value} (ht : t.underlying = i.type) (hv : v.Belongs t) :
    v = .null ∨ ∃ m, fits i.bits m = true ∧ v = i.value m := by
  by_cases hnull : v = .null
  · exact .inl hnull
  · have hbase : t.base = i.type.base := by rw [← Ty.base_underlying, ht]
    exact .inr (i.exists_value (Value.conforms_of_ne_null hnull hbase hv.conforms))

end Expr

/-- **Arithmetic of two integer terms is exact modulo the width.**  Terms of the types `int`, `long`
and the same with null compile with every arithmetic operator, to the type `int` if both are of
`int`, else to `long`, and with null if one of them has it.  In every frame that starts with values
of the types of the parameters, if both terms evaluate: with null on either side the result is null;
otherwise both values are integers, and the result is the exact one, wrapped to the width, but for
a zero divisor, which is refused.  Where the divisor is not zero, the quotient times the divisor and
the remainder make up the dividend. -/
theorem Scope.integer_arithmetic {s : Scope} {l r : Term} {lhs rhs : Expr} {i j : IntWidth}
    (hb : s.bindings.All fun v => v.Belongs v.typeOf) (hl : s.term l = .ok lhs)
    (hr : s.term r = .ok rhs) (hlt : lhs.type.underlying = i.type)
    (hrt : rhs.type.underlying = j.type) :
    ∃ (compiled : BinaryOp → Expr) (back : Expr),
      (∀ op : BinaryOp, op.isArithmetic = true →
        s.term (.binary op l r) = .ok (compiled op) ∧
          (compiled op).type.underlying = (i.wider j).type ∧
          (compiled op).type.isNullable = (lhs.type.isNullable || rhs.type.isNullable)) ∧
      s.term (.binary .add (.binary .multiply (.binary .divide l r) r) (.binary .modulo l r)) =
        .ok back ∧
      ∀ (env : List Value) (frame : Frame) (a b : Value), Environment s.types env →
        env <+: frame → (lhs.eval.run frame).1 = .ok a → (rhs.eval.run frame).1 = .ok b →
          (a = .null ∨ b = .null → ∀ op : BinaryOp, op.isArithmetic = true →
            ((compiled op).eval.run frame).1 = .ok .null) ∧
          (a ≠ .null → b ≠ .null →
            ∃ m n : Int, fits i.bits m = true ∧ fits j.bits n = true ∧ a = i.value m ∧
              b = j.value n ∧
              (∀ op : BinaryOp, op.isArithmetic = true →
                op.ExactIn (i.wider j) m n ((compiled op).eval.run frame).1) ∧
              (n ≠ 0 → (back.eval.run frame).1 = .ok ((i.wider j).value m))) := by
  have hC : s.Grants Value.Belongs := ⟨fun _ _ h => h, hb⟩
  have htl : lhs.Typed Value.Belongs s.types := term_typed l hC hl
  have htr : rhs.Typed Value.Belongs s.types := term_typed r hC hr
  obtain ⟨t, ht, hnullable, hops⟩ := Expr.ofBinary_integers hlt hrt
  have hterm : ∀ op : BinaryOp, op.isArithmetic = true →
      s.term (.binary op l r) = .ok (Expr.binaryIn t op lhs rhs) := by
    intro op hop
    rw [term, hl, hr]
    exact hops op hop
  have htyped : ∀ op : BinaryOp, op.isArithmetic = true →
      (Expr.binaryIn t op lhs rhs).Typed Value.Belongs s.types :=
    fun op hop => Expr.ofBinary_typed htl htr (hops op hop)
  obtain ⟨back, hdividend, hbackValue⟩ := Expr.exists_dividend hlt hrt ht
  have hback : s.term (.binary .add (.binary .multiply (.binary .divide l r) r)
      (.binary .modulo l r)) = .ok back := by
    rw [term, term, hterm .divide rfl, hr, hterm .modulo rfl]
    exact hdividend
  refine ⟨fun op => Expr.binaryIn t op lhs rhs, back, fun op hop => ⟨hterm op hop, ht, hnullable⟩,
    hback, fun env frame a b henv hframe ha hb => ?_⟩
  have hvalue : ∀ {e : Expr}, e.Typed Value.Belongs s.types → (e.eval.run frame).1 = e.value env :=
    fun he => he.run_eval henv.length_eq.symm hframe
  rw [hvalue htl] at ha
  rw [hvalue htr] at hb
  refine ⟨fun hnull op hop => ?_, fun hna hnb => ?_⟩
  · rw [hvalue (htyped op hop)]
    exact Expr.value_integers_null hop ha hb hnull
  · obtain ⟨m, hm, rfl⟩ := (Expr.null_or_integer hlt (htl.belongs henv ha)).resolve_left hna
    obtain ⟨n, hn, rfl⟩ := (Expr.null_or_integer hrt (htr.belongs henv hb)).resolve_left hnb
    refine ⟨m, n, hm, hn, rfl, rfl, fun op hop => ?_, fun hne => ?_⟩
    · rw [hvalue (htyped op hop)]
      exact Expr.value_integers hop hlt hrt ht hm hn ha hb
    · rw [hvalue (term_typed _ hC hback)]
      exact hbackValue hm hn ha hb hne

/-- The least integer by minus one, and by zero, and null by zero. -/
theorem Scope.integer_arithmetic_least :
    let s : Scope := ⟨.empty, [("x", .nullable .int), ("y", .int)], none⟩
    let x : Term := .name "x"
    let y : Term := .name "y"
    ∃ quotient back, s.term (.binary .divide x y) = .ok quotient ∧
      s.term (.binary .add (.binary .multiply (.binary .divide x y) y) (.binary .modulo x y)) =
        .ok back ∧
      (quotient.eval.run [.null, .int 0]).1 = .ok .null ∧
      (quotient.eval.run [.int (-2147483648), .int 0]).1 = .error .divideByZero ∧
      BinaryOp.ExactIn .int .divide (-2147483648) (-1)
        (quotient.eval.run [.int (-2147483648), .int (-1)]).1 ∧
      (back.eval.run [.int (-2147483648), .int (-1)]).1 = .ok (.int (-2147483648)) := by
  intro s x y
  have hb : s.bindings.All fun v => v.Belongs v.typeOf :=
    ⟨fun _ hv => absurd hv List.not_mem_nil, fun _ he => absurd he List.not_mem_nil⟩
  have hx : s.term x = .ok (.parameter 0 (.nullable .int)) := by cbv
  have hy : s.term y = .ok (.parameter 1 .int) := by cbv
  obtain ⟨compiled, back, hcompiled, hback, hruns⟩ :=
    integer_arithmetic (i := .int) (j := .int) hb hx hy rfl rfl
  -- the integers of the two values are the ones that the values hold
  have hvalues : ∀ (a b : Int32), ∃ m n : Int, m = a.toInt ∧ n = b.toInt ∧
      (BinaryOp.ExactIn .int .divide m n
        ((compiled .divide).eval.run [.int a, .int b]).1) ∧
      (n ≠ 0 → (back.eval.run [.int a, .int b]).1 = .ok (IntWidth.int.value m)) := by
    intro a b
    have henv : Environment s.types [.int a, .int b] := .cons ⟨rfl, rfl⟩ (.cons ⟨rfl, rfl⟩ .nil)
    obtain ⟨m, n, hm, hn, ham, hbn, hexact, hsum⟩ :=
      (hruns _ _ _ _ henv (List.prefix_refl _) rfl rfl).2 Value.noConfusion Value.noConfusion
    refine ⟨m, n, ?_, ?_, hexact .divide rfl, hsum⟩
    · have hread := IntWidth.int.read_value hm
      rw [← ham] at hread
      exact (Option.some.inj hread).symm
    · have hread := IntWidth.int.read_value hn
      rw [← hbn] at hread
      exact (Option.some.inj hread).symm
  refine ⟨compiled .divide, back, (hcompiled .divide rfl).1, hback, ?_, ?_, ?_, ?_⟩
  · have henv : Environment s.types [.null, .int 0] := .cons ⟨rfl, rfl⟩ (.cons ⟨rfl, rfl⟩ .nil)
    exact (hruns _ _ _ _ henv (List.prefix_refl _) rfl rfl).1 (.inl rfl) .divide rfl
  · obtain ⟨m, n, rfl, rfl, hexact, -⟩ := hvalues (-2147483648) 0
    exact hexact.zero rfl rfl
  · obtain ⟨m, n, rfl, rfl, hexact, -⟩ := hvalues (-2147483648) (-1)
    exact hexact
  · obtain ⟨m, n, rfl, rfl, -, hsum⟩ := hvalues (-2147483648) (-1)
    exact hsum (by decide)

end LambdaQuery
