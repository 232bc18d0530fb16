/-
**Whole numbers in decimal text.**  The text of an integer is a term whose value is the integer, as
long as its digits alone fit in 64 bits.  The digits are a literal by themselves, of type `int` or
`long` by their magnitude, and a minus before them is an operator that keeps the type.  So the two
integers of the largest magnitude in 32 and in 64 bits are not what their width would allow: the
first is of type `long`, and the second has no text.

Main definitions:
* `Value.ofInt` — the value of an integer, in the narrower type that has room for its magnitude;
* `Value.IsInt` — the value is the given integer;
* `Term.ofInt` — the term of a literal and its sign;
* `Lambda.ReadsInt` — a text as a bare expression of a type that has one integer as its value.

Main results:
* `Value.negate_ofInt`, `Value.isInt_ofInt` — **negation does not wrap**, and the value is exact;
* `Term.parse_toString` — the term of a decimal text, or its error;
* `Lambda.compile_toString` — **the decimal text of an integer yields the integer**;
* `Lambda.not_readsInt_least` — the least integers of 32 and of 64 bits.
-/

import LambdaQuery.Expr.Eval
import LambdaQuery.Expr.Typing
import LambdaQuery.Proofs.TokenTails

namespace LambdaQuery

open Text

/-! ### Values of integers -/

namespace Value

/-- The value of an integer, of 32 bits if its magnitude has fewer than that. -/
def ofInt (n : Int) : Value :=
  if n.natAbs < 2 ^ 31 then .int (Int32.ofInt n) else .long (Int64.ofInt n)

/-- Is the value the given integer, in either width? -/
def IsInt (n : Int) : Value → Prop
  | int k => k.toInt = n
  | long k => k.toInt = n
  | _ => False

theorem isInt_ofInt {n : Int} (hlow : -2 ^ 63 < n) (hhigh : n < 2 ^ 63) : (ofInt n).IsInt n := by
  unfold ofInt
  split
  · exact Int32.toInt_ofInt_of_le (by omega) (by omega)
  · exact Int64.toInt_ofInt_of_le (by omega) (by omega)

/-- **Negation does not wrap**: the negative of a value has its magnitude, and so its width. -/
theorem negate_ofInt (n : Int) : UnaryOp.negate.apply (ofInt n) = .ok (ofInt (-n)) := by
  unfold ofInt
  rw [Int.natAbs_neg]
  split
  · rw [Int32.ofInt_neg]
    rfl
  · rw [Int64.ofInt_neg]
    rfl

theorem typeOf_negate_ofInt (n : Int) : (ofInt (-n)).typeOf = (ofInt n).typeOf := by
  unfold ofInt
  rw [Int.natAbs_neg]
  split <;> rfl

theorem isNumeric_typeOf_ofInt (n : Int) : (ofInt n).typeOf.isNumeric = true := by
  unfold ofInt
  split <;> rfl

/-- The type tells for which integers 32 bits are used. -/
theorem typeOf_ofInt (n : Int) :
    (ofInt n).typeOf = if -2 ^ 31 < n ∧ n < 2 ^ 31 then .int else .long := by
  have hmagnitude : n.natAbs < 2 ^ 31 ↔ -2 ^ 31 < n ∧ n < 2 ^ 31 := by omega
  simp only [ofInt, hmagnitude]
  split <;> rfl

end Value

/-! ### Decimal texts -/

theorem toList_toString_nonneg (m : Nat) : (toString (m : Int)).toList = Nat.toDigits 10 m :=
  Nat.toList_repr

theorem toList_toString_neg {n : Int} (h : n < 0) :
    (toString n).toList = '-' :: Nat.toDigits 10 n.natAbs := by
  cases n with
  | ofNat m => exact absurd h (by simp)
  | negSucc m =>
      have htext : toString (Int.negSucc m) = "-" ++ (m + 1).repr := rfl
      rw [htext, String.toList_append, Nat.toList_repr]
      rfl

/-- Digits alone are a literal if their value fits in 64 bits. -/
theorem scanNumber_toDigits (m : Nat) :
    scanNumber (Nat.toDigits 10 m) =
      if m < 2 ^ 63 then .ok (.integer m, []) else .error (.invalidNumber (toString m)) := by
  have hdigits : Digits m (Nat.toDigits 10 m) := .toDigits m
  have hliteral := @scanLiteral_of_digits m _ [] hdigits (by simp)
  have hwhole : (Literal.mk (Nat.toDigits 10 m) (Nat.toDigits 10 m) none none).toWhole .integer =
      if m < 2 ^ 63 then .ok (.integer m) else .error (.invalidNumber (toString m)) := by
    rw [Literal.toWhole, hdigits.value]
    rfl
  rw [List.append_nil] at hliteral
  simp only [scanNumber, hliteral, Literal.token, Literal.finish, Literal.isFloat,
    List.takeWhile_nil, List.isEmpty_nil, if_true, Option.isSome_none, Bool.or_self,
    Bool.false_eq_true, if_false, hwhole]
  by_cases hm : m < 2 ^ 63
  · rw [if_pos hm, if_pos hm]
  · rw [if_neg hm, if_neg hm]

namespace Tokens

theorem ofChars_toDigits (m : Nat) :
    ofChars (Nat.toDigits 10 m) =
      if m < 2 ^ 63 then more (.integer m) done else broken (.invalidNumber (toString m)) := by
  have hdigits : Digits m (Nat.toDigits 10 m) := .toDigits m
  obtain ⟨c, cs, hcs, hc⟩ := hdigits.exists_cons
  have hscan := scanNumber_toDigits m
  rw [hcs, ← Token.scan_of_isDigit hc] at hscan
  have hblank : (c :: cs).dropWhile isBlank = c :: cs :=
    List.dropWhile_cons_of_neg (by simp [isBlank_of_isDigit hc])
  rw [hcs]
  by_cases hm : m < 2 ^ 63
  · rw [if_pos hm] at hscan ⊢
    have hnext : Token.next? (c :: cs) = .ok (some (.integer m, [])) := by
      simp only [Token.next?, hblank, hscan]
    rw [ofChars_of_next?_some hnext, ofChars_of_next?_none rfl]
  · rw [if_neg hm] at hscan ⊢
    refine ofChars_of_next?_error ?_
    simp only [Token.next?, hblank, hscan]

/-- A minus before the digits is a sign of its own. -/
theorem ofText_toString_neg {n : Int} (hn : n < 0) :
    ofText (toString n) = more (.sign .minus) (ofChars (Nat.toDigits 10 n.natAbs)) := by
  have hminus : ∀ cs, scanSign? ('-' :: cs) = some (.minus, cs) := fun cs => by cases cs <;> rfl
  rw [ofText, toList_toString_neg hn, ofChars_of_next?_some (Token.next?_sign (hminus _))]

end Tokens

/-! ### The term of a text -/

namespace Term

open Reading Tokens

/-- The literal of an integer's magnitude, behind the operator for its sign. -/
def ofInt (n : Int) : Term :=
  if n < 0 then unary .negate (integer n.natAbs) else integer n.natAbs

theorem parse_toString (n : Int) :
    parse (toString n) =
      if n.natAbs < 2 ^ 63 then .ok (ofInt n)
      else .error (.invalidNumber (toString n.natAbs)) := by
  by_cases hn : n < 0
  · simp only [parse, ofText_toString_neg hn, ofChars_toDigits, ofInt, if_pos hn]
    by_cases hm : n.natAbs < 2 ^ 63
    · simp only [if_pos hm]
      rfl
    · simp only [if_neg hm]
      rfl
  · obtain ⟨m, rfl⟩ := Int.eq_ofNat_of_zero_le (Int.not_lt.mp hn)
    simp only [parse, ofText, toList_toString_nonneg, ofChars_toDigits, ofInt, if_neg hn,
      Int.natAbs_natCast]
    by_cases hm : m < 2 ^ 63
    · simp only [if_pos hm]
      rfl
    · simp only [if_neg hm]
      rfl

end Term

/-! ### The value of a text -/

namespace Scope

variable (s : Scope)

theorem term_integer (m : Nat) :
    s.term (.integer m) = .ok (.constant (.ofInt m) (Value.ofInt m).typeOf) := by
  rw [term, Value.ofInt, Int.natAbs_natCast]
  by_cases hm : m < 2 ^ 31
  · rw [if_pos hm]
    exact if_pos hm
  · rw [if_neg hm]
    exact if_neg hm

/-- The literal in the type of its magnitude, and the negation of one in the same type. -/
theorem term_ofInt (n : Int) :
    ∃ e, s.term (.ofInt n) = .ok e ∧ e.type = (Value.ofInt n).typeOf ∧
      e.eval = pure (.ofInt n) := by
  unfold Term.ofInt
  split
  · next hn =>
    have hmagnitude : -(n.natAbs : Int) = n := by omega
    have hnegate := Value.negate_ofInt n.natAbs
    have htype := Value.typeOf_negate_ofInt n.natAbs
    rw [hmagnitude] at hnegate htype
    refine ⟨.unary .negate (.constant (.ofInt n.natAbs) (Value.ofInt n.natAbs).typeOf)
      (Value.ofInt n.natAbs).typeOf, ?_, htype.symm, ?_⟩
    · rw [term, term_integer]
      exact if_pos (Value.isNumeric_typeOf_ofInt _)
    · simp only [Expr.eval, pure_bind, hnegate]
      rfl
  · next hn =>
    obtain ⟨m, rfl⟩ := Int.eq_ofNat_of_zero_le (Int.not_lt.mp hn)
    refine ⟨_, s.term_integer m, rfl, ?_⟩
    rw [Expr.eval]

end Scope

namespace Lambda

/-- As a bare expression over a parameter of type `T`, the text is a function to the type `t` that
gives the integer whatever it is applied to. -/
def ReadsInt (text : String) (T : Ty) (b : Bindings) (t : Ty) (n : Int) : Prop :=
  ∃ l, compile text [T] b = .ok l ∧ l.type = .function [T] t ∧
    ∀ v, ∃ value, l.call [v] = .ok value ∧ value.IsInt n

theorem readsInt_toString {n : Int} (hlow : -2 ^ 63 < n) (hhigh : n < 2 ^ 63) (T : Ty)
    (b : Bindings) :
    ReadsInt (toString n) T b (if -2 ^ 31 < n ∧ n < 2 ^ 31 then .int else .long) n := by
  let s : Scope := { bindings := b, params := [], implicit := none }
  obtain ⟨e, he, htype, heval⟩ := (s.extendImplicit T).term_ofInt n
  have hparse : Term.parse (toString n) = .ok (.ofInt n) := by
    rw [Term.parse_toString, if_pos (by omega)]
  have hfunction : s.function [T] (.ofInt n) =
      .ok (.ofBody 0 [(b.settings.implicitParameter, T)] e) := by
    rw [Scope.function, Scope.bare, he]
    · rfl
    · unfold Term.ofInt
      split <;> nofun
  refine ⟨.ofBody 0 [(b.settings.implicitParameter, T)] e, ?_, ?_, ?_⟩
  · rw [compile, hparse]
    exact hfunction
  · rw [← Value.typeOf_ofInt, ← htype]
    rfl
  · intro v
    refine ⟨.ofInt n, ?_, Value.isInt_ofInt hlow hhigh⟩
    rw [call, ofBody, invoke, heval]
    rfl

theorem compile_toString_of_large {n : Int} (h : ¬ (-2 ^ 63 < n ∧ n < 2 ^ 63)) (T : Ty)
    (b : Bindings) :
    compile (toString n) [T] b = .error (.malformed (.invalidNumber (toString n.natAbs))) := by
  rw [compile, Term.parse_toString, if_neg (by omega)]

/-- **The decimal text of an integer yields the integer**, in the type of its magnitude; where the
magnitude does not fit in 64 bits, the digits are refused. -/
theorem compile_toString (n : Int) (T : Ty) (b : Bindings) :
    (-2 ^ 63 < n ∧ n < 2 ^ 63 →
      ReadsInt (toString n) T b (if -2 ^ 31 < n ∧ n < 2 ^ 31 then .int else .long) n) ∧
    (¬ (-2 ^ 63 < n ∧ n < 2 ^ 63) →
      compile (toString n) [T] b = .error (.malformed (.invalidNumber (toString n.natAbs)))) :=
  ⟨fun h => readsInt_toString h.1 h.2 T b, fun h => compile_toString_of_large h T b⟩

/-- The integer of the largest magnitude below zero, and the one before it. -/
theorem compile_toString_least :
    ReadsInt (toString (-2 ^ 63 + 1 : Int)) .timestamp default .long (-2 ^ 63 + 1) ∧
      compile (toString (-2 ^ 63 : Int)) [.timestamp] default =
        .error (.malformed (.invalidNumber (toString (-2 ^ 63 : Int).natAbs))) := by
  have hread := (compile_toString (-2 ^ 63 + 1) .timestamp default).1 (by omega)
  rw [if_neg (by omega)] at hread
  exact ⟨hread, (compile_toString (-2 ^ 63) .timestamp default).2 (by omega)⟩

/-- **The least integers of 32 and of 64 bits** are not what their width would allow: the type of
the first is not `int`, and the second is refused, since no width holds its magnitude. -/
theorem not_readsInt_least :
    ¬ ReadsInt (toString (-2 ^ 31 : Int)) .int default .int (-2 ^ 31) ∧
      ∀ t, ¬ ReadsInt (toString (-2 ^ 63 : Int)) .int default t (-2 ^ 63) := by
  constructor
  · rintro ⟨l, hl, htype, -⟩
    have hread := @readsInt_toString (-2 ^ 31) (by omega) (by omega) .int default
    rw [if_neg (by omega)] at hread
    obtain ⟨l', hl', htype', -⟩ := hread
    rw [hl] at hl'
    cases hl'
    rw [htype] at htype'
    cases htype'
  · rintro t ⟨l, hl, -⟩
    rw [compile_toString_of_large (by omega)] at hl
    cases hl

end Lambda

end LambdaQuery
