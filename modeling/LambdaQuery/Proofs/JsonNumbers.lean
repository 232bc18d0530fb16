/-
**Numbers of JSON read back from their text.**  A number ends where its grammar ends: before a
comma, a bracket or a brace, whatever comes after them, the reader takes the same digits as from the
number alone.  So a number inside a document is read as it is by itself.

Integers of 64 bits are written with all their digits, and the reader takes digits as they are as
long as their value fits in 64 bits.

Main definitions:
* `Json.EndsNumber` — the characters that cannot go on with a number;
* `Json.Number.Returns` — the number is read back from its own text.

Main results:
* `Json.numberText_append` — **a number is the same before what does not go on with it**;
* `Json.Number.returns_int` — **integers of 64 bits are read back**, signed or not.
-/

import LambdaQuery.Json.Basic
import LambdaQuery.Proofs.TokenSpelling

namespace LambdaQuery.Json

open Text

/-! ### Where a number ends -/

/-- The character cannot go on with a number. -/
def EndsNumber (c : Char) : Prop := isDigit c = false ∧ c ≠ '.' ∧ c ≠ 'e' ∧ c ≠ 'E'

instance (c : Char) : Decidable (EndsNumber c) := inferInstanceAs (Decidable (_ ∧ _))

theorem endsNumber_head {c : Char} (hc : EndsNumber c) (rest : List Char) :
    ∀ d ∈ (c :: rest).head?, EndsNumber d := by
  intro d hd
  cases hd
  exact hc

variable {cs rest left : List Char}

/-- The digits at the start of a text are the same before what does not go on with a number. -/
theorem digits_append (hr : ∀ c ∈ rest.head?, EndsNumber c) :
    (cs ++ rest).takeWhile isDigit = cs.takeWhile isDigit ∧
      (cs ++ rest).dropWhile isDigit = cs.dropWhile isDigit ++ rest := by
  induction cs with
  | nil =>
      cases rest with
      | nil => exact ⟨rfl, rfl⟩
      | cons c rest => simp [(hr c rfl).1]
  | cons c cs ih =>
      cases hc : isDigit c with
      | false => simp [hc]
      | true => simp [hc, ih]

/-- So are digits that must be there. -/
theorem someDigits_append {α : Type} (hr : ∀ c ∈ rest.head?, EndsNumber c)
    {f : List Char → α} {a : α}
    (h : (if (cs.takeWhile isDigit).isEmpty then none
      else some (f (cs.takeWhile isDigit), cs.dropWhile isDigit)) = some (a, left)) :
    (if ((cs ++ rest).takeWhile isDigit).isEmpty then none
      else some (f ((cs ++ rest).takeWhile isDigit), (cs ++ rest).dropWhile isDigit)) =
      some (a, left ++ rest) := by
  obtain ⟨htake, hdrop⟩ := @digits_append cs rest hr
  rw [htake, hdrop]
  split at h
  · cases h
  · rename_i hd
    cases h
    rw [if_neg hd]

theorem wholeDigits_append (hr : ∀ c ∈ rest.head?, EndsNumber c) {whole : List Char}
    (h : wholeDigits cs = some (whole, left)) :
    wholeDigits (cs ++ rest) = some (whole, left ++ rest) := by
  cases cs with
  | nil => cases h
  | cons c cs =>
      by_cases hc : c = '0'
      · subst hc
        cases cs with
        | nil =>
            cases h
            cases rest with
            | nil => rfl
            | cons d rest => simp [wholeDigits, (hr d rfl).1]
        | cons d cs =>
            simp only [wholeDigits] at h
            split at h
            · cases h
            · rename_i hd
              cases h
              simp [wholeDigits, hd]
      · have hzero : ∀ ds ds', c :: ds = '0' :: ds' → False := by
          rintro ds ds' ⟨⟩
          exact hc rfl
        rw [wholeDigits] at h
        · rw [List.cons_append, wholeDigits]
          · exact someDigits_append (f := id) hr h
          · exact hzero _
        · exact hzero _

theorem fractionDigits_append (hr : ∀ c ∈ rest.head?, EndsNumber c)
    {fraction : Option (List Char)} (h : fractionDigits cs = some (fraction, left)) :
    fractionDigits (cs ++ rest) = some (fraction, left ++ rest) := by
  unfold fractionDigits at h
  split at h
  · exact someDigits_append (f := some) hr h
  · rename_i hpoint
    cases h
    rw [fractionDigits]
    rintro ds hds
    cases cs with
    | nil =>
        cases hds
        exact (hr '.' rfl).2.1 rfl
    | cons d cs =>
        cases hds
        exact hpoint cs rfl

/-- The digits of an exponent without a sign stand right behind its letter. -/
theorem exponentDigits_unsigned {e c : Char} (he : e = 'e' ∨ e = 'E') (hp : c ≠ '+')
    (hm : c ≠ '-') (cs : List Char) :
    exponentDigits (e :: c :: cs) =
      if ((c :: cs).takeWhile isDigit).isEmpty then none
      else some (some (false, (c :: cs).takeWhile isDigit), (c :: cs).dropWhile isDigit) := by
  simp only [exponentDigits, if_pos he]
  split
  · rename_i heq
    cases heq
    exact absurd rfl hp
  · rename_i heq
    cases heq
    exact absurd rfl hm
  · rfl

theorem exponentDigits_append (hr : ∀ c ∈ rest.head?, EndsNumber c)
    {exponent : Option (Bool × List Char)} (h : exponentDigits cs = some (exponent, left)) :
    exponentDigits (cs ++ rest) = some (exponent, left ++ rest) := by
  cases cs with
  | nil =>
      cases h
      cases rest with
      | nil => rfl
      | cons c rest =>
          obtain ⟨-, -, he, hE⟩ := hr c rfl
          simp [exponentDigits, he, hE]
  | cons e cs =>
      by_cases he : e = 'e' ∨ e = 'E'
      · cases cs with
        | nil =>
            simp only [exponentDigits, if_pos he] at h
            cases h
        | cons c cs =>
            by_cases hp : c = '+'
            · subst hp
              simp only [exponentDigits, if_pos he, List.cons_append] at h ⊢
              exact someDigits_append (f := fun ds => some (false, ds)) hr h
            by_cases hm : c = '-'
            · subst hm
              simp only [exponentDigits, if_pos he, List.cons_append] at h ⊢
              exact someDigits_append (f := fun ds => some (true, ds)) hr h
            rw [exponentDigits_unsigned he hp hm] at h
            rw [List.cons_append, List.cons_append, exponentDigits_unsigned he hp hm]
            exact someDigits_append (f := fun ds => some (false, ds)) hr h
      · simp only [exponentDigits, if_neg he] at h
        cases h
        simp [exponentDigits, he]

/-- A number behind its sign. -/
def behindSign (negative : Bool) (cs : List Char) : Option (NumberText × List Char) := do
  let (whole, cs) ← wholeDigits cs
  let (fraction, cs) ← fractionDigits cs
  let (exponent, cs) ← exponentDigits cs
  return ({ negative, whole, fraction, exponent }, cs)

theorem numberText_minus (cs : List Char) : numberText ('-' :: cs) = behindSign true cs := rfl

theorem numberText_unsigned (h : ∀ ds, cs ≠ '-' :: ds) : numberText cs = behindSign false cs := by
  unfold numberText
  split
  rename_i hsign
  split at hsign
  · exact absurd rfl (h _)
  · cases hsign
    rfl

theorem behindSign_eq_some_iff {negative : Bool} {t : NumberText} :
    behindSign negative cs = some (t, left) ↔
      t.negative = negative ∧ ∃ fraction exponent, wholeDigits cs = some (t.whole, fraction) ∧
        fractionDigits fraction = some (t.fraction, exponent) ∧
        exponentDigits exponent = some (t.exponent, left) := by
  obtain ⟨n, w, f, e⟩ := t
  simp only [behindSign, Option.bind_eq_bind, Option.bind_eq_some_iff, Option.pure_def,
    Option.some.injEq, Prod.mk.injEq, NumberText.mk.injEq, Prod.exists]
  constructor
  · rintro ⟨w', cs', hw, f', cs'', hf, e', left', he, ⟨rfl, rfl, rfl, rfl⟩, rfl⟩
    exact ⟨rfl, cs', cs'', hw, hf, he⟩
  · rintro ⟨rfl, cs', cs'', hw, hf, he⟩
    exact ⟨w, cs', hw, f, cs'', hf, e, left, he, ⟨rfl, rfl, rfl, rfl⟩, rfl⟩

theorem behindSign_append (hr : ∀ c ∈ rest.head?, EndsNumber c) {negative : Bool}
    {t : NumberText} (h : behindSign negative cs = some (t, left)) :
    behindSign negative (cs ++ rest) = some (t, left ++ rest) := by
  obtain ⟨hn, fraction, exponent, hw, hf, he⟩ := behindSign_eq_some_iff.mp h
  exact behindSign_eq_some_iff.mpr ⟨hn, fraction ++ rest, exponent ++ rest,
    wholeDigits_append hr hw, fractionDigits_append hr hf, exponentDigits_append hr he⟩

/-- What stands behind the sign starts with a digit. -/
theorem behindSign_head {negative : Bool} {t : NumberText}
    (h : behindSign negative cs = some (t, left)) :
    ∃ c ds, cs = c :: ds ∧ isDigit c = true := by
  obtain ⟨-, fraction, exponent, hw, -⟩ := behindSign_eq_some_iff.mp h
  unfold wholeDigits at hw
  split at hw
  · exact ⟨_, _, rfl, by decide⟩
  · cases cs with
    | nil => cases hw
    | cons c cs =>
        refine ⟨c, cs, rfl, ?_⟩
        by_contra hc
        simp [hc] at hw

/-- A number starts with a digit or a sign. -/
theorem numberText_head {t : NumberText} (h : numberText cs = some (t, left)) :
    ∃ c ds, cs = c :: ds ∧ (c = '-' ∨ isDigit c = true) := by
  by_cases hs : ∃ ds, cs = '-' :: ds
  · obtain ⟨ds, rfl⟩ := hs
    exact ⟨'-', ds, rfl, .inl rfl⟩
  · rw [numberText_unsigned (not_exists.mp hs)] at h
    obtain ⟨c, ds, rfl, hc⟩ := behindSign_head h
    exact ⟨c, ds, rfl, .inr hc⟩

/-- A sign or a digit, one by one. -/
theorem signOrDigit_cases {c : Char} (hc : c = '-' ∨ isDigit c = true) :
    c ∈ ['-', '0', '1', '2', '3', '4', '5', '6', '7', '8', '9'] := by
  rcases hc with rfl | hc
  · exact List.mem_cons_self ..
  · obtain ⟨hlow, hhigh⟩ := toNat_of_isDigit hc
    obtain ⟨n, hn, rfl⟩ : ∃ n, n = c.toNat ∧ c = Char.ofNat n := ⟨c.toNat, rfl, by simp⟩
    rw [← hn] at hlow hhigh
    interval_cases n <;> decide

/-- **A number is the same before what does not go on with it.** -/
theorem numberText_append (hr : ∀ c ∈ rest.head?, EndsNumber c) {t : NumberText}
    (h : numberText cs = some (t, left)) : numberText (cs ++ rest) = some (t, left ++ rest) := by
  by_cases hs : ∃ ds, cs = '-' :: ds
  · obtain ⟨ds, rfl⟩ := hs
    rw [numberText_minus] at h
    rw [List.cons_append, numberText_minus]
    exact behindSign_append hr h
  · have hs : ∀ ds, cs ≠ '-' :: ds := not_exists.mp hs
    rw [numberText_unsigned hs] at h
    obtain ⟨c, ds, rfl, hc⟩ := behindSign_head h
    rw [List.cons_append, numberText_unsigned]
    · exact behindSign_append hr h
    · rintro ds' ⟨⟩
      exact hs ds rfl

/-! ### Integers -/

/-- Digits start with a zero for zero alone. -/
theorem head_toDigits {n : Nat} (hn : n ≠ 0) : ∀ ds, Nat.toDigits 10 n ≠ '0' :: ds := by
  induction n using Nat.strong_induction_on with
  | _ n ih =>
      intro ds h
      by_cases hlt : n < 10
      · rw [Nat.toDigits_of_lt_base hlt] at h
        interval_cases n <;> simp_all [Nat.digitChar]
      · have hlt : 10 ≤ n := Nat.le_of_not_lt hlt
        rw [Nat.toDigits_of_base_le (by decide) hlt] at h
        cases hd : Nat.toDigits 10 (n / 10) with
        | nil => exact Nat.toDigits_ne_nil hd
        | cons c cs =>
            rw [hd] at h
            cases h
            exact ih (n / 10) (by omega) (by omega) cs hd

theorem wholeDigits_toDigits (n : Nat) :
    wholeDigits (Nat.toDigits 10 n) = some (Nat.toDigits 10 n, []) := by
  by_cases hn : n = 0
  · subst hn
    rfl
  · have hall : ∀ c ∈ Nat.toDigits 10 n, isDigit c = true := (Digits.toDigits n).digits
    have htake : (Nat.toDigits 10 n).takeWhile isDigit = Nat.toDigits 10 n :=
      List.takeWhile_eq_self_iff.mpr hall
    have hdrop : (Nat.toDigits 10 n).dropWhile isDigit = [] :=
      List.dropWhile_eq_nil_iff.mpr hall
    rw [wholeDigits]
    · simp only [htake, hdrop]
      rw [if_neg]
      simp
    · exact head_toDigits hn

/-- Digits are taken as long as their value fits. -/
theorem accumulate_eq (ds : List Char) {s : Nat}
    (h : ds.foldl (fun n c => 10 * n + NumberText.digitValue c) s ≤ NumberText.wordMax) :
    NumberText.accumulate s ds =
      (ds.foldl (fun n c => 10 * n + NumberText.digitValue c) s, []) := by
  have grows : ∀ (ds : List Char) (s : Nat),
      s ≤ ds.foldl (fun n c => 10 * n + NumberText.digitValue c) s := by
    intro ds
    induction ds with
    | nil => exact fun s => le_refl s
    | cons d ds ih =>
        intro s
        exact le_trans (by omega) (ih (10 * s + NumberText.digitValue d))
  induction ds generalizing s with
  | nil => rfl
  | cons d ds ih =>
      rw [List.foldl_cons] at h ⊢
      rw [NumberText.accumulate, if_neg (Nat.not_lt.mpr (le_trans (grows ds _) h))]
      exact ih h

theorem accumulate_toDigits {n : Nat} (hn : n ≤ NumberText.wordMax) :
    NumberText.accumulate 0 (Nat.toDigits 10 n) = (n, []) := by
  have hvalue : (Nat.toDigits 10 n).foldl (fun n c => 10 * n + NumberText.digitValue c) 0 = n :=
    (Digits.toDigits n).value
  rw [accumulate_eq, hvalue]
  rw [hvalue]
  exact hn

/-- The number is read back from its own text. -/
def Number.Returns (n : Number) : Prop :=
  ∃ t, numberText (writeNumber n).toList = some (t, []) ∧ t.value? = some n

/-- **The integers of 64 bits are read back**, signed or not. -/
theorem Number.returns_int {n : Int} (hlow : -(2 ^ 63 : Int) ≤ n) (hhigh : n < 2 ^ 64) :
    (Number.int n).Returns := by
  have hdigits : ∀ (m : Nat) (negative : Bool),
      behindSign negative (Nat.toDigits 10 m) =
        some (⟨negative, Nat.toDigits 10 m, none, none⟩, []) := fun m negative =>
    behindSign_eq_some_iff.mpr ⟨rfl, [], [], wholeDigits_toDigits m, rfl, rfl⟩
  have hmax : NumberText.wordMax = 2 ^ 64 - 1 := rfl
  cases n with
  | ofNat m =>
      have htext : (writeNumber (.int (Int.ofNat m))).toList = Nat.toDigits 10 m :=
        Nat.toList_repr
      have hm : m ≤ NumberText.wordMax := by
        rw [hmax]
        simp only [Int.ofNat_eq_natCast] at hhigh
        omega
      refine ⟨⟨false, Nat.toDigits 10 m, none, none⟩, ?_, ?_⟩
      · rw [htext, numberText_unsigned, hdigits]
        intro ds hds
        have hminus : isDigit '-' = true :=
          (Digits.toDigits m).digits '-' (by rw [hds]; exact List.mem_cons_self ..)
        cases hminus
      · simp [NumberText.value?, accumulate_toDigits hm]
  | negSucc m =>
      have htext : (writeNumber (.int (Int.negSucc m))).toList =
          '-' :: Nat.toDigits 10 (m + 1) := by
        have hrepr : writeNumber (.int (Int.negSucc m)) = "-" ++ (m + 1).repr := rfl
        rw [hrepr, String.toList_append, Nat.toList_repr]
        rfl
      have hbound : m + 1 ≤ 2 ^ 63 := by omega
      have hm : m + 1 ≤ NumberText.wordMax := by
        rw [hmax]
        omega
      refine ⟨⟨true, Nat.toDigits 10 (m + 1), none, none⟩, ?_, ?_⟩
      · rw [htext, numberText_minus, hdigits]
      · have hfits : ¬ (m + 1 = 0 ∨ m + 1 > Nat.pow 2 63) := by
          rintro (h | h)
          · cases h
          · exact absurd hbound (Nat.not_le.mpr h)
        simp only [NumberText.value?, accumulate_toDigits hm, Bool.not_true, Bool.false_eq_true,
          if_false, if_neg hfits]
        rfl

end LambdaQuery.Json
