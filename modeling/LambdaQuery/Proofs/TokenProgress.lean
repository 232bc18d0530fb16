/-
**Each token takes something from the text.**  A token is cut off from the start of what is left of
a text, with one character or more.  So a parser that passes tokens moves the lexer on, never past
the end.

Main definitions:
* `Tokens.Behind` — some tokens are what is left of others when one or more have been passed;
* `Tokens.prefixed` — tokens put before others;
* `Tokens.Ahead` — the characters that are not yet cut into tokens while the parser looks at the
  first of some tokens;
* `Tokens.Passes` — from some tokens to others the lexer goes on, or comes to the end.

Main results:
* `Token.next?_suffix` — **a token is cut off from the start of its text**;
* `Tokens.Behind.passes` — **where tokens have been passed the lexer has gone on**;
* `Tokens.length_ofChars_le` — there are no more tokens than characters.
-/

import LambdaQuery.Proofs.TokenSpelling

namespace LambdaQuery

open Text

/-! ### Characters

Every scan leaves an end of the text that it was given. -/

section Scanning

variable {cs rest : List Char}

theorem scanString_suffix {quote : Char} {text : List Char}
    (h : scanString quote cs = .ok (text, rest)) : rest <:+ cs := by
  fun_induction scanString quote cs generalizing text rest with
  | case2 rest' =>
      cases h
      exact List.suffix_cons ..
  | case4 a b c d after ch hcode hq ih =>
      obtain ⟨_, h, -⟩ := prepend_eq_ok h
      exact (ih h).trans (List.suffix_append ['\\', 'u', a, b, c, d] after)
  | case7 e rest' hu ch he hq ih =>
      obtain ⟨_, h, -⟩ := prepend_eq_ok h
      exact (ih h).trans (List.suffix_append ['\\', e] rest')
  | case9 c rest' hc hb ih =>
      obtain ⟨_, h, -⟩ := prepend_eq_ok h
      exact (ih h).trans (List.suffix_cons ..)
  | _ => cases h

theorem scanFraction_suffix {ds : List Char} (h : scanFraction cs = some (ds, rest)) :
    rest <:+ cs := by
  unfold scanFraction at h
  split at h
  · split at h
    · cases h
      exact (List.dropWhile_suffix _).trans (List.suffix_cons ..)
    · cases h
  · cases h

theorem scanExponent_suffix {e : List Char × Int} (h : scanExponent cs = .ok (some (e, rest))) :
    rest <:+ cs := by
  unfold scanExponent at h
  split at h
  · split at h
    · simp only at h
      split at h
      · cases h
      · cases h
        exact ((List.dropWhile_suffix _).trans (List.drop_suffix ..)).trans (List.suffix_cons ..)
    · cases h
  · cases h

theorem scanLiteral_suffix {l : Literal} (h : scanLiteral cs = .ok (l, rest)) :
    rest <:+ cs.dropWhile isDigit := by
  have hmantissa : (scanMantissa cs).2 <:+ cs.dropWhile isDigit := by
    unfold scanMantissa
    simp only
    split
    · next hf => exact scanFraction_suffix hf
    · exact List.suffix_refl _
  unfold scanLiteral at h
  simp only at h
  split at h
  · next he =>
    cases h
    exact (scanExponent_suffix he).trans hmantissa
  · cases h
    exact hmantissa
  · cases h

theorem Literal.token_suffix (l : Literal) (rest : List Char) : (l.token rest).2 <:+ rest := by
  unfold Literal.token
  split
  · repeat' split
    · exact List.suffix_cons ..
    · exact List.suffix_cons ..
    · exact List.suffix_refl _
  · exact List.suffix_refl _

theorem scanNumber_suffix {t : Token} (h : scanNumber cs = .ok (t, rest)) :
    rest <:+ cs.dropWhile isDigit := by
  unfold scanNumber at h
  split at h
  · next l after hl =>
    have htoken := l.token_suffix after
    split at h
    · next ht =>
      rw [ht] at htoken
      cases h
      exact htoken.trans (scanLiteral_suffix hl)
    · cases h
  · cases h

theorem scanSign?_suffix {c : Char} {s : Sign} (h : scanSign? (c :: cs) = some (s, rest)) :
    rest <:+ cs := by
  cases cs with
  | nil =>
      obtain ⟨_, -, heq⟩ := Option.map_eq_some_iff.mp h
      cases heq
      exact List.suffix_refl _
  | cons d cs =>
      simp only [scanSign?] at h
      split at h
      · cases h
        exact List.suffix_cons ..
      · obtain ⟨_, -, heq⟩ := Option.map_eq_some_iff.mp h
        cases heq
        exact List.suffix_refl _

theorem scanPlaceholder_suffix {t : Token} (h : scanPlaceholder cs = .ok (t, rest)) :
    rest <:+ cs := by
  unfold scanPlaceholder at h
  split at h
  · cases h
  · simp only at h
    repeat' split at h
    · cases h
      exact List.dropWhile_suffix _
    · cases h
    · cases h
      exact List.dropWhile_suffix _
    · cases h

namespace Token

theorem scan_suffix {c : Char} {t : Token} (h : scan c cs = .ok (t, rest)) : rest <:+ cs := by
  unfold scan at h
  split at h
  · split at h
    · next hs =>
      cases h
      exact scanString_suffix hs
    · cases h
  split at h
  · next hd =>
    have hnumber := scanNumber_suffix h
    rw [List.dropWhile_cons_of_pos hd] at hnumber
    exact hnumber.trans (List.dropWhile_suffix _)
  split at h
  · exact scanPlaceholder_suffix h
  split at h
  · next hs =>
    cases h
    exact scanSign?_suffix hs
  · split at h
    · cases h
      exact List.dropWhile_suffix _
    · cases h

/-- **A token is cut off from the start of its text**, with one character or more. -/
theorem next?_suffix {t : Token} (h : next? cs = .ok (some (t, rest))) :
    ∃ taken, taken ≠ [] ∧ cs = taken ++ rest := by
  have hsuffix : rest <:+ cs := by
    unfold next? at h
    split at h
    · cases h
    · next c after hc =>
      have hblanks : c :: after <:+ cs := hc ▸ List.dropWhile_suffix _
      split at h
      · next hs =>
        cases h
        exact ((scan_suffix hs).trans (List.suffix_cons ..)).trans hblanks
      · cases h
  obtain ⟨taken, rfl⟩ := hsuffix
  refine ⟨taken, ?_, rfl⟩
  rintro rfl
  exact Nat.lt_irrefl _ (next?_length_lt h)

end Token

end Scanning

namespace Tokens

/-! ### What is left -/

/-- The first tokens are what is left of the second ones when one or more have been passed. -/
inductive Behind : Tokens → Tokens → Prop
  | next (t : Token) (rest : Tokens) : Behind rest (more t rest)
  | later (t : Token) {us ts : Tokens} (h : Behind us ts) : Behind us (more t ts)

namespace Behind

variable {ts us vs : Tokens}

theorem trans (h : Behind vs us) (h' : Behind us ts) : Behind vs ts := by
  induction h' with
  | next t rest => exact .later t h
  | later t _ ih => exact .later t (ih h)

theorem length_lt (h : Behind us ts) : us.length < ts.length := by
  induction h with
  | next t rest => exact Nat.lt_succ_self _
  | later t _ ih => exact Nat.lt_succ_of_lt ih

end Behind

/-- Tokens put before others. -/
def prefixed (front : List Token) (rest : Tokens) : Tokens := front.foldr more rest

@[simp] theorem prefixed_cons (t : Token) (front : List Token) (rest : Tokens) :
    prefixed (t :: front) rest = more t (prefixed front rest) := rfl

@[simp] theorem prefixed_nil (rest : Tokens) : prefixed [] rest = rest := rfl

theorem prefixed_append (front between : List Token) (rest : Tokens) :
    prefixed (front ++ between) rest = prefixed front (prefixed between rest) :=
  List.foldr_append

/-- Tokens end as those do that they are put before. -/
theorem error?_prefixed (front : List Token) (rest : Tokens) :
    (prefixed front rest).error? = rest.error? := by
  induction front with
  | nil => rfl
  | cons t front ih => exact ih

theorem behind_prefixed (t : Token) (front : List Token) (rest : Tokens) :
    Behind rest (prefixed (t :: front) rest) := by
  induction front generalizing t with
  | nil => exact .next t rest
  | cons u front ih => exact .later t (ih u)

/-! ### Where the lexer stands -/

/-- What is not yet cut into tokens while the parser looks at the first of some tokens: the
characters behind that token, and none at the end. -/
inductive Ahead : Tokens → List Char → Prop
  | atEnd : Ahead done []
  | at (t : Token) (cs : List Char) : Ahead (more t (ofChars cs)) cs

/-- From the first tokens to the second ones the lexer goes on by at least one character, never past
the end, or the end is reached. -/
def Passes (tokens rest : Tokens) : Prop :=
  ∀ cs, Ahead tokens cs →
    ∃ passed cs', cs = passed ++ cs' ∧ Ahead rest cs' ∧ (passed ≠ [] ∨ rest = done)

/-- What the lexer does for the tokens of a text: it is at the end, fails or cuts one off. -/
theorem ofChars_cases (cs : List Char) :
    ofChars cs = done ∨ (∃ e, ofChars cs = broken e) ∨
      ∃ t taken rest, taken ≠ [] ∧ cs = taken ++ rest ∧ ofChars cs = more t (ofChars rest) := by
  cases h : Token.next? cs with
  | error e => exact .inr (.inl ⟨e, ofChars_of_next?_error h⟩)
  | ok found =>
      cases found with
      | none => exact .inl (ofChars_of_next?_none h)
      | some p =>
          obtain ⟨t, rest⟩ := p
          obtain ⟨taken, hne, hcs⟩ := Token.next?_suffix h
          exact .inr (.inr ⟨t, taken, rest, hne, hcs, ofChars_of_next?_some h⟩)

/-- Where a text has a first token, or none at all, the lexer stands somewhere in it. -/
theorem exists_ahead {cs : List Char} (h : (ofChars cs).ready = .ok (ofChars cs)) :
    ∃ passed cs', cs = passed ++ cs' ∧ Ahead (ofChars cs) cs' ∧
      (passed ≠ [] ∨ ofChars cs = done) := by
  rcases ofChars_cases cs with hdone | ⟨e, hbroken⟩ | ⟨t, taken, cs', hne, rfl, hmore⟩
  · rw [hdone]
    exact ⟨cs, [], (List.append_nil cs).symm, .atEnd, .inr rfl⟩
  · rw [hbroken] at h
    cases h
  · rw [hmore]
    exact ⟨taken, cs', rfl, .at t cs', .inl hne⟩

/-- **Where tokens have been passed the lexer has gone on**, by induction on how many. -/
theorem Behind.passes {tokens rest : Tokens} (h : Behind rest tokens)
    (hready : rest.ready = .ok rest) : Passes tokens rest := by
  induction h with
  | next t rest =>
      rintro cs ⟨⟩
      exact exists_ahead hready
  | @later t us ts hbehind ih =>
      rintro cs ⟨⟩
      rcases ofChars_cases cs with hdone | ⟨e, hbroken⟩ | ⟨u, taken, cs', hne, rfl, hmore⟩
      · rw [hdone] at hbehind
        cases hbehind
      · rw [hbroken] at hbehind
        cases hbehind
      · obtain ⟨passed, cs'', rfl, hahead, -⟩ := ih hready cs' (hmore ▸ .at u cs')
        exact ⟨taken ++ passed, cs'', by simp, hahead, .inl (by simp [hne])⟩

/-- There are no more tokens than characters. -/
theorem length_ofChars_le (cs : List Char) : (ofChars cs).length ≤ cs.length := by
  fun_induction ofChars cs with
  | case1 cs h => exact Nat.zero_le _
  | case2 cs t rest h ih =>
      exact Nat.succ_le_of_lt (Nat.lt_of_le_of_lt ih (Token.next?_length_lt h))
  | case3 cs e h => exact Nat.zero_le _

end Tokens

end LambdaQuery
