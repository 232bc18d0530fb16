/-
**What may follow a number.**  A number that is glued to a word is refused, so that a text such as
`12abc` is not read as two tokens.  The scan looks behind the number for this, but not from every
place where it can end: behind the suffix of a long, and behind the digits of a placeholder, it
stops without a look.  All other numbers are delimited.

Main definitions:
* `Token.isNumber` — the tokens of numbers, placeholders by position among them;
* `Delimited` — what follows a token goes on no name;
* `Token.Unchecked` — the spellings of numbers that are cut off whatever follows them;
* `Token.Glued` — one of these before part of a name.

Main results:
* `Literal.token_eq_ok` — the token of a number is a long cut off with its suffix, or what follows
  was looked at;
* `Token.number_of_scan`, `Token.Unchecked.scan` — a number that is scanned is an unchecked one or
  delimited, and an unchecked one is scanned **whatever follows**;
* `Token.glued_iff` — a number is read before part of a name in exactly these spellings;
* `Token.delimited_iff_not_glued` — **where numbers are delimited, and what is read elsewhere**.
-/

import LambdaQuery.Proofs.TokenTails
import LambdaQuery.Term.Parser

namespace LambdaQuery

open Text

/-! ### Numbers and what follows them -/

/-- Is the token one of a number, or of a placeholder by its position? -/
def Token.isNumber : Token → Bool
  | integer _ | long _ | float _ | positional _ => true
  | _ => false

/-- What follows is empty or starts with a character that is no part of a name. -/
def Delimited (rest : List Char) : Prop := ∀ c ∈ rest.head?, isNamePart c = false

/-- The spellings of numbers that are cut off from a text whatever follows: digits with the suffix
of a long, and digits behind `@` that come to their end. -/
inductive Token.Unchecked : Token → List Char → List Char → Prop
  | long {n : Nat} {written rest : List Char} {suffix : Char} (h : Digits n written)
      (hn : n < 2 ^ 63) (hs : suffix = 'L' ∨ suffix = 'l') :
      Unchecked (.long n) (written ++ suffix :: rest) rest
  | positional {n : Nat} {written rest : List Char} (h : Digits n written) (hn : n < 2 ^ 64)
      (hr : ∀ c ∈ rest.head?, isDigit c = false) :
      Unchecked (.positional n) ('@' :: (written ++ rest)) rest

/-- Behind blanks, a text starts with an unchecked number that part of a name follows. -/
def Token.Glued (t : Token) (cs rest : List Char) : Prop :=
  ¬ Delimited rest ∧ ∃ blanks text, cs = blanks ++ text ∧ (∀ c ∈ blanks, isBlank c = true) ∧
    t.Unchecked text rest

theorem delimited_iff_takeWhile {rest : List Char} :
    Delimited rest ↔ (rest.takeWhile isNamePart).isEmpty = true := by
  cases rest with
  | nil => simp [Delimited]
  | cons c rest => cases hc : isNamePart c <;> simp [Delimited, hc]

/-- What follows a run of characters does not start with one of its kind. -/
theorem head?_dropWhile_eq_false {p : Char → Bool} {cs : List Char} :
    ∀ c ∈ (cs.dropWhile p).head?, p c = false := by
  intro c hc
  have hfirst := List.head?_dropWhile_not p cs
  rw [Option.mem_def.mp hc] at hfirst
  exact hfirst

/-- The digits that a text starts with write their number. -/
theorem Digits.of_takeWhile {c : Char} (h : isDigit c = true) (cs : List Char) :
    Digits (digitsValue ((c :: cs).takeWhile isDigit)) ((c :: cs).takeWhile isDigit) where
  nonempty := by simp [h]
  digits := fun _ hd => List.mem_takeWhile_imp hd
  value := rfl

/-! ### Numbers -/

/-- A whole number without a suffix and a double are taken only after a look at what follows. -/
theorem Literal.finish_eq_ok {l : Literal} {float : Bool} {rest : List Char} {t : Token}
    (h : l.finish float rest = .ok t) :
    Delimited rest ∧ ((∃ n, t = .integer n) ∨ ∃ x, t = .float x) := by
  simp only [Literal.finish] at h
  split at h
  · rename_i hglued
    refine ⟨delimited_iff_takeWhile.mpr hglued, ?_⟩
    split at h
    · cases h
      exact .inr ⟨_, rfl⟩
    · unfold Literal.toWhole at h
      split at h
      · cases h
        exact .inl ⟨_, rfl⟩
      · cases h
  · cases h

/-- The token of a number is a long, cut off with its suffix, or what follows was looked at. -/
theorem Literal.token_eq_ok {l : Literal} {rest after : List Char} {t : Token}
    (h : l.token rest = (.ok t, after)) :
    (∃ suffix, (suffix = 'L' ∨ suffix = 'l') ∧ rest = suffix :: after ∧ l.isFloat = false ∧
        t = .long (digitsValue l.digits) ∧ digitsValue l.digits < 2 ^ 63) ∨
      (Delimited after ∧ ((∃ n, t = .integer n) ∨ ∃ x, t = .float x)) := by
  unfold Literal.token at h
  split at h
  · rename_i c tail
    split at h
    · rename_i hc
      obtain ⟨hlong, rfl⟩ := Prod.mk.inj h
      unfold Literal.toWhole at hlong
      split at hlong
      · rename_i hn
        cases hlong
        exact .inl ⟨c, hc.1, rfl, hc.2, rfl, hn⟩
      · cases hlong
    split at h
    · obtain ⟨hfinish, rfl⟩ := Prod.mk.inj h
      exact .inr (finish_eq_ok hfinish)
    · obtain ⟨hfinish, rfl⟩ := Prod.mk.inj h
      exact .inr (finish_eq_ok hfinish)
  · obtain ⟨hfinish, rfl⟩ := Prod.mk.inj h
    exact .inr (finish_eq_ok hfinish)

/-- A number without a fraction and an exponent consists of the digits that its text starts with. -/
theorem scanLiteral_whole {cs rest : List Char} {l : Literal} (h : scanLiteral cs = .ok (l, rest))
    (hl : l.isFloat = false) : l.digits = cs.takeWhile isDigit ∧ rest = cs.dropWhile isDigit := by
  unfold scanLiteral at h
  simp only at h
  split at h
  · cases h
    simp [Literal.isFloat] at hl
  · cases h
    unfold scanMantissa at hl ⊢
    simp only at hl ⊢
    split at hl
    · simp [Literal.isFloat] at hl
    · exact ⟨rfl, rfl⟩
  · cases h

/-- A number that is scanned is an unchecked long, or what follows was looked at. -/
theorem scanNumber_eq_ok {c : Char} {cs rest : List Char} {t : Token} (hc : isDigit c = true)
    (h : scanNumber (c :: cs) = .ok (t, rest)) :
    t.Unchecked (c :: cs) rest ∨
      (Delimited rest ∧ ((∃ n, t = .integer n) ∨ ∃ x, t = .float x)) := by
  unfold scanNumber at h
  split at h
  · rename_i l after hl
    split at h
    · rename_i ht
      cases h
      rcases Literal.token_eq_ok ht with ⟨suffix, hs, rfl, hwhole, rfl, hn⟩ | hlooked
      · obtain ⟨hdigits, hafter⟩ := scanLiteral_whole hl hwhole
        have htext : c :: cs = (c :: cs).takeWhile isDigit ++ suffix :: rest := by
          rw [hafter, List.takeWhile_append_dropWhile]
        rw [hdigits] at hn ⊢
        rw [htext]
        exact .inl (htext ▸ .long (.of_takeWhile hc cs) hn hs)
      · exact .inr hlooked
    · cases h
  · cases h

/-! ### Tokens -/

namespace Token

/-- A placeholder that is scanned by its position is an unchecked one. -/
theorem Unchecked.of_scanPlaceholder {cs rest : List Char} {t : Token}
    (h : scanPlaceholder cs = .ok (t, rest)) (ht : t.isNumber = true) :
    t.Unchecked ('@' :: cs) rest := by
  unfold scanPlaceholder at h
  split at h
  · cases h
  · rename_i c tail
    simp only at h
    split at h
    · rename_i hc
      split at h
      · rename_i hn
        cases h
        have hend : ∀ d ∈ ((c :: tail).dropWhile isDigit).head?, isDigit d = false :=
          head?_dropWhile_eq_false
        have hpositional := Unchecked.positional (.of_takeWhile hc tail) hn hend
        rwa [List.takeWhile_append_dropWhile] at hpositional
      · cases h
    split at h
    · cases h
      cases ht
    · cases h

/-- No word is a number. -/
theorem isNumber_ofWord (word : String) : (ofWord word).isNumber = false := by
  unfold ofWord
  split <;> rfl

/-- A number is scanned unchecked, or what follows was looked at. -/
theorem number_of_scan {c : Char} {cs rest : List Char} {t : Token}
    (h : scan c cs = .ok (t, rest)) (ht : t.isNumber = true) :
    t.Unchecked (c :: cs) rest ∨
      (Delimited rest ∧ ((∃ n, t = .integer n) ∨ ∃ x, t = .float x)) := by
  unfold scan at h
  split at h
  · split at h
    · cases h
      cases ht
    · cases h
  split at h
  · rename_i hc
    exact scanNumber_eq_ok hc h
  split at h
  · rename_i hc
    subst hc
    exact .inl (.of_scanPlaceholder h ht)
  split at h
  · cases h
    cases ht
  · split at h
    · cases h
      rw [isNumber_ofWord] at ht
      cases ht
    · cases h

/-- An unchecked number is scanned from its first character, whatever follows. -/
theorem Unchecked.scan {text rest : List Char} {t : Token} (h : t.Unchecked text rest) :
    ∃ c cs, text = c :: cs ∧ isBlank c = false ∧ Token.scan c cs = .ok (t, rest) := by
  cases h with
  | @long n written _ suffix h hn hs =>
      have hlong : scanNumber (written ++ ([suffix] ++ rest)) = .ok (.long n, rest) :=
        scanNumber_long h hn hs
      obtain ⟨c, cs, hcs, hblank, hscan⟩ := ScansAs.number h [suffix] hlong
      refine ⟨c, cs ++ rest, ?_, hblank, hscan⟩
      rw [← List.cons_append, ← hcs, List.append_assoc]
      rfl
  | @positional n written _ h hn hr =>
      obtain ⟨htake, hdrop⟩ := takeWhile_append_of_head h.digits hr
      refine ⟨'@', written ++ rest, rfl, by decide, ?_⟩
      rw [scan_placeholder]
      obtain ⟨c, cs, rfl, hc⟩ := h.exists_cons
      rw [List.cons_append] at htake hdrop ⊢
      simp only [scanPlaceholder, hc, if_true, htake, hdrop, h.value]
      exact if_pos hn

theorem Unchecked.isNumber {text rest : List Char} {t : Token} (h : t.Unchecked text rest) :
    t.isNumber = true := by
  cases h <;> rfl

/-- The first token of a text is scanned from the first character that is no blank. -/
theorem next?_eq_some_iff {cs rest : List Char} {t : Token} :
    next? cs = .ok (some (t, rest)) ↔
      ∃ blanks c after, cs = blanks ++ c :: after ∧ (∀ b ∈ blanks, isBlank b = true) ∧
        isBlank c = false ∧ scan c after = .ok (t, rest) := by
  constructor
  · intro h
    unfold next? at h
    split at h
    · cases h
    · rename_i c after hc
      split at h
      · rename_i hscan
        cases h
        refine ⟨cs.takeWhile isBlank, c, after, ?_, fun b hb => List.mem_takeWhile_imp hb, ?_,
          hscan⟩
        · rw [← hc, List.takeWhile_append_dropWhile]
        · exact head?_dropWhile_eq_false c (by rw [hc]; rfl)
      · cases h
  · rintro ⟨blanks, c, after, rfl, hblanks, hc, hscan⟩
    have hdrop : (blanks ++ c :: after).dropWhile isBlank = c :: after := by
      rw [List.dropWhile_append_of_pos hblanks]
      exact List.dropWhile_cons_of_neg (by simp [hc])
    simp only [next?, hdrop, hscan]

/-- An unchecked number is the first token behind blanks, whatever follows. -/
theorem Unchecked.next?_eq {blanks text rest : List Char} {t : Token} (h : t.Unchecked text rest)
    (hblanks : ∀ c ∈ blanks, isBlank c = true) :
    next? (blanks ++ text) = .ok (some (t, rest)) := by
  obtain ⟨c, after, rfl, hc, hscan⟩ := h.scan
  exact next?_eq_some_iff.mpr ⟨blanks, c, after, rfl, hblanks, hc, hscan⟩

/-- A number that is read is an unchecked one behind blanks, or what follows was looked at. -/
theorem number_of_next? {cs rest : List Char} {t : Token} (h : next? cs = .ok (some (t, rest)))
    (ht : t.isNumber = true) :
    (∃ blanks text, cs = blanks ++ text ∧ (∀ c ∈ blanks, isBlank c = true) ∧
        t.Unchecked text rest) ∨
      (Delimited rest ∧ ((∃ n, t = .integer n) ∨ ∃ x, t = .float x)) := by
  obtain ⟨blanks, c, after, rfl, hblanks, -, hscan⟩ := next?_eq_some_iff.mp h
  exact (number_of_scan hscan ht).imp_left fun hu => ⟨blanks, _, rfl, hblanks, hu⟩

/-- The numbers that are read before part of a name are those of the texts. -/
theorem glued_iff {cs rest : List Char} {t : Token} :
    t.Glued cs rest ↔
      next? cs = .ok (some (t, rest)) ∧ t.isNumber = true ∧ ¬ Delimited rest := by
  constructor
  · rintro ⟨hglued, blanks, text, rfl, hblanks, hu⟩
    exact ⟨hu.next?_eq hblanks, hu.isNumber, hglued⟩
  · rintro ⟨h, ht, hglued⟩
    exact ⟨hglued, (number_of_next? h ht).resolve_right fun hlooked => hglued hlooked.1⟩

/-- An unchecked number before a word is read as the number and the word. -/
theorem Unchecked.ofChars_eq {text tail : List Char} {c : Char} {t : Token}
    (h : t.Unchecked text (c :: tail)) (hc : isNameStart c = true) :
    Tokens.ofChars text =
      .more t (.more (ofWord (String.ofList ((c :: tail).takeWhile isNamePart)))
        (Tokens.ofChars (tail.dropWhile isNamePart))) := by
  have hnumber : next? text = .ok (some (t, c :: tail)) := h.next?_eq (List.forall_mem_nil _)
  have hpart : isNamePart c = true := isNamePart_of_isNameStart hc
  have hword : isWord (c :: tail.takeWhile isNamePart) = true :=
    isWord_cons.mpr ⟨hc, fun e he => List.mem_takeWhile_imp he⟩
  have hend : ∀ e ∈ (tail.dropWhile isNamePart).head?, isNamePart e = false :=
    head?_dropWhile_eq_false
  have hnext := next?_word hword hend
  rw [List.cons_append, List.takeWhile_append_dropWhile] at hnext
  rw [Tokens.ofChars_of_next?_some hnumber, Tokens.ofChars_of_next?_some hnext,
    List.takeWhile_cons_of_pos hpart]

/-- **Where numbers are delimited.**  The number that a text starts with is delimited exactly if the
text does not start with an unchecked number before part of a name.  Of the numbers that are read
before part of a name these are all; none of them is a whole number without a suffix or a double;
and before a word each of them is cut off, so that the text is read as the number and the word. -/
theorem delimited_iff_not_glued (cs : List Char) :
    ((∀ (t : Token) (rest : List Char), next? cs = .ok (some (t, rest)) → t.isNumber = true →
        Delimited rest) ↔ ¬ ∃ t rest, Glued t cs rest) ∧
    (∀ (t : Token) (rest : List Char), t.Glued cs rest ↔
      next? cs = .ok (some (t, rest)) ∧ t.isNumber = true ∧ ¬ Delimited rest) ∧
    (∀ (t : Token) (rest : List Char), next? cs = .ok (some (t, rest)) →
      ((∃ n, t = .integer n) ∨ ∃ x, t = .float x) → Delimited rest) ∧
    ∀ (t : Token) (c : Char) (tail : List Char), t.Unchecked cs (c :: tail) →
      isNameStart c = true →
        Tokens.ofChars cs =
          .more t (.more (ofWord (String.ofList ((c :: tail).takeWhile isNamePart)))
            (Tokens.ofChars (tail.dropWhile isNamePart))) := by
  refine ⟨⟨?_, ?_⟩, fun _ _ => glued_iff, ?_, fun t c tail hu hc => hu.ofChars_eq hc⟩
  · rintro hall ⟨t, rest, hglued⟩
    obtain ⟨h, ht, hnot⟩ := glued_iff.mp hglued
    exact hnot (hall t rest h ht)
  · intro hnone t rest h ht
    by_contra hnot
    exact hnone ⟨t, rest, glued_iff.mpr ⟨h, ht, hnot⟩⟩
  · intro t rest h ht
    have hnumber : t.isNumber = true := by
      rcases ht with ⟨n, rfl⟩ | ⟨x, rfl⟩ <;> rfl
    rcases number_of_next? h hnumber with ⟨blanks, text, -, -, hu⟩ | ⟨hlooked, -⟩
    · -- neither of the two is a long or a placeholder
      rcases ht with ⟨n, rfl⟩ | ⟨x, rfl⟩ <;> cases hu
    · exact hlooked

/-- The start of `5Lx`. -/
theorem Unchecked.five : (Token.long 5).Unchecked ['5', 'L', 'x'] ['x'] := by
  have hdigits : Digits 5 ['5'] := .toDigits 5
  exact .long hdigits (by decide) (.inl rfl)

theorem isNameStart_x : isNameStart 'x' = true := by cbv

theorem not_delimited_x : ¬ Delimited ['x'] := by
  intro h
  have hx := h 'x' rfl
  rw [isNamePart_of_isNameStart isNameStart_x] at hx
  cases hx

/-- `5Lx` is read as the long 5 and a name. -/
theorem delimited_iff_not_glued_long :
    isNameStart 'x' = true ∧ next? ['5', 'L', 'x'] = .ok (some (.long 5, ['x'])) ∧
      Tokens.ofChars ['5', 'L', 'x'] = .more (.long 5) (.more (.name "x") .done) := by
  obtain ⟨-, hglued, -, hword⟩ := delimited_iff_not_glued ['5', 'L', 'x']
  refine ⟨isNameStart_x, ?_, ?_⟩
  · exact ((hglued _ _).mp ⟨not_delimited_x, [], _, rfl, by simp, .five⟩).1
  · have hend : Tokens.ofChars ([].dropWhile isNamePart) = .done :=
      Tokens.ofChars_of_next?_none rfl
    rw [hword _ _ _ .five isNameStart_x, hend,
      List.takeWhile_cons_of_pos (isNamePart_of_isNameStart isNameStart_x)]
    rfl

/-- Numbers are not always delimited: a long or a placeholder may be glued to a word, also in a text
that is accepted. -/
theorem not_numbers_delimited :
    ¬ (∀ (cs rest : List Char) (t : Token), next? cs = .ok (some (t, rest)) → t.isNumber = true →
        Delimited rest) ∧
      next? ['5', 'L', 'x'] = .ok (some (.long 5, ['x'])) ∧
      Term.parse "@0and @1" = .ok (.binary .and (.positional 0) (.positional 1)) := by
  have hlong : next? ['5', 'L', 'x'] = .ok (some (.long 5, ['x'])) :=
    Unchecked.five.next?_eq (List.forall_mem_nil _)
  exact ⟨fun h => not_delimited_x (h _ _ _ hlong rfl), hlong, by cbv⟩

end Token

end LambdaQuery
