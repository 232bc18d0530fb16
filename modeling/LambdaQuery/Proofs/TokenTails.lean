/-
**What follows a text does not change its tokens.**  A text that can be read to its end has the same
tokens when a blank or a closing parenthesis and anything else follows it: none of them goes on a
token.

Main definitions:
* `EndsToken`, `Apart` — characters that go on no token, and what starts with one or is empty;
* `Tokens.append` — tokens that go on with others where they come to their end.

Main results:
* `Token.scan_append`, `Token.next?_append` — a token is cut off in the same way before a tail;
* `Tokens.ofChars_append` — **the tokens of a text with a tail are those of the text and those of
  the tail**;
* `Tokens.ofText_trim` — trimming a text keeps its tokens.
-/

import LambdaQuery.Proofs.TokenSpelling

namespace LambdaQuery

open Text

/-! ### Characters that end a token -/

/-- The character goes on no token: no name, no number and no sign. -/
structure EndsToken (c : Char) : Prop where
  name : isNamePart c = false
  point : c ≠ '.'
  exponentSign : isExponentSign c = false
  pair : ∀ d, pairSign? d c = none

/-- What is empty or starts with a character that goes on no token. -/
def Apart (cs : List Char) : Prop := ∀ c ∈ cs.head?, EndsToken c

namespace EndsToken

variable {c : Char}

theorem of_isBlank (h : isBlank c = true) : EndsToken c where
  name := isNamePart_of_isBlank h
  point := by
    rintro rfl
    exact absurd h (by decide)
  exponentSign := by
    rw [isExponentSign, Bool.or_eq_false_iff, beq_eq_false_iff_ne, beq_eq_false_iff_ne]
    constructor <;> (rintro rfl; exact absurd h (by decide))
  pair := fun _ => pairSign?_of_isBlank h

theorem rightParen : EndsToken ')' where
  name := by decide
  point := by decide
  exponentSign := by decide
  pair := fun d => by
    unfold pairSign?
    split <;> simp_all

theorem digit (h : EndsToken c) : isDigit c = false := by
  rw [Bool.eq_false_iff]
  intro hd
  exact absurd (isNamePart_of_isDigit hd) (by simp [h.name])

/-- A letter is not such a character. -/
theorem ne_of_isNamePart {d : Char} (h : EndsToken c) (hd : isNamePart d = true) : c ≠ d := by
  rintro rfl
  exact absurd hd (by simp [h.name])

end EndsToken

theorem Apart.of_blanks {cs : List Char} (h : ∀ c ∈ cs, isBlank c = true) : Apart cs :=
  fun c hc => .of_isBlank (h c (List.mem_of_mem_head? hc))

section Scanning

variable {tail : List Char} (ht : Apart tail)

include ht

/-! ### Runs of characters -/

theorem takeWhile_append_apart {p : Char → Bool} (hp : ∀ c, EndsToken c → p c = false)
    (cs : List Char) : (cs ++ tail).takeWhile p = cs.takeWhile p := by
  induction cs with
  | nil =>
      cases tail with
      | nil => rfl
      | cons c tail => exact List.takeWhile_cons_of_neg (by simp [hp c (ht c rfl)])
  | cons d cs ih => rw [List.cons_append, List.takeWhile_cons, List.takeWhile_cons, ih]

theorem dropWhile_append_apart {p : Char → Bool} (hp : ∀ c, EndsToken c → p c = false)
    (cs : List Char) : (cs ++ tail).dropWhile p = cs.dropWhile p ++ tail := by
  induction cs with
  | nil =>
      cases tail with
      | nil => rfl
      | cons c tail => exact List.dropWhile_cons_of_neg (by simp [hp c (ht c rfl)])
  | cons d cs ih =>
      rw [List.cons_append, List.dropWhile_cons, List.dropWhile_cons, ih]
      split <;> rfl

end Scanning

/-! ### Strings -/

theorem scanString_append {quote : Char} {cs text rest : List Char} (tail : List Char)
    (h : scanString quote cs = .ok (text, rest)) :
    scanString quote (cs ++ tail) = .ok (text, rest ++ tail) := by
  -- what the scan decides on stands before the closing quote, and so before the tail
  fun_induction scanString quote cs generalizing text rest with
  | case2 rest' =>
      cases h
      rw [List.cons_append, scanString.eq_def]
      simp
  | case4 a b c d after ch hcode hq ih =>
      obtain ⟨text', htext, rfl⟩ := prepend_eq_ok h
      simp only [List.cons_append]
      rw [scanString.eq_def]
      simp [hcode, hq, ih htext, prepend]
  | case7 e rest' hu ch he hq ih =>
      obtain ⟨text', htext, rfl⟩ := prepend_eq_ok h
      simp only [List.cons_append]
      rw [scanString.eq_def]
      simp [hq, he, ih htext, prepend]
  | case9 c rest' hc hb ih =>
      obtain ⟨text', htext, rfl⟩ := prepend_eq_ok h
      rw [List.cons_append, scanString.eq_def]
      simp [hc, hb, ih htext, prepend]
  | _ => cases h

/-! ### Numbers -/

theorem scanFraction_of_ne {c : Char} {cs : List Char} (h : c ≠ '.') :
    scanFraction (c :: cs) = none := by
  unfold scanFraction
  split
  · rename_i heq
    exact absurd (List.cons.inj heq).1 h
  · rfl

section Numbers

variable {tail : List Char} (ht : Apart tail)

include ht

theorem scanFraction_append (cs : List Char) :
    scanFraction (cs ++ tail) =
      (scanFraction cs).map fun (fraction, rest) => (fraction, rest ++ tail) := by
  have hd : ∀ c, EndsToken c → isDigit c = false := fun _ hc => hc.digit
  match cs with
  | [] =>
      cases tail with
      | nil => rfl
      | cons c tail => exact scanFraction_of_ne (ht c rfl).point
  | c :: rest =>
      by_cases hc : c = '.'
      · subst hc
        cases rest with
        | nil =>
            cases tail with
            | nil => rfl
            | cons c tail => simp [scanFraction, hd c (ht c rfl)]
        | cons d rest =>
            have hrun := takeWhile_append_apart ht hd (d :: rest)
            have hleft := dropWhile_append_apart ht hd (d :: rest)
            simp only [List.cons_append] at hrun hleft ⊢
            simp only [scanFraction, hrun, hleft]
            split <;> rfl
      · rw [List.cons_append, scanFraction_of_ne hc, scanFraction_of_ne hc]
        rfl

theorem scanExponent_append {cs : List Char} {r : Option ((List Char × Int) × List Char)}
    (h : scanExponent cs = .ok r) :
    scanExponent (cs ++ tail) = .ok (r.map fun (e, rest) => (e, rest ++ tail)) := by
  have hd : ∀ c, EndsToken c → isDigit c = false := fun _ hc => hc.digit
  cases cs with
  | nil =>
      cases h
      cases tail with
      | nil => rfl
      | cons c tail =>
          have hc : ¬(c = 'e' ∨ c = 'E') := by
            rintro (rfl | rfl)
            · exact (ht _ rfl).ne_of_isNamePart (by decide) rfl
            · exact (ht _ rfl).ne_of_isNamePart (by decide) rfl
          rw [List.nil_append, scanExponent, if_neg hc]
          rfl
  | cons e rest =>
      rw [List.cons_append, scanExponent]
      rw [scanExponent] at h
      split
      · rename_i he
        rw [if_pos he] at h
        -- the sign and the digits stand before the tail, since there are digits
        have hsign : (rest ++ tail).takeWhile isExponentSign = rest.takeWhile isExponentSign :=
          takeWhile_append_apart ht (fun _ hc => hc.exponentSign) rest
        have hle : ((rest.takeWhile isExponentSign).take 1).length ≤ rest.length :=
          Nat.le_trans (List.length_take_le' ..) (List.takeWhile_sublist _).length_le
        simp only [hsign, List.drop_append_of_le_length hle, takeWhile_append_apart ht hd,
          dropWhile_append_apart ht hd]
        simp only at h
        split at h
        · cases h
        · rename_i hne
          cases h
          rw [if_neg hne]
          rfl
      · rename_i he
        rw [if_neg he] at h
        cases h
        rfl

theorem scanMantissa_append (cs : List Char) :
    scanMantissa (cs ++ tail) = ((scanMantissa cs).1, (scanMantissa cs).2 ++ tail) := by
  have hd : ∀ c, EndsToken c → isDigit c = false := fun _ hc => hc.digit
  unfold scanMantissa
  rw [takeWhile_append_apart ht hd, dropWhile_append_apart ht hd, scanFraction_append ht]
  cases scanFraction (cs.dropWhile isDigit) <;> rfl

theorem scanLiteral_append {cs rest : List Char} {l : Literal}
    (h : scanLiteral cs = .ok (l, rest)) : scanLiteral (cs ++ tail) = .ok (l, rest ++ tail) := by
  unfold scanLiteral at h ⊢
  rw [scanMantissa_append ht]
  simp only at h ⊢
  cases he : scanExponent (scanMantissa cs).2 with
  | error e =>
      rw [he] at h
      cases h
  | ok r =>
      rw [he] at h
      rw [scanExponent_append ht he]
      cases r with
      | none =>
          cases h
          rfl
      | some r =>
          cases h
          rfl

theorem Literal.finish_append (l : Literal) (float : Bool) (rest : List Char) :
    l.finish float (rest ++ tail) = l.finish float rest := by
  rw [finish, finish, takeWhile_append_apart ht fun _ hc => hc.name]

theorem Literal.token_append (l : Literal) (rest : List Char) :
    l.token (rest ++ tail) = ((l.token rest).1, (l.token rest).2 ++ tail) := by
  cases rest with
  | nil =>
      cases tail with
      | nil => rfl
      | cons c tail =>
          have hne : ∀ d, isNamePart d = true → c ≠ d := fun _ => (ht c rfl).ne_of_isNamePart
          have hlong : ¬((c = 'L' ∨ c = 'l') ∧ l.isFloat = false) := by
            rintro ⟨hc | hc, -⟩
            · exact hne _ (by decide) hc
            · exact hne _ (by decide) hc
          have hfloat : isFloatSuffix c = false := by
            simp [isFloatSuffix, hne 'd' (by decide), hne 'D' (by decide), hne 'f' (by decide),
              hne 'F' (by decide), hne 'm' (by decide), hne 'M' (by decide)]
          have hfinish := Literal.finish_append ht l l.isFloat []
          rw [List.nil_append] at hfinish ⊢
          simp only [token, hlong, if_false, hfloat, hfinish]
          rfl
  | cons c rest =>
      rw [List.cons_append]
      simp only [token]
      split
      · rfl
      split
      · rw [Literal.finish_append ht]
      · rw [← List.cons_append, Literal.finish_append ht]

theorem scanNumber_append {cs rest : List Char} {t : Token} (h : scanNumber cs = .ok (t, rest)) :
    scanNumber (cs ++ tail) = .ok (t, rest ++ tail) := by
  unfold scanNumber at h ⊢
  split at h
  · rename_i l after hl
    rw [scanLiteral_append ht hl]
    simp only [Literal.token_append ht]
    split at h
    · rename_i ht'
      cases h
      rw [ht']
    · cases h
  · cases h

/-! ### Signs and placeholders -/

theorem scanSign?_append (c : Char) (cs : List Char) :
    scanSign? (c :: cs ++ tail) = (scanSign? (c :: cs)).map fun (s, rest) => (s, rest ++ tail) := by
  cases cs with
  | nil =>
      cases tail with
      | nil =>
          rw [List.append_nil]
          cases scanSign? [c] <;> simp
      | cons d tail =>
          simp only [List.cons_append, List.nil_append, scanSign?, (ht d rfl).pair]
          cases charSign? c <;> rfl
  | cons d cs =>
      simp only [List.cons_append, scanSign?]
      cases pairSign? c d with
      | some s => rfl
      | none => cases charSign? c <;> rfl

theorem scanPlaceholder_append {cs rest : List Char} {t : Token}
    (h : scanPlaceholder cs = .ok (t, rest)) :
    scanPlaceholder (cs ++ tail) = .ok (t, rest ++ tail) := by
  cases cs with
  | nil => cases h
  | cons c cs =>
      have hd : ∀ c, EndsToken c → isDigit c = false := fun _ hc => hc.digit
      have hn : ∀ c, EndsToken c → isNamePart c = false := fun _ hc => hc.name
      have hdigits := takeWhile_append_apart ht hd (c :: cs)
      have hdigitsLeft := dropWhile_append_apart ht hd (c :: cs)
      have hname := takeWhile_append_apart ht hn (c :: cs)
      have hnameLeft := dropWhile_append_apart ht hn (c :: cs)
      simp only [List.cons_append] at hdigits hdigitsLeft hname hnameLeft ⊢
      simp only [scanPlaceholder, hdigits, hdigitsLeft, hname, hnameLeft] at h ⊢
      split at h
      · rename_i hc
        rw [if_pos hc]
        split at h
        · rename_i hlt
          cases h
          rw [if_pos hlt]
        · cases h
      · rename_i hc
        rw [if_neg hc]
        split at h
        · rename_i hs
          cases h
          rw [if_pos hs]
        · cases h

end Numbers

/-! ### Tokens -/

namespace Token

variable {tail : List Char}

/-- A token is cut off in the same way before a tail. -/
theorem scan_append (ht : Apart tail) {c : Char} {cs rest : List Char} {t : Token}
    (h : scan c cs = .ok (t, rest)) : scan c (cs ++ tail) = .ok (t, rest ++ tail) := by
  have hn : ∀ c, EndsToken c → isNamePart c = false := fun _ hc => hc.name
  unfold scan at h ⊢
  split at h
  · rename_i hq
    rw [if_pos hq]
    split at h
    · rename_i hs
      cases h
      rw [scanString_append tail hs]
    · cases h
  rename_i hq
  rw [if_neg hq]
  split at h
  · rename_i hd
    rw [if_pos hd]
    exact scanNumber_append ht h
  rename_i hd
  rw [if_neg hd]
  split at h
  · rename_i hp
    rw [if_pos hp]
    exact scanPlaceholder_append ht h
  rename_i hp
  rw [if_neg hp, ← List.cons_append, scanSign?_append ht]
  cases hs : scanSign? (c :: cs) with
  | some r =>
      rw [hs] at h
      cases h
      rfl
  | none =>
      simp only [hs] at h
      simp only [Option.map_none]
      split at h
      · rename_i hname
        cases h
        rw [if_pos hname, takeWhile_append_apart ht hn, dropWhile_append_apart ht hn]
      · cases h

theorem next?_append (ht : Apart tail) {cs rest : List Char} {t : Token}
    (h : next? cs = .ok (some (t, rest))) :
    next? (cs ++ tail) = .ok (some (t, rest ++ tail)) := by
  unfold next? at h ⊢
  rw [List.dropWhile_append]
  cases hd : cs.dropWhile isBlank with
  | nil =>
      rw [hd] at h
      cases h
  | cons c cs =>
      rw [hd] at h
      simp only [List.isEmpty_cons, Bool.false_eq_true, if_false, List.cons_append] at h ⊢
      cases hs : scan c cs with
      | error e =>
          rw [hs] at h
          cases h
      | ok r =>
          rw [hs] at h
          cases h
          rw [scan_append ht hs]

/-- After blanks alone come the tokens of the tail. -/
theorem next?_append_of_none {cs : List Char} (h : next? cs = .ok none) :
    next? (cs ++ tail) = next? tail := by
  unfold next? at h ⊢
  rw [List.dropWhile_append]
  cases hd : cs.dropWhile isBlank with
  | nil => rfl
  | cons c cs =>
      rw [hd] at h
      simp only at h
      split at h <;> cases h

theorem next?_of_blanks {blanks : List Char} (hb : ∀ c ∈ blanks, isBlank c = true) :
    next? blanks = .ok none := by
  have hd : blanks.dropWhile isBlank = [] := by
    rw [← List.append_nil blanks, List.dropWhile_append_of_pos hb]
    rfl
  rw [next?, hd]

/-- A word and a sign at the start of a text, whatever follows that does not go on with them. -/
theorem next?_word {c : Char} {cs rest : List Char} (h : isWord (c :: cs) = true)
    (hr : ∀ d ∈ rest.head?, isNamePart d = false) :
    next? (c :: cs ++ rest) = .ok (some (ofWord (String.ofList (c :: cs)), rest)) := by
  have hc : isBlank c = false := isBlank_of_isNameStart (isWord_cons.mp h).1
  rw [List.cons_append, next?, List.dropWhile_cons_of_neg (by simp [hc])]
  simp only [scan_word h hr]

theorem next?_sign {c : Char} {cs rest : List Char} {s : Sign}
    (h : scanSign? (c :: cs) = some (s, rest)) : next? (c :: cs) = .ok (some (.sign s, rest)) := by
  obtain ⟨hc, hscan⟩ := scan_of_scanSign? h
  rw [next?, List.dropWhile_cons_of_neg (by simp [hc.blank])]
  simp only [hscan]

end Token

namespace Tokens

/-- Tokens that go on with others where they come to their end. -/
def append : Tokens → Tokens → Tokens
  | done, us => us
  | broken e, _ => broken e
  | more t ts, us => more t (ts.append us)

theorem append_done (ts : Tokens) : ts.append done = ts := by
  induction ts with
  | done => rfl
  | broken e => rfl
  | more t ts ih => rw [append, ih]

/-- The tokens of a text depend on how it goes on past its blanks alone. -/
theorem ofChars_congr {cs cs' : List Char} (h : Token.next? cs = Token.next? cs') :
    ofChars cs = ofChars cs' := by
  rw [ofChars, ofChars]
  split <;> split <;> simp_all

theorem ofChars_blanks_append {blanks : List Char} (hb : ∀ c ∈ blanks, isBlank c = true)
    (cs : List Char) : ofChars (blanks ++ cs) = ofChars cs :=
  ofChars_congr (Token.next?_append_of_none (Token.next?_of_blanks hb))

/-- A name is cut off where no part of a name follows. -/
theorem ofChars_name {text : String} (h : isName text = true) {rest : List Char}
    (hr : ∀ c ∈ rest.head?, isNamePart c = false) :
    ofChars (text.toList ++ rest) = more (.name text) (ofChars rest) := by
  have hword : isWord text.toList = true := (Bool.and_eq_true_iff.mp h).1
  have hname := Token.ofWord_of_isName h
  rw [← String.ofList_toList (s := text)] at hname ⊢
  cases hc : text.toList with
  | nil =>
      rw [hc] at hword
      cases hword
  | cons c cs =>
      rw [hc] at hword hname
      rw [String.toList_ofList, ofChars_of_next?_some (Token.next?_word hword hr), hname]

/-- **The tokens of a text with a tail are those of the text and those of the tail**, if the text
can be read to its end. -/
theorem ofChars_append {tail : List Char} (ht : Apart tail) {cs : List Char}
    (h : (ofChars cs).error? = none) :
    ofChars (cs ++ tail) = (ofChars cs).append (ofChars tail) := by
  fun_induction ofChars cs with
  | case1 cs hnone => exact ofChars_congr (Token.next?_append_of_none hnone)
  | case2 cs t rest hsome ih =>
      rw [ofChars_of_next?_some (Token.next?_append ht hsome), append, ih h]
  | case3 cs e _ => cases h

/-- Trimming a text keeps its tokens. -/
theorem ofText_trim {text : String} (h : (ofText (trim text)).error? = none) :
    ofText text = ofText (trim text) := by
  obtain ⟨before, after, htext, hb, ha⟩ := exists_blanks_around text
  have hend : ofChars after = done := ofChars_of_next?_none (Token.next?_of_blanks ha)
  rw [ofText, htext, List.append_assoc, ofChars_blanks_append hb,
    ofChars_append (.of_blanks ha) h, hend, append_done]
  rfl

end Tokens

end LambdaQuery
