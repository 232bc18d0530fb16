/-
Cutting a text into tokens.

* `Token.next?` — the first token of a text and what follows it, `none` where only blanks are left;
* `Token.next?_length_lt` — what follows is shorter than the text;
* `Tokens.ofChars`, `Tokens.ofText` — all tokens of a text.

A number ends where its digits and its suffix end.  What follows a number that carries no `L` is not
alphanumeric: a number glued to a word is refused.
-/

import LambdaQuery.Double.Reader
import LambdaQuery.Text.Blank
import LambdaQuery.Text.Hex
import LambdaQuery.Text.Numeral
import LambdaQuery.Token.Basic

namespace LambdaQuery

open Text

/-! ### Runs of characters -/

/-- May the character start a name? -/
def isNameStart (c : Char) : Bool := isLetter c || c == '_'

/-- May the character go on a name? -/
def isNamePart (c : Char) : Bool := isAlphanumeric c || c == '_'

theorem length_dropWhile_le (p : Char → Bool) (cs : List Char) :
    (cs.dropWhile p).length ≤ cs.length :=
  (List.dropWhile_sublist p).length_le

/-! ### Strings -/

/-- The character that a backslash and one more character stand for. -/
def escaped? : Char → Option Char
  | '"' => some '"'
  | '\'' => some '\''
  | '\\' => some '\\'
  | '0' => some '\x00'
  | 'n' => some '\n'
  | 'r' => some '\r'
  | 't' => some '\t'
  | _ => none

/-- The error of `\u` where four hexadecimal digits that name a character do not follow. -/
def badCode (cs : List Char) : SyntaxError :=
  .invalidEscape ("\\u" ++ String.ofList ((cs.take 4).takeWhile fun c => (hexValue? c).isSome))

/-- Puts a character before the text that has been read. -/
def prepend (c : Char) :
    Except SyntaxError (List Char × List Char) → Except SyntaxError (List Char × List Char)
  | .ok (text, rest) => .ok (c :: text, rest)
  | .error e => .error e

theorem prepend_eq_ok {c : Char} {r : Except SyntaxError (List Char × List Char)}
    {text rest : List Char} (h : prepend c r = .ok (text, rest)) :
    ∃ tail, r = .ok (tail, rest) ∧ text = c :: tail := by
  match r, h with
  | .ok (tail, rest'), h =>
    simp only [prepend, Except.ok.injEq, Prod.mk.injEq] at h
    exact ⟨tail, by simp [h.2], h.1.symm⟩

/-- A string up to its closing quote, and what follows the quote. -/
def scanString (quote : Char) : List Char → Except SyntaxError (List Char × List Char)
  | [] => .error .unclosedString
  | c :: rest =>
    if c = quote then .ok ([], rest)
    else if c = '\\' then
      match rest with
      | [] => .error .unclosedString
      | 'u' :: rest =>
        match rest with
        | a :: b :: c :: d :: after =>
          match (hexCode? a b c d).bind charOfCode? with
          | some ch => prepend ch (scanString quote after)
          | none => .error (badCode rest)
        | _ => .error (badCode rest)
      | e :: rest =>
        match escaped? e with
        | some ch => prepend ch (scanString quote rest)
        | none => .error (.invalidEscape ("\\" ++ e.toString))
    else prepend c (scanString quote rest)

theorem scanString_length {quote : Char} {cs text rest : List Char}
    (h : scanString quote cs = .ok (text, rest)) : rest.length < cs.length := by
  fun_induction scanString quote cs generalizing text rest with
  | case2 => simp_all
  | case4 | case7 | case9 =>
    rename_i ih
    obtain ⟨_, h, -⟩ := prepend_eq_ok h
    have := ih h
    simp only [List.length_cons]
    omega
  | _ => simp_all

/-! ### Numbers -/

/-- The digits after a decimal point, and what follows them; a point that no digit follows is not
part of a number. -/
def scanFraction : List Char → Option (List Char × List Char)
  | '.' :: d :: rest =>
    if isDigit d then some ((d :: rest).takeWhile isDigit, (d :: rest).dropWhile isDigit) else none
  | _ => none

theorem scanFraction_length {cs ds rest : List Char} (h : scanFraction cs = some (ds, rest)) :
    rest.length ≤ cs.length := by
  unfold scanFraction at h
  split at h
  · next d after =>
    split at h
    · simp only [Option.some.injEq, Prod.mk.injEq] at h
      obtain ⟨-, rfl⟩ := h
      have := length_dropWhile_le isDigit (d :: after)
      simp only [List.length_cons] at this ⊢
      omega
    · cases h
  · cases h

/-- Is the character a sign that an exponent may have? -/
def isExponentSign (c : Char) : Bool := c == '+' || c == '-'

/-- The text of an exponent and its value, and what follows it; `none` where there is no
exponent. -/
def scanExponent : List Char → Except SyntaxError (Option ((List Char × Int) × List Char))
  | e :: rest =>
    if e = 'e' ∨ e = 'E' then
      let sign := rest.takeWhile isExponentSign |>.take 1
      let digits := (rest.drop sign.length).takeWhile isDigit
      if digits.isEmpty then .error .missingExponent
      else
        let value : Int := digitsValue digits
        .ok (some ((e :: (sign ++ digits), if sign = ['-'] then -value else value),
          (rest.drop sign.length).dropWhile isDigit))
    else .ok none
  | [] => .ok none

theorem scanExponent_length {cs rest : List Char} {e : List Char × Int}
    (h : scanExponent cs = .ok (some (e, rest))) : rest.length ≤ cs.length := by
  unfold scanExponent at h
  split at h
  · next after =>
    split at h
    · dsimp only at h
      split at h
      · cases h
      · simp only [Except.ok.injEq, Option.some.injEq, Prod.mk.injEq] at h
        obtain ⟨-, rfl⟩ := h
        refine Nat.le_trans (length_dropWhile_le _ _) ?_
        simp only [List.length_drop, List.length_cons]
        omega
    · cases h
  · cases h

/-- A number without its suffix. -/
structure Literal where
  /-- The number as it is written. -/
  text : List Char
  digits : List Char
  fraction : Option (List Char)
  exponent : Option Int

namespace Literal

/-- Does the number have a fraction or an exponent? -/
def isFloat (l : Literal) : Bool := l.fraction.isSome || l.exponent.isSome

/-- The double nearest to the number. -/
def toDouble (l : Literal) : Double :=
  let fraction := l.fraction.getD []
  Double.nearest (digitsValue (l.digits ++ fraction)) (l.exponent.getD 0 - fraction.length)

/-- The number as a token of 64 bits, if it is small enough. -/
def toWhole (l : Literal) (token : Nat → Token) : Except SyntaxError Token :=
  if digitsValue l.digits < Nat.pow 2 63 then .ok (token (digitsValue l.digits))
  else .error (.invalidNumber (String.ofList l.text))

end Literal

/-- The whole part and the fraction of a number, and what follows them. -/
def scanMantissa (cs : List Char) : Literal × List Char :=
  let digits := cs.takeWhile isDigit
  match scanFraction (cs.dropWhile isDigit) with
  | some (fraction, rest) =>
    (⟨digits ++ '.' :: fraction, digits, some fraction, none⟩, rest)
  | none => (⟨digits, digits, none, none⟩, cs.dropWhile isDigit)

/-- A number up to its suffix, and what follows. -/
def scanLiteral (cs : List Char) : Except SyntaxError (Literal × List Char) :=
  match scanMantissa cs with
  | (l, rest) =>
    match scanExponent rest with
    | .ok (some ((text, value), rest)) =>
      .ok ({ l with text := l.text ++ text, exponent := some value }, rest)
    | .ok none => .ok (l, rest)
    | .error e => .error e

theorem scanLiteral_length {cs rest : List Char} {l : Literal}
    (h : scanLiteral cs = .ok (l, rest)) : rest.length ≤ (cs.dropWhile isDigit).length := by
  have mantissa : (scanMantissa cs).2.length ≤ (cs.dropWhile isDigit).length := by
    unfold scanMantissa
    dsimp only
    split
    · next hf => exact scanFraction_length hf
    · exact Nat.le_refl _
  unfold scanLiteral at h
  split at h
  · next hm =>
    rw [hm] at mantissa
    split at h
    · next he =>
      simp only [Except.ok.injEq, Prod.mk.injEq] at h
      obtain ⟨-, rfl⟩ := h
      exact Nat.le_trans (scanExponent_length he) mantissa
    · simp only [Except.ok.injEq, Prod.mk.injEq] at h
      obtain ⟨-, rfl⟩ := h
      exact mantissa
    · cases h

/-- Is the character a suffix that makes a number a double? -/
def isFloatSuffix (c : Char) : Bool :=
  c == 'd' || c == 'D' || c == 'f' || c == 'F' || c == 'm' || c == 'M'

/-- The token of a number that has no suffix, or whose suffix made it a double. -/
def Literal.finish (l : Literal) (float : Bool) (rest : List Char) : Except SyntaxError Token :=
  let glued := rest.takeWhile isNamePart
  if glued.isEmpty then if float then .ok (.float l.toDouble) else l.toWhole .integer
  else .error (.invalidNumber (String.ofList (l.text ++ glued)))

/-- The token of a number by the suffix that follows it, and what follows that. -/
def Literal.token (l : Literal) (rest : List Char) : Except SyntaxError Token × List Char :=
  match rest with
  | c :: after =>
    if (c = 'L' ∨ c = 'l') ∧ l.isFloat = false then (l.toWhole .long, after)
    else if isFloatSuffix c then (l.finish true after, after)
    else (l.finish l.isFloat rest, rest)
  | [] => (l.finish l.isFloat [], [])

theorem Literal.token_length (l : Literal) (rest : List Char) :
    (l.token rest).2.length ≤ rest.length := by
  unfold Literal.token
  split
  · repeat' split
    all_goals simp
  · simp

/-- The token of a number and what follows it. -/
def scanNumber (cs : List Char) : Except SyntaxError (Token × List Char) :=
  match scanLiteral cs with
  | .ok (l, rest) =>
    match l.token rest with
    | (.ok t, rest) => .ok (t, rest)
    | (.error e, _) => .error e
  | .error e => .error e

theorem scanNumber_length {cs rest : List Char} {t : Token}
    (h : scanNumber cs = .ok (t, rest)) : rest.length ≤ (cs.dropWhile isDigit).length := by
  unfold scanNumber at h
  split at h
  · next l after hl =>
    have := l.token_length after
    split at h
    · next ht =>
      rw [ht] at this
      simp only [Except.ok.injEq, Prod.mk.injEq] at h
      obtain ⟨-, rfl⟩ := h
      exact Nat.le_trans this (scanLiteral_length hl)
    · cases h
  · cases h

/-! ### Signs and placeholders -/

/-- The sign of two characters. -/
def pairSign? : Char → Char → Option Sign
  | '=', '=' => some .equal
  | '=', '>' => some .arrow
  | '!', '=' => some .notEqual
  | '<', '>' => some .notEqual
  | '<', '=' => some .lessEqual
  | '>', '=' => some .greaterEqual
  | '&', '&' => some .and
  | '|', '|' => some .or
  | '?', '?' => some .coalesce
  | _, _ => none

/-- The sign of one character. -/
def charSign? : Char → Option Sign
  | '(' => some .leftParen
  | ')' => some .rightParen
  | '\x7b' => some .leftBrace
  | '\x7d' => some .rightBrace
  | ',' => some .comma
  | ':' => some .colon
  | '?' => some .question
  | '.' => some .dot
  | '+' => some .plus
  | '-' => some .minus
  | '*' => some .star
  | '/' => some .slash
  | '%' => some .percent
  | '=' => some .assign
  | '<' => some .less
  | '>' => some .greater
  | '!' => some .not
  | '&' => some .ampersand
  | _ => none

/-- The sign that a text starts with, the longer one first, and what follows it. -/
def scanSign? : List Char → Option (Sign × List Char)
  | a :: b :: rest =>
    match pairSign? a b with
    | some s => some (s, rest)
    | none => (charSign? a).map fun s => (s, b :: rest)
  | [a] => (charSign? a).map fun s => (s, [])
  | [] => none

theorem scanSign?_length {cs rest : List Char} {s : Sign} (h : scanSign? cs = some (s, rest)) :
    rest.length < cs.length := by
  unfold scanSign? at h
  split at h
  · split at h
    · simp only [Option.some.injEq, Prod.mk.injEq] at h
      rw [← h.2]
      simp only [List.length_cons]
      omega
    · simp only [Option.map_eq_some_iff, Prod.mk.injEq] at h
      obtain ⟨_, -, -, rfl⟩ := h
      simp
  · simp only [Option.map_eq_some_iff, Prod.mk.injEq] at h
    obtain ⟨_, -, -, rfl⟩ := h
    simp
  · cases h

/-- The placeholder that follows `@`. -/
def scanPlaceholder : List Char → Except SyntaxError (Token × List Char)
  | [] => .error .unexpectedEnd
  | c :: rest =>
    let cs := c :: rest
    if isDigit c then
      let digits := cs.takeWhile isDigit
      if digitsValue digits < Nat.pow 2 64 then
        .ok (.positional (digitsValue digits), cs.dropWhile isDigit)
      else .error (.invalidNumber (String.ofList digits))
    else if isNameStart c then
      .ok (.named (String.ofList (cs.takeWhile isNamePart)), cs.dropWhile isNamePart)
    else .error (.strayPlaceholder c)

theorem scanPlaceholder_length {cs rest : List Char} {t : Token}
    (h : scanPlaceholder cs = .ok (t, rest)) : rest.length ≤ cs.length := by
  unfold scanPlaceholder at h
  split at h
  · cases h
  · next c after =>
    dsimp only at h
    repeat' split at h
    all_goals first
      | cases h; done
      | simp only [Except.ok.injEq, Prod.mk.injEq] at h
        obtain ⟨-, rfl⟩ := h
        exact length_dropWhile_le _ _

/-! ### Tokens -/

namespace Token

/-- The token that a text without leading blanks starts with, and what follows it. -/
def scan (c : Char) (rest : List Char) : Except SyntaxError (Token × List Char) :=
  if c = '"' ∨ c = '\'' then
    match scanString c rest with
    | .ok (text, rest) => .ok (string (String.ofList text), rest)
    | .error e => .error e
  else if isDigit c then scanNumber (c :: rest)
  else if c = '@' then scanPlaceholder rest
  else
    match scanSign? (c :: rest) with
    | some (s, rest) => .ok (sign s, rest)
    | none =>
      if isNameStart c then
        .ok (ofWord (String.ofList ((c :: rest).takeWhile isNamePart)),
          rest.dropWhile isNamePart)
      else .error (.strayCharacter c)

/-- What follows a token is shorter than the text that starts with it. -/
theorem scan_length {c : Char} {cs rest : List Char} {t : Token}
    (h : scan c cs = .ok (t, rest)) : rest.length ≤ cs.length := by
  unfold scan at h
  split at h
  · split at h
    · next hs =>
      simp only [Except.ok.injEq, Prod.mk.injEq] at h
      obtain ⟨-, rfl⟩ := h
      exact Nat.le_of_lt (scanString_length hs)
    · cases h
  · split at h
    · next hd =>
      have := scanNumber_length h
      rw [List.dropWhile_cons_of_pos hd] at this
      exact Nat.le_trans this (length_dropWhile_le _ _)
    · split at h
      · exact scanPlaceholder_length h
      · split at h
        · next hs =>
          simp only [Except.ok.injEq, Prod.mk.injEq] at h
          obtain ⟨-, rfl⟩ := h
          have := scanSign?_length hs
          simp only [List.length_cons] at this
          omega
        · split at h
          · simp only [Except.ok.injEq, Prod.mk.injEq] at h
            obtain ⟨-, rfl⟩ := h
            exact length_dropWhile_le _ _
          · cases h

/-- The first token of a text and what follows it; `none` where the text holds no more. -/
def next? (cs : List Char) : Except SyntaxError (Option (Token × List Char)) :=
  match cs.dropWhile isBlank with
  | [] => .ok none
  | c :: rest =>
    match scan c rest with
    | .ok token => .ok (some token)
    | .error e => .error e

theorem next?_length_lt {cs rest : List Char} {t : Token}
    (h : next? cs = .ok (some (t, rest))) : rest.length < cs.length := by
  unfold next? at h
  have blanks := length_dropWhile_le isBlank cs
  split at h
  · cases h
  · next hc =>
    rw [hc, List.length_cons] at blanks
    split at h
    · next hs =>
      simp only [Except.ok.injEq, Option.some.injEq] at h
      subst h
      exact Nat.lt_of_lt_of_le (Nat.lt_succ_of_le (scan_length hs)) blanks
    · cases h

end Token

namespace Tokens

/-- The tokens of a text, given as its characters. -/
def ofChars (cs : List Char) : Tokens :=
  match _ : Token.next? cs with
  | .ok none => done
  | .ok (some (t, rest)) => more t (ofChars rest)
  | .error e => broken e
termination_by cs.length
decreasing_by exact Token.next?_length_lt ‹_›

/-- The tokens of a text. -/
def ofText (text : String) : Tokens := ofChars text.toList

end Tokens

end LambdaQuery
