/-
**Spellings of tokens, and their reading.**  A token may be written in several ways: a string in
either quotes and with or without escapes, an operator by its sign or as a word.  Whatever the
spellings, tokens with blanks between them are read back as they were.

Main definitions:
* `Sign.spelling`, `Keyword.spelling`, `reserved` — the fixed texts of the language;
* `isName` — the texts that name things;
* `Token.Spelled` — the texts that a token may be written as;
* `Tokens.Spells` — a text made of spellings with blanks between them;
* `Tokens.ofList` — tokens that go on to the end of their text;
* `Token.write`, `Token.Writable` — one spelling of each token that has one.

Main results:
* `isNamePart_of_isBlank` — a blank ends a name;
* `Token.next?_of_spelled` — a spelling before a blank is cut off as its token;
* `Tokens.ofChars_of_spells` — **a text of spellings is read as the tokens they spell**;
* `Token.write_spelled` — what is written is a spelling.
-/

import LambdaQuery.Token.Lexer
import Mathlib

namespace LambdaQuery

open Text

/-! ### The fixed texts -/

/-- The text of a sign. -/
def Sign.spelling : Sign → List Char
  | plus => ['+']
  | minus => ['-']
  | star => ['*']
  | slash => ['/']
  | percent => ['%']
  | equal => ['=', '=']
  | assign => ['=']
  | notEqual => ['!', '=']
  | less => ['<']
  | lessEqual => ['<', '=']
  | greater => ['>']
  | greaterEqual => ['>', '=']
  | and => ['&', '&']
  | or => ['|', '|']
  | not => ['!']
  | ampersand => ['&']
  | question => ['?']
  | coalesce => ['?', '?']
  | arrow => ['=', '>']
  | dot => ['.']
  | comma => [',']
  | colon => [':']
  | leftParen => ['(']
  | rightParen => [')']
  | leftBrace => ['\x7b']
  | rightBrace => ['\x7d']

/-- The text of a keyword. -/
def Keyword.spelling : Keyword → List Char
  | trueWord => ['t', 'r', 'u', 'e']
  | falseWord => ['f', 'a', 'l', 's', 'e']
  | nullWord => ['n', 'u', 'l', 'l']
  | newWord => ['n', 'e', 'w']
  | asWord => ['a', 's']

/-- The words that are no names. -/
def reserved : List String := ["true", "false", "null", "new", "as", "and", "or", "not"]

/-- Is the text made like a name? -/
def isWord : List Char → Bool
  | [] => false
  | c :: cs => isNameStart c && cs.all isNamePart

/-- Is the text a name? -/
def isName (text : String) : Bool := isWord text.toList && !reserved.contains text

/-! ### Spellings -/

/-- A text as it may stand between quotes: each character as it is, behind a backslash, or as `\u`
and four hexadecimal digits. -/
inductive Quoted (quote : Char) : List Char → List Char → Prop
  | nil : Quoted quote [] []
  | plain {c : Char} {cs written : List Char} (hq : c ≠ quote) (hb : c ≠ '\\')
      (h : Quoted quote cs written) : Quoted quote (c :: cs) (c :: written)
  | escape {c e : Char} {cs written : List Char} (he : escaped? e = some c)
      (h : Quoted quote cs written) : Quoted quote (c :: cs) ('\\' :: e :: written)
  | code {c d₁ d₂ d₃ d₄ : Char} {n : Nat} {cs written : List Char}
      (hn : hexCode? d₁ d₂ d₃ d₄ = some n) (hc : charOfCode? n = some c)
      (h : Quoted quote cs written) :
      Quoted quote (c :: cs) ('\\' :: 'u' :: d₁ :: d₂ :: d₃ :: d₄ :: written)

/-- One or more digits that write a number. -/
structure Digits (n : Nat) (written : List Char) : Prop where
  nonempty : written ≠ []
  digits : ∀ c ∈ written, isDigit c = true
  value : digitsValue written = n

/-- The texts that a token may be written as. -/
inductive Token.Spelled : Token → List Char → Prop
  | string {quote : Char} {cs written : List Char} (hq : quote = '"' ∨ quote = '\'')
      (h : Quoted quote cs written) :
      Spelled (.string (String.ofList cs)) (quote :: (written ++ [quote]))
  | integer {n : Nat} {written : List Char} (h : Digits n written) (hn : n < 2 ^ 63) :
      Spelled (.integer n) written
  | long {n : Nat} {written : List Char} {suffix : Char} (h : Digits n written) (hn : n < 2 ^ 63)
      (hs : suffix = 'L' ∨ suffix = 'l') : Spelled (.long n) (written ++ [suffix])
  | name {cs : List Char} (h : isName (String.ofList cs) = true) :
      Spelled (.name (String.ofList cs)) cs
  | positional {n : Nat} {written : List Char} (h : Digits n written) (hn : n < 2 ^ 64) :
      Spelled (.positional n) ('@' :: written)
  /-- Behind `@` a reserved word is a name. -/
  | named {cs : List Char} (h : isWord cs = true) : Spelled (.named (String.ofList cs)) ('@' :: cs)
  | keyword (k : Keyword) : Spelled (.keyword k) k.spelling
  | sign (s : Sign) : Spelled (.sign s) s.spelling
  | unequal : Spelled (.sign .notEqual) ['<', '>']
  | andWord : Spelled (.sign .and) ['a', 'n', 'd']
  | orWord : Spelled (.sign .or) ['o', 'r']
  | notWord : Spelled (.sign .not) ['n', 'o', 't']

/-- Is the text at its end, or does it go on with a blank? -/
def Separated (cs : List Char) : Prop := ∀ c ∈ cs.head?, isBlank c = true

/-- A text that spells tokens in order, with one or more blanks between them. -/
inductive Tokens.Spells : List Char → List Token → Prop
  | nil {blanks : List Char} (hb : ∀ c ∈ blanks, isBlank c = true) : Spells blanks []
  | cons {blanks word rest : List Char} {t : Token} {ts : List Token}
      (hb : ∀ c ∈ blanks, isBlank c = true) (ht : t.Spelled word) (hs : Separated rest)
      (h : Spells rest ts) : Spells (blanks ++ (word ++ rest)) (t :: ts)

/-- Tokens that go on to the end of their text. -/
def Tokens.ofList : List Token → Tokens
  | [] => done
  | t :: ts => more t (ofList ts)

/-! ### Classes of characters -/

/-- The code points of the blanks. -/
def blankCodes : List Nat :=
  [0x9, 0xa, 0xb, 0xc, 0xd, 0x20, 0x85, 0xa0, 0x1680, 0x2000, 0x2001, 0x2002, 0x2003, 0x2004,
   0x2005, 0x2006, 0x2007, 0x2008, 0x2009, 0x200a, 0x2028, 0x2029, 0x202f, 0x205f, 0x3000]

/-- A class holds a code point that lies within one of its ranges only. -/
theorem mem_of_holds {rs : Ranges} {n : Nat} (h : rs.holds n = true) :
    ∃ r ∈ rs, r.1 ≤ n ∧ n ≤ r.2 := by
  induction rs with
  | nil => exact absurd h (by simp [Ranges.holds])
  | cons r rs ih =>
      simp only [Ranges.holds] at h
      split at h
      · cases h
      · next hr =>
        rcases (Bool.or_eq_true _ _).mp h with hn | hn
        · exact ⟨r, by simp, by omega, of_decide_eq_true hn⟩
        · obtain ⟨r', hr', hb⟩ := ih hn
          exact ⟨r', List.mem_cons_of_mem _ hr', hb⟩

theorem holds_of_first {first last n : Nat} {rest : Ranges} (hf : first ≤ n) (hl : n ≤ last) :
    Ranges.holds ((first, last) :: rest) n = true := by
  simp [Ranges.holds, hl, Nat.not_lt.mpr hf]

theorem mem_blankCodes {n : Nat} (h : blankRanges.holds n = true) : n ∈ blankCodes := by
  obtain ⟨r, hr, hn⟩ := mem_of_holds h
  simp only [blankRanges, List.mem_cons, List.not_mem_nil, or_false] at hr
  simp only [blankCodes, List.mem_cons, List.not_mem_nil, or_false]
  rcases hr with rfl | rfl | rfl | rfl | rfl | rfl | rfl | rfl | rfl | rfl <;> dsimp at hn <;> omega

theorem not_alphanumeric_of_mem_blankCodes : ∀ n ∈ blankCodes,
    letterRanges.holds n = false ∧ numeralRanges.holds n = false ∧ n ≠ '_'.toNat := by
  decide +kernel

/-- **A blank ends a name.** -/
theorem isNamePart_of_isBlank {c : Char} (h : isBlank c = true) : isNamePart c = false := by
  obtain ⟨hl, hn, hu⟩ := not_alphanumeric_of_mem_blankCodes c.toNat (mem_blankCodes h)
  have hc : c ≠ '_' := fun e => hu (congrArg Char.toNat e)
  simp [isNamePart, isAlphanumeric, isLetter, isNumeral, hl, hn, hc]

theorem isNamePart_of_isNameStart {c : Char} (h : isNameStart c = true) : isNamePart c = true := by
  simp only [isNameStart, isNamePart, isAlphanumeric, Bool.or_eq_true] at h ⊢
  rcases h with h | h
  · exact .inl (.inl h)
  · exact .inr h

/-- The digits have the code points 48 to 57. -/
theorem toNat_of_isDigit {c : Char} (h : isDigit c = true) : 48 ≤ c.toNat ∧ c.toNat ≤ 57 := by
  simp only [isDigit, Bool.and_eq_true, decide_eq_true_eq] at h
  exact h

theorem isNamePart_of_isDigit {c : Char} (h : isDigit c = true) : isNamePart c = true := by
  have hc := toNat_of_isDigit h
  have hn : isNumeral c = true := holds_of_first hc.1 hc.2
  simp [isNamePart, isAlphanumeric, hn]

theorem isNameStart_of_isDigit {c : Char} (h : isDigit c = true) : isNameStart c = false := by
  have hc := toNat_of_isDigit h
  have hl : isLetter c = false := Ranges.holds_eq_false_of_lt (by omega)
  have hu : c ≠ '_' := by
    rintro rfl
    exact absurd hc.2 (by decide)
  simp [isNameStart, hl, hu]

/-- What starts no sign's text: quotes, `@`, digits, blanks and names. -/
structure OpensSign (c : Char) : Prop where
  quote : ¬(c = '"' ∨ c = '\'')
  placeholder : c ≠ '@'
  digit : isDigit c = false
  blank : isBlank c = false
  nameStart : isNameStart c = false

theorem opensSign_of_charSign? {c : Char} {s : Sign} (h : charSign? c = some s) : OpensSign c := by
  unfold charSign? at h
  split at h <;>
    first | cases h; done | exact ⟨by decide, by decide, by decide, by decide, by decide⟩

theorem opensSign_of_pairSign? {c d : Char} {s : Sign} (h : pairSign? c d = some s) :
    OpensSign c := by
  unfold pairSign? at h
  split at h <;>
    first | cases h; done | exact ⟨by decide, by decide, by decide, by decide, by decide⟩

theorem pairSign?_of_isBlank {c d : Char} (h : isBlank d = true) : pairSign? c d = none := by
  unfold pairSign?
  split <;> first | rfl | exact absurd h (by decide)

/-- No sign starts as a name does. -/
theorem scanSign?_of_isNameStart {c : Char} {cs : List Char} (h : isNameStart c = true) :
    scanSign? (c :: cs) = none := by
  have single : charSign? c = none := by
    rw [Option.eq_none_iff_forall_ne_some]
    intro s hc
    exact absurd h (by simp [(opensSign_of_charSign? hc).nameStart])
  have double : ∀ d, pairSign? c d = none := by
    intro d
    rw [Option.eq_none_iff_forall_ne_some]
    intro s hc
    exact absurd h (by simp [(opensSign_of_pairSign? hc).nameStart])
  cases cs with
  | nil => simp [scanSign?, single]
  | cons d cs => simp [scanSign?, single, double]

/-! ### Runs of characters -/

/-- A run of characters ends where a character follows that does not belong to it. -/
theorem takeWhile_append_of_head {p : Char → Bool} {cs rest : List Char}
    (hcs : ∀ c ∈ cs, p c = true) (hr : ∀ c ∈ rest.head?, p c = false) :
    (cs ++ rest).takeWhile p = cs ∧ (cs ++ rest).dropWhile p = rest := by
  rw [List.takeWhile_append_of_pos hcs, List.dropWhile_append_of_pos hcs]
  cases rest with
  | nil => simp
  | cons c rest =>
      have hc : p c = false := hr c rfl
      simp [hc]

theorem Separated.name {rest : List Char} (hs : Separated rest) :
    ∀ c ∈ rest.head?, isNamePart c = false :=
  fun c hc => isNamePart_of_isBlank (hs c hc)

theorem isDigit_of_isBlank {c : Char} (h : isBlank c = true) : isDigit c = false := by
  rw [Bool.eq_false_iff]
  intro hd
  exact absurd (isNamePart_of_isDigit hd) (by simp [isNamePart_of_isBlank h])

theorem isBlank_of_isDigit {c : Char} (h : isDigit c = true) : isBlank c = false := by
  rw [Bool.eq_false_iff]
  intro hb
  exact absurd h (by simp [isDigit_of_isBlank hb])

theorem isBlank_of_isNameStart {c : Char} (h : isNameStart c = true) : isBlank c = false := by
  rw [Bool.eq_false_iff]
  intro hb
  exact absurd (isNamePart_of_isNameStart h) (by simp [isNamePart_of_isBlank hb])

theorem isDigit_of_isNameStart {c : Char} (h : isNameStart c = true) : isDigit c = false := by
  rw [Bool.eq_false_iff]
  intro hd
  exact absurd h (by simp [isNameStart_of_isDigit hd])

/-! ### Strings -/

/-- A string is read up to its closing quote. -/
theorem scanString_of_quoted {quote : Char} (hq : quote ≠ '\\') {cs written : List Char}
    (h : Quoted quote cs written) (rest : List Char) :
    scanString quote (written ++ quote :: rest) = .ok (cs, rest) := by
  induction h with
  | nil =>
      rw [List.nil_append, scanString.eq_def]
      simp
  | plain hc hb _ ih =>
      rw [List.cons_append, scanString.eq_def]
      simp [hc, hb, ih, prepend]
  | @escape c e cs written he _ ih =>
      -- a `u` opens the longer escape, and is no escape of one character
      have hu : e ≠ 'u' := by
        rintro rfl
        cases he
      rw [List.cons_append, List.cons_append, scanString.eq_def]
      simp [hq.symm, he, ih, prepend]
  | code hn hc _ ih =>
      rw [List.cons_append, List.cons_append, scanString.eq_def]
      simp [hq.symm, hn, hc, ih, prepend]

/-! ### Numbers -/

/-- What writes a number starts with a digit. -/
theorem Digits.exists_cons {n : Nat} {written : List Char} (h : Digits n written) :
    ∃ c cs, written = c :: cs ∧ isDigit c = true := by
  obtain ⟨c, cs, hcs⟩ := List.exists_cons_of_ne_nil h.nonempty
  exact ⟨c, cs, hcs, h.digits c (by simp [hcs])⟩

theorem Digits.append_separated {n : Nat} {written rest : List Char} (h : Digits n written)
    (hs : Separated rest) :
    (written ++ rest).takeWhile isDigit = written ∧ (written ++ rest).dropWhile isDigit = rest :=
  takeWhile_append_of_head h.digits fun c hc => isDigit_of_isBlank (hs c hc)

/-- Where neither a fraction nor an exponent nor another digit follows, a number ends. -/
theorem scanLiteral_of_digits {n : Nat} {written rest : List Char} (h : Digits n written)
    (hr : ∀ c ∈ rest.head?, isBlank c = true ∨ c = 'L' ∨ c = 'l') :
    scanLiteral (written ++ rest) = .ok (⟨written, written, none, none⟩, rest) := by
  have hd : (written ++ rest).takeWhile isDigit = written ∧
      (written ++ rest).dropWhile isDigit = rest := by
    rw [List.takeWhile_append_of_pos h.digits, List.dropWhile_append_of_pos h.digits]
    cases rest with
    | nil => simp
    | cons c rest =>
        have hc : isDigit c = false := by
          rcases hr c rfl with hb | rfl | rfl
          · exact isDigit_of_isBlank hb
          · decide
          · decide
        simp [hc]
  -- a fraction would open with a point, and an exponent with a letter of its own
  have hf : scanFraction rest = none := by
    unfold scanFraction
    split
    · rcases hr '.' rfl with hb | hl | hl
      · exact absurd hb (by decide)
      · exact absurd hl (by decide)
      · exact absurd hl (by decide)
    · rfl
  have he : scanExponent rest = .ok none := by
    cases rest with
    | nil => rfl
    | cons c rest =>
        have hc : ¬(c = 'e' ∨ c = 'E') := by
          rintro (rfl | rfl) <;> exact absurd (hr _ rfl) (by decide)
        simp [scanExponent, hc]
  simp [scanLiteral, scanMantissa, hd, hf, he]

theorem scanNumber_integer {n : Nat} {written rest : List Char} (h : Digits n written)
    (hn : n < 2 ^ 63) (hs : Separated rest) :
    scanNumber (written ++ rest) = .ok (.integer n, rest) := by
  have hl := scanLiteral_of_digits h fun c hc => .inl (hs c hc)
  have hw : (Literal.mk written written none none).toWhole .integer = .ok (.integer n) := by
    simp only [Literal.toWhole, h.value]
    exact if_pos hn
  simp only [scanNumber, hl]
  cases rest with
  | nil => simp [Literal.token, Literal.finish, Literal.isFloat, hw]
  | cons c rest =>
      have hc : isBlank c = true := hs c rfl
      have hL : ¬(c = 'L' ∨ c = 'l') := by
        rintro (rfl | rfl) <;> exact absurd hc (by decide)
      have hf : isFloatSuffix c = false := by
        simp only [isFloatSuffix, Bool.or_eq_false_iff, beq_eq_false_iff_ne]
        refine ⟨⟨⟨⟨⟨?_, ?_⟩, ?_⟩, ?_⟩, ?_⟩, ?_⟩ <;> rintro rfl <;> exact absurd hc (by decide)
      simp [Literal.token, Literal.finish, Literal.isFloat, hL, hf, isNamePart_of_isBlank hc, hw]

theorem scanNumber_long {n : Nat} {written rest : List Char} {suffix : Char} (h : Digits n written)
    (hn : n < 2 ^ 63) (hs : suffix = 'L' ∨ suffix = 'l') :
    scanNumber (written ++ suffix :: rest) = .ok (.long n, rest) := by
  have hl : scanLiteral (written ++ suffix :: rest) =
      .ok (⟨written, written, none, none⟩, suffix :: rest) :=
    scanLiteral_of_digits h fun c hc => by
      obtain rfl : suffix = c := by simpa using hc
      exact .inr hs
  have hw : (Literal.mk written written none none).toWhole .long = .ok (.long n) := by
    simp only [Literal.toWhole, h.value]
    exact if_pos hn
  simp [scanNumber, hl, Literal.token, Literal.isFloat, hs, hw]

/-! ### Signs, placeholders and words -/

/-- A sign is told from a longer one by the blank behind it. -/
theorem scanSign?_spelling (s : Sign) {rest : List Char} (hs : Separated rest) :
    scanSign? (s.spelling ++ rest) = some (s, rest) := by
  have single : ∀ {c}, charSign? c = some s → scanSign? (c :: rest) = some (s, rest) := by
    intro c hc
    cases rest with
    | nil => simp [scanSign?, hc]
    | cons d rest => simp [scanSign?, hc, pairSign?_of_isBlank (hs d rfl)]
  cases s with
  | equal | notEqual | lessEqual | greaterEqual | and | or | coalesce | arrow => rfl
  | _ => exact single rfl

/-- A text that starts with a sign is scanned for signs. -/
theorem Token.scan_of_scanSign? {c : Char} {cs rest : List Char} {s : Sign}
    (h : scanSign? (c :: cs) = some (s, rest)) :
    OpensSign c ∧ scan c cs = .ok (.sign s, rest) := by
  have hc : OpensSign c := by
    cases cs with
    | nil =>
        obtain ⟨s', hc, -⟩ := Option.map_eq_some_iff.mp h
        exact opensSign_of_charSign? hc
    | cons d cs =>
        cases hp : pairSign? c d with
        | some s' => exact opensSign_of_pairSign? hp
        | none =>
            simp only [scanSign?, hp] at h
            obtain ⟨s', hc, -⟩ := Option.map_eq_some_iff.mp h
            exact opensSign_of_charSign? hc
  refine ⟨hc, ?_⟩
  simp [scan, hc.quote, hc.placeholder, hc.digit, h]

theorem isWord_cons {c : Char} {cs : List Char} :
    isWord (c :: cs) = true ↔ isNameStart c = true ∧ ∀ d ∈ cs, isNamePart d = true := by
  simp [isWord]

/-- A word ends where no part of a name follows. -/
theorem isWord_append {c : Char} {cs rest : List Char} (h : isWord (c :: cs) = true)
    (hr : ∀ d ∈ rest.head?, isNamePart d = false) :
    (c :: cs ++ rest).takeWhile isNamePart = c :: cs ∧
      (c :: cs ++ rest).dropWhile isNamePart = rest := by
  obtain ⟨hc, hcs⟩ := isWord_cons.mp h
  refine takeWhile_append_of_head ?_ hr
  intro d hd
  rcases List.mem_cons.mp hd with rfl | hd
  · exact isNamePart_of_isNameStart hc
  · exact hcs d hd

/-- A word is scanned as what it stands for. -/
theorem Token.scan_word {c : Char} {cs rest : List Char} (h : isWord (c :: cs) = true)
    (hr : ∀ d ∈ rest.head?, isNamePart d = false) :
    scan c (cs ++ rest) = .ok (ofWord (String.ofList (c :: cs)), rest) := by
  obtain ⟨hc, -⟩ := isWord_cons.mp h
  obtain ⟨ht, hrest⟩ := isWord_append h hr
  have hq : ¬(c = '"' ∨ c = '\'') := by
    rintro (rfl | rfl) <;> exact absurd hc (by decide)
  have hp : c ≠ '@' := by
    rintro rfl
    exact absurd hc (by decide)
  have hd := isDigit_of_isNameStart hc
  rw [List.cons_append] at ht hrest
  rw [List.dropWhile_cons_of_pos (isNamePart_of_isNameStart hc)] at hrest
  simp [scan, hq, hp, hd, scanSign?_of_isNameStart hc, hc, ht, hrest]

/-- A word that is not reserved stands for a name. -/
theorem Token.ofWord_of_isName {text : String} (h : isName text = true) :
    ofWord text = .name text := by
  simp only [isName, reserved, Bool.and_eq_true, Bool.not_eq_true', List.contains_eq_mem,
    decide_eq_false_iff_not, List.mem_cons, not_or] at h
  unfold ofWord
  split <;> simp_all

/-- A text that starts with a digit is scanned for a number. -/
theorem Token.scan_of_isDigit {c : Char} {cs : List Char} (h : isDigit c = true) :
    scan c cs = scanNumber (c :: cs) := by
  have hq : ¬(c = '"' ∨ c = '\'') := by
    rintro (rfl | rfl) <;> exact absurd h (by decide)
  simp [scan, hq, h]

theorem Token.scan_placeholder (cs : List Char) : scan '@' cs = scanPlaceholder cs := by
  simp [scan, show isDigit '@' = false by decide]

/-! ### One token -/

/-- How a text before a blank is cut off as a token: by the scan from its first character, which is
no blank. -/
def Token.ScansAs (word : List Char) (t : Token) : Prop :=
  ∀ rest, Separated rest →
    ∃ c cs, word = c :: cs ∧ isBlank c = false ∧ scan c (cs ++ rest) = .ok (t, rest)

namespace Token.ScansAs

theorem string {quote : Char} {cs written : List Char} (hq : quote = '"' ∨ quote = '\'')
    (h : Quoted quote cs written) :
    ScansAs (quote :: (written ++ [quote])) (.string (String.ofList cs)) := by
  intro rest _
  have hb : quote ≠ '\\' := by
    rintro rfl
    exact absurd hq (by decide)
  have hblank : isBlank quote = false := by
    rcases hq with rfl | rfl <;> decide
  refine ⟨quote, written ++ [quote], rfl, hblank, ?_⟩
  simp [scan, hq, scanString_of_quoted hb h rest]

theorem number {n : Nat} {written rest : List Char} {t : Token} (h : Digits n written)
    (tail : List Char) (hs : scanNumber (written ++ (tail ++ rest)) = .ok (t, rest)) :
    ∃ c cs, written ++ tail = c :: cs ∧ isBlank c = false ∧
      scan c (cs ++ rest) = .ok (t, rest) := by
  obtain ⟨c, cs, rfl, hc⟩ := h.exists_cons
  refine ⟨c, cs ++ tail, rfl, isBlank_of_isDigit hc, ?_⟩
  rw [scan_of_isDigit hc, List.append_assoc]
  exact hs

theorem integer {n : Nat} {written : List Char} (h : Digits n written) (hn : n < 2 ^ 63) :
    ScansAs written (.integer n) := by
  intro rest hs
  have := number h [] (scanNumber_integer h hn hs)
  rwa [List.append_nil] at this

theorem long {n : Nat} {written : List Char} {suffix : Char} (h : Digits n written)
    (hn : n < 2 ^ 63) (hx : suffix = 'L' ∨ suffix = 'l') :
    ScansAs (written ++ [suffix]) (.long n) := by
  intro rest _
  exact number h [suffix] (scanNumber_long h hn hx)

theorem positional {n : Nat} {written : List Char} (h : Digits n written) (hn : n < 2 ^ 64) :
    ScansAs ('@' :: written) (.positional n) := by
  intro rest hs
  obtain ⟨ht, hd⟩ := h.append_separated hs
  refine ⟨'@', written, rfl, by decide, ?_⟩
  obtain ⟨c, cs, rfl, hc⟩ := h.exists_cons
  rw [scan_placeholder]
  rw [List.cons_append] at ht hd ⊢
  simp only [scanPlaceholder, hc, if_true, ht, hd, h.value]
  exact if_pos hn

theorem named {cs : List Char} (h : isWord cs = true) :
    ScansAs ('@' :: cs) (.named (String.ofList cs)) := by
  intro rest hs
  refine ⟨'@', cs, rfl, by decide, ?_⟩
  cases cs with
  | nil => exact absurd h (by decide)
  | cons c cs =>
      obtain ⟨hc, -⟩ := isWord_cons.mp h
      obtain ⟨ht, hd⟩ := isWord_append h hs.name
      have hdigit := isDigit_of_isNameStart hc
      rw [scan_placeholder]
      rw [List.cons_append] at ht hd ⊢
      simp [scanPlaceholder, hdigit, hc, ht, hd]

theorem sign (s : Sign) : ScansAs s.spelling (.sign s) := by
  intro rest hs
  have h := scanSign?_spelling s hs
  cases hw : s.spelling with
  | nil => cases s <;> cases hw
  | cons c cs =>
      rw [hw, List.cons_append] at h
      obtain ⟨hc, hscan⟩ := scan_of_scanSign? h
      exact ⟨c, cs, rfl, hc.blank, hscan⟩

theorem word {cs : List Char} (h : isWord cs = true) : ScansAs cs (ofWord (String.ofList cs)) := by
  intro rest hs
  cases cs with
  | nil => exact absurd h (by decide)
  | cons c cs =>
      exact ⟨c, cs, rfl, isBlank_of_isNameStart (isWord_cons.mp h).1, scan_word h hs.name⟩

end Token.ScansAs

/-- Every spelling of a token is scanned as the token. -/
theorem Token.Spelled.scansAs {t : Token} {word : List Char} (h : t.Spelled word) :
    Token.ScansAs word t := by
  cases h with
  | string hq h => exact .string hq h
  | integer h hn => exact .integer h hn
  | long h hn hx => exact .long h hn hx
  | name h =>
      have hw : isWord word = true := by
        simp only [isName, String.toList_ofList, Bool.and_eq_true] at h
        exact h.1
      have := ScansAs.word hw
      rwa [ofWord_of_isName h] at this
  | positional h hn => exact .positional h hn
  | named h => exact .named h
  | keyword k => cases k <;> exact ScansAs.word (by decide)
  | sign s => exact .sign s
  | unequal => exact fun rest _ => ⟨'<', ['>'], rfl, by decide, rfl⟩
  | andWord | orWord | notWord => exact ScansAs.word (by decide)

/-- **A spelling before a blank is cut off as its token**, with the blanks before it. -/
theorem Token.next?_of_spelled {t : Token} {blanks word rest : List Char}
    (hb : ∀ c ∈ blanks, isBlank c = true) (ht : t.Spelled word) (hs : Separated rest) :
    next? (blanks ++ (word ++ rest)) = .ok (some (t, rest)) := by
  obtain ⟨c, cs, rfl, hc, hscan⟩ := ht.scansAs rest hs
  have hd : (blanks ++ (c :: cs ++ rest)).dropWhile isBlank = c :: (cs ++ rest) := by
    rw [List.dropWhile_append_of_pos hb, List.cons_append]
    exact List.dropWhile_cons_of_neg (by simp [hc])
  simp only [next?, hd, hscan]

/-! ### All tokens -/

namespace Tokens

theorem ofChars_of_next?_none {cs : List Char} (h : Token.next? cs = .ok none) :
    ofChars cs = done := by
  rw [ofChars]
  split <;> simp_all

theorem ofChars_of_next?_some {cs rest : List Char} {t : Token}
    (h : Token.next? cs = .ok (some (t, rest))) : ofChars cs = more t (ofChars rest) := by
  rw [ofChars]
  split <;> simp_all

theorem ofChars_of_next?_error {cs : List Char} {e : SyntaxError}
    (h : Token.next? cs = .error e) : ofChars cs = broken e := by
  rw [ofChars]
  split <;> simp_all

/-- **A text of spellings is read as the tokens they spell.** -/
theorem ofChars_of_spells {cs : List Char} {ts : List Token} (h : Spells cs ts) :
    ofChars cs = ofList ts := by
  induction h with
  | @nil blanks hb =>
      refine ofChars_of_next?_none ?_
      have hd : blanks.dropWhile isBlank = [] := by
        rw [← List.append_nil blanks, List.dropWhile_append_of_pos hb]
        rfl
      simp only [Token.next?, hd]
  | cons hb ht hs _ ih =>
      rw [ofChars_of_next?_some (Token.next?_of_spelled hb ht hs), ih]
      rfl

end Tokens

/-! ### One spelling of each token -/

/-- A character between double quotes. -/
def escapedInQuotes (c : Char) : List Char := if c = '"' ∨ c = '\\' then ['\\', c] else [c]

namespace Token

/-- Has the token a spelling?  Numbers are bounded, names are made of letters and digits, and
doubles are left out. -/
def Writable : Token → Prop
  | integer n => n < 2 ^ 63
  | long n => n < 2 ^ 63
  | float _ => False
  | name text => isName text = true
  | positional n => n < 2 ^ 64
  | named text => isWord text.toList = true
  | _ => True

/-- The plainest spelling of a token that has one. -/
def write : Token → List Char
  | string text => '"' :: (text.toList.flatMap escapedInQuotes ++ ['"'])
  | integer n => Nat.toDigits 10 n
  | long n => Nat.toDigits 10 n ++ ['L']
  | float _ => []
  | name text => text.toList
  | positional n => '@' :: Nat.toDigits 10 n
  | named text => '@' :: text.toList
  | keyword k => k.spelling
  | sign s => s.spelling

end Token

theorem Quoted.of_text (cs : List Char) : Quoted '"' cs (cs.flatMap escapedInQuotes) := by
  induction cs with
  | nil => exact .nil
  | cons c cs ih =>
      rw [List.flatMap_cons]
      by_cases hc : c = '"' ∨ c = '\\'
      · rw [escapedInQuotes, if_pos hc]
        rcases hc with rfl | rfl
        · exact .escape rfl ih
        · exact .escape rfl ih
      · rw [escapedInQuotes, if_neg hc]
        obtain ⟨hq, hb⟩ := not_or.mp hc
        exact .plain hq hb ih

theorem Digits.toDigits (n : Nat) : Digits n (Nat.toDigits 10 n) where
  nonempty := Nat.toDigits_ne_nil
  digits := by
    intro c hc
    have h : c.isDigit = true := Nat.isDigit_of_mem_toDigits (by decide) (by decide) hc
    simp only [Char.isDigit, Bool.and_eq_true, decide_eq_true_eq] at h
    simp only [isDigit, Bool.and_eq_true, decide_eq_true_eq]
    exact h
  value := by
    have h : digitsValue (Nat.toDigits 10 n) = Nat.ofDigitChars 10 (Nat.toDigits 10 n) 0 := by
      rw [Nat.ofDigitChars_eq_foldl, digitsValue]
    rw [h]
    exact Nat.ofDigitChars_toDigits (by decide) (by decide)

/-- **What is written is a spelling.** -/
theorem Token.write_spelled {t : Token} (h : t.Writable) : t.Spelled t.write := by
  cases t with
  | string text =>
      have := Spelled.string (.inl rfl) (Quoted.of_text text.toList)
      rwa [String.ofList_toList] at this
  | integer n => exact .integer (.toDigits n) h
  | long n => exact .long (.toDigits n) h (.inl rfl)
  | float x => exact h.elim
  | name text =>
      have := @Spelled.name text.toList (by rwa [String.ofList_toList])
      rwa [String.ofList_toList] at this
  | positional n => exact .positional (.toDigits n) h
  | named text =>
      have := @Spelled.named text.toList h
      rwa [String.ofList_toList] at this
  | keyword k => exact .keyword k
  | sign s => exact .sign s

namespace Tokens

/-- Tokens with a space between them. -/
def write : List Token → List Char
  | [] => []
  | [t] => t.write
  | t :: u :: ts => t.write ++ ' ' :: write (u :: ts)

theorem spells_write (ts : List Token) (h : ∀ t ∈ ts, t.Writable) : Spells (write ts) ts := by
  -- each token but the first has the space before it
  suffices hb : ∀ blanks : List Char, (∀ c ∈ blanks, isBlank c = true) →
      Spells (blanks ++ write ts) ts by
    exact hb [] (by simp)
  induction ts with
  | nil =>
      intro blanks hb
      rw [write, List.append_nil]
      exact .nil hb
  | cons t ts ih =>
      intro blanks hb
      have ht : t.Spelled t.write := Token.write_spelled (h t List.mem_cons_self)
      cases ts with
      | nil =>
          rw [write, ← List.append_nil t.write]
          exact .cons hb ht (by simp [Separated]) (.nil (by simp))
      | cons u ts =>
          have hspace : ∀ c ∈ [' '], isBlank c = true := by simp; decide
          have hrest := ih (fun v hv => h v (List.mem_cons_of_mem _ hv)) [' '] hspace
          refine .cons hb ht ?_ hrest
          intro c hc
          obtain rfl : ' ' = c := by simpa using hc
          decide

end Tokens

end LambdaQuery
