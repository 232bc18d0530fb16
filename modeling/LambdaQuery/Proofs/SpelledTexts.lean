/-
**Lexing undoes spelling.**  A text that writes tokens one after the other, with blanks between
them, is cut into those tokens and no others, and then it is at its end.  What a spelling leaves
open does not matter: the quotes of a string, which of its characters are written by their code
points and in which case, the suffix of a number, an operator as a sign or as a word, the blanks.

Main definitions:
* `Text.hexQuad` — four hexadecimal digits, each in either case;
* `Sign.spellings` — the texts of a sign;
* `Token.Spelling` — a token with the choices that its spelling leaves open;
* `Token.Spelling.token`, `Token.Spelling.write` — the token and the text that it is written as;
* `Token.Spelling.Valid` — the tokens that have a text, and the choices that there are.

Main results:
* `Text.hexCode?_hexQuad`, `Text.charOfCode?_toNat` — a code point is read back;
* `Token.Spelling.spelled` — what is written is a spelling of the token;
* `Tokens.lexing_undoes_spelling` — **the tokens of the text are those that it spells**.
-/

import LambdaQuery.Proofs.TokenSpelling

namespace LambdaQuery

open Text

/-! ### Code points -/

namespace Text

/-- A hexadecimal digit in upper or lower case. -/
def hexDigit (upper : Bool) (d : Nat) : Char :=
  if upper then (Nat.digitChar d).toUpper else Nat.digitChar d

/-- The four hexadecimal digits of a number below `16 ^ 4`, and which of them are in upper case. -/
def hexQuad (upper : Fin 4 → Bool) (n : Nat) : List Char :=
  [hexDigit (upper 0) (n / 4096), hexDigit (upper 1) (n / 256 % 16),
    hexDigit (upper 2) (n / 16 % 16), hexDigit (upper 3) (n % 16)]

theorem hexValue?_hexDigit : ∀ (upper : Bool), ∀ d < 16, hexValue? (hexDigit upper d) = some d := by
  decide

theorem hexCode?_hexQuad {n : Nat} (upper : Fin 4 → Bool) (h : n < 0x10000) :
    hexCode? (hexDigit (upper 0) (n / 4096)) (hexDigit (upper 1) (n / 256 % 16))
      (hexDigit (upper 2) (n / 16 % 16)) (hexDigit (upper 3) (n % 16)) = some n := by
  have hvalue : ((n / 4096 * 16 + n / 256 % 16) * 16 + n / 16 % 16) * 16 + n % 16 = n := by omega
  have hlast {k : Nat} (i : Fin 4) : hexValue? (hexDigit (upper i) (k % 16)) = some (k % 16) :=
    hexValue?_hexDigit _ _ (Nat.mod_lt _ (by decide))
  simp only [hexCode?, hexValue?_hexDigit _ _ (show n / 4096 < 16 by omega), hlast]
  exact congrArg some hvalue

/-- The code point of a character names the character. -/
theorem charOfCode?_toNat (c : Char) : charOfCode? c.toNat = some c := by
  have hvalid : c.toNat.isValidChar := c.valid
  rw [charOfCode?, dif_pos hvalid]
  rfl

end Text

/-! ### Spellings -/

/-- The texts of a sign: its own, and for some a word or another sign. -/
def Sign.spellings (s : Sign) : List (List Char) :=
  match s with
  | and => [s.spelling, ['a', 'n', 'd']]
  | or => [s.spelling, ['o', 'r']]
  | not => [s.spelling, ['n', 'o', 't']]
  | notEqual => [s.spelling, ['<', '>']]
  | _ => [s.spelling]

/-- A character between quotes: by its code point, behind a backslash if it is one or the quote, or
as it is. -/
def writeBetween (quote : Char) (c : Char) (code : Option (Fin 4 → Bool)) : List Char :=
  match code with
  | some upper => '\\' :: 'u' :: hexQuad upper c.toNat
  | none => if c = quote ∨ c = '\\' then ['\\', c] else [c]

namespace Token

/-- A token with the choices that its spelling leaves open. -/
inductive Spelling
  /-- The quote, and the characters; one that is written by its code point with the case of each of
  the four digits. -/
  | string (quote : Char) (content : List (Char × Option (Fin 4 → Bool)))
  | integer (n : Nat)
  | long (n : Nat) (suffix : Char)
  | name (text : String)
  | positional (n : Nat)
  | named (text : String)
  | keyword (k : Keyword)
  /-- The sign and the one of its texts that is written. -/
  | sign (s : Sign) (text : List Char)

namespace Spelling

/-- The token that is written. -/
def token : Spelling → Token
  | string _ content => .string (String.ofList (content.map (·.1)))
  | integer n => .integer n
  | long n _ => .long n
  | name text => .name text
  | positional n => .positional n
  | named text => .named text
  | keyword k => .keyword k
  | sign s _ => .sign s

/-- The text of the token. -/
def write : Spelling → List Char
  | string quote content =>
    quote :: (content.flatMap (fun p => writeBetween quote p.1 p.2) ++ [quote])
  | integer n => Nat.toDigits 10 n
  | long n suffix => Nat.toDigits 10 n ++ [suffix]
  | name text => text.toList
  | positional n => '@' :: Nat.toDigits 10 n
  | named text => '@' :: text.toList
  | keyword k => k.spelling
  | sign _ text => text

/-- The tokens that have a text and the choices that there are: numbers fit their width, a name is
no reserved word, strings have one of two quotes, four digits are a code point below `16 ^ 4`. -/
def Valid : Spelling → Prop
  | string quote content =>
    (quote = '"' ∨ quote = '\'') ∧ ∀ p ∈ content, p.2.isSome → p.1.toNat < 0x10000
  | integer n => n < 2 ^ 63
  | long n suffix => n < 2 ^ 63 ∧ (suffix = 'L' ∨ suffix = 'l')
  | name text => isName text = true
  | positional n => n < 2 ^ 64
  | named text => isWord text.toList = true
  | keyword _ => True
  | sign s text => text ∈ s.spellings

end Spelling

end Token

/-! ### What is written is a spelling -/

theorem Quoted.written {quote : Char} (hq : quote = '"' ∨ quote = '\'')
    {content : List (Char × Option (Fin 4 → Bool))}
    (h : ∀ p ∈ content, p.2.isSome → p.1.toNat < 0x10000) :
    Quoted quote (content.map (·.1)) (content.flatMap fun p => writeBetween quote p.1 p.2) := by
  induction content with
  | nil => exact .nil
  | cons p content ih =>
      obtain ⟨c, code⟩ := p
      obtain ⟨hc, hcontent⟩ := List.forall_mem_cons.mp h
      have hrest := ih hcontent
      rw [List.flatMap_cons, List.map_cons]
      cases code with
      | some upper => exact .code (hexCode?_hexQuad upper (hc rfl)) (charOfCode?_toNat c) hrest
      | none =>
          by_cases hescape : c = quote ∨ c = '\\'
          · have hwritten : writeBetween quote c none = ['\\', c] := if_pos hescape
            -- each quote and the backslash stand for themselves behind a backslash
            have hself : escaped? c = some c := by
              rcases hescape with rfl | rfl
              · rcases hq with rfl | rfl <;> rfl
              · rfl
            rw [hwritten]
            exact .escape hself hrest
          · have hwritten : writeBetween quote c none = [c] := if_neg hescape
            obtain ⟨hquote, hslash⟩ := not_or.mp hescape
            rw [hwritten]
            exact .plain hquote hslash hrest

theorem Sign.spelled {s : Sign} {text : List Char} (h : text ∈ s.spellings) :
    (Token.sign s).Spelled text := by
  cases s with
  | and | or | not | notEqual =>
      simp only [spellings, List.mem_cons, List.not_mem_nil, or_false] at h
      rcases h with rfl | rfl
      · exact .sign _
      · constructor
  | _ =>
      obtain rfl := List.mem_singleton.mp h
      exact .sign _

/-- **What is written is a spelling of the token.** -/
theorem Token.Spelling.spelled {w : Spelling} (h : w.Valid) : w.token.Spelled w.write := by
  cases w with
  | string quote content => exact .string h.1 (.written h.1 h.2)
  | integer n => exact .integer (.toDigits n) h
  | long n suffix => exact .long (.toDigits n) h.1 h.2
  | name text => exact write_spelled (t := .name text) h
  | positional n => exact .positional (.toDigits n) h
  | named text => exact write_spelled (t := .named text) h
  | keyword k => exact .keyword k
  | sign s text => exact Sign.spelled h

/-! ### Texts -/

namespace Tokens

/-- Tokens as they are written with the blanks before each, and the blanks behind the last. -/
def writeSpaced (words : List (List Char × Token.Spelling)) (blanks : List Char) : List Char :=
  words.flatMap (fun (before, w) => before ++ w.write) ++ blanks

theorem spells_writeSpaced {words : List (List Char × Token.Spelling)} {blanks : List Char}
    (hvalid : ∀ w ∈ words, w.2.Valid) (hbefore : ∀ w ∈ words, ∀ c ∈ w.1, isBlank c = true)
    (hapart : ∀ w ∈ words.tail, w.1 ≠ []) (hb : ∀ c ∈ blanks, isBlank c = true) :
    Spells (writeSpaced words blanks) (words.map (·.2.token)) := by
  induction words with
  | nil => exact .nil hb
  | cons word words ih =>
      obtain ⟨before, w⟩ := word
      obtain ⟨hw, hvalid⟩ := List.forall_mem_cons.mp hvalid
      obtain ⟨hblanks, hbefore⟩ := List.forall_mem_cons.mp hbefore
      have hrest := ih hvalid hbefore fun w h => hapart w (List.mem_of_mem_tail h)
      have hseparated : Separated (writeSpaced words blanks) := by
        cases words with
        | nil => exact fun c hc => hb c (List.mem_of_mem_head? hc)
        | cons next words =>
            -- there is a blank before each token but the first
            obtain ⟨next, u⟩ := next
            cases next with
            | nil => exact absurd rfl (hapart _ List.mem_cons_self)
            | cons b bs =>
                intro c hc
                obtain rfl : b = c := by simpa [writeSpaced] using hc
                exact hbefore _ List.mem_cons_self b List.mem_cons_self
      have hwritten : writeSpaced ((before, w) :: words) blanks =
          before ++ (w.write ++ writeSpaced words blanks) := by
        simp [writeSpaced]
      rw [hwritten]
      exact .cons hblanks (Token.Spelling.spelled hw) hseparated hrest

/-- **Lexing undoes spelling.**  Tokens that are written one after the other, each in any of its
spellings, with one or more blanks between them and any before the first and behind the last, are
read back in order up to the end. -/
theorem lexing_undoes_spelling (words : List (List Char × Token.Spelling)) (blanks : List Char)
    (hvalid : ∀ w ∈ words, w.2.Valid) (hbefore : ∀ w ∈ words, ∀ c ∈ w.1, isBlank c = true)
    (hapart : ∀ w ∈ words.tail, w.1 ≠ []) (hb : ∀ c ∈ blanks, isBlank c = true) :
    ofText (String.ofList (writeSpaced words blanks)) = ofList (words.map (·.2.token)) := by
  rw [ofText, String.toList_ofList]
  exact ofChars_of_spells (spells_writeSpaced hvalid hbefore hapart hb)

/-- Both quotes, a backslash before a code point, a name outside the alphabet, another text of a
sign, and blanks of both kinds. -/
theorem lexing_undoes_spelling_mixed :
    ofText "größe <>\t'it\\'s \"\\\\\\u00eA' 7l @0 @x new " =
      ofList [.name "größe", .sign .notEqual, .string "it's \"\\ê", .long 7, .positional 0,
        .named "x", .keyword .newWord] := by
  let content : List (Char × Option (Fin 4 → Bool)) :=
    [('i', none), ('t', none), ('\'', none), ('s', none), (' ', none), ('"', none), ('\\', none),
      ('ê', some fun i => i == 3)]
  let words : List (List Char × Token.Spelling) :=
    [([], .name "größe"), ([' '], .sign .notEqual ['<', '>']), (['\t'], .string '\'' content),
      ([' '], .long 7 'l'), ([' '], .positional 0), ([' '], .named "x"),
      ([' '], .keyword .newWord)]
  have htext : String.ofList (writeSpaced words [' ']) =
      "größe <>\t'it\\'s \"\\\\\\u00eA' 7l @0 @x new " := by cbv
  have hcontent : ∀ p ∈ content, p.2.isSome → p.1.toNat < 0x10000 := by decide
  have hvalid : ∀ w ∈ words, w.2.Valid := by
    simp only [words, List.forall_mem_cons]
    exact ⟨by cbv, .tail _ (.head _), ⟨.inr rfl, hcontent⟩, ⟨by decide, .inr rfl⟩,
      Nat.two_pow_pos 64, by cbv, trivial, nofun⟩
  have hblank : isBlank ' ' = true := isBlank_of_isWhitespace rfl
  have htab : isBlank '\t' = true := isBlank_of_isWhitespace rfl
  have hbefore : ∀ w ∈ words, ∀ c ∈ w.1, isBlank c = true := by
    simp [words, hblank, htab]
  have hend : ∀ c ∈ [' '], isBlank c = true := by
    simp [hblank]
  rw [← htext]
  exact lexing_undoes_spelling words [' '] hvalid hbefore (by simp [words]) hend

end Tokens

end LambdaQuery
