/-
JSON documents as they are written.

* `Document` — a document with its members in the order written, names repeated or not;
* `Document.parse?` — reads a document by the strict grammar: no comments, no trailing commas.

A string that names half of a surrogate pair has no text, and a number past the greatest double has
no value.  The document can be read all the same; what uses such a part fails.
-/

import LambdaQuery.Json.Number
import LambdaQuery.Text.Hex

namespace LambdaQuery.Json

open Text

inductive Document
  | null
  | bool (b : Bool)
  | number (n : Option Number)
  | string (s : Option String)
  | array (items : List Document)
  | object (members : List (Option String × Document))
  deriving Repr

/-! ### Strings -/

/-- Puts a character before a text; a text that is not there stays so. -/
def pushChar (c : Char) : Option (Option (List Char) × List Char) →
    Option (Option (List Char) × List Char)
  | some (text, rest) => some (text.map (c :: ·), rest)
  | none => none

/-- Takes away a text that has been read, if half of a surrogate pair is left over before it. -/
def dropIf (half : Bool) : Option (Option (List Char) × List Char) →
    Option (Option (List Char) × List Char)
  | some (text, rest) => some (if half then none else text, rest)
  | none => none

/-- The character that a backslash and one more character stand for. -/
def escaped? : Char → Option Char
  | '"' => some '"'
  | '\\' => some '\\'
  | '/' => some '/'
  | 'b' => some '\x08'
  | 'f' => some '\x0c'
  | 'n' => some '\n'
  | 'r' => some '\r'
  | 't' => some '\t'
  | _ => none

/-- The code point of a surrogate pair; `none` where the second half is none. -/
def pairCode? (high low : Nat) : Option Nat :=
  if 0xdc00 ≤ low ∧ low < 0xe000 then some (0x10000 + (high - 0xd800) * 0x400 + (low - 0xdc00))
  else none

/-- A string up to its closing quote: its text, if it has one, and what follows the quote.  The
first argument is the first half of a surrogate pair, if that was just read. -/
def scanString : Option Nat → List Char → Option (Option (List Char) × List Char)
  | _, [] => none
  | high, '"' :: rest => dropIf high.isSome (some (some [], rest))
  | high, '\\' :: 'u' :: a :: b :: c :: d :: rest =>
    match hexCode? a b c d with
    | none => none
    | some code =>
      match high with
      | some h =>
        match (pairCode? h code).bind charOfCode? with
        | some ch => pushChar ch (scanString none rest)
        | none => dropIf true (scanString none rest)
      | none =>
        match charOfCode? code with
        | some ch => pushChar ch (scanString none rest)
        | none =>
          if code < 0xdc00 then scanString (some code) rest else dropIf true (scanString none rest)
  | high, '\\' :: e :: rest =>
    match escaped? e with
    | some ch => dropIf high.isSome (pushChar ch (scanString none rest))
    | none => none
  | high, c :: rest =>
    if c.toNat < 0x20 then none else dropIf high.isSome (pushChar c (scanString none rest))

/-- A string behind its opening quote. -/
def stringText (cs : List Char) : Option (Option String × List Char) :=
  (scanString none cs).map fun (text, rest) => (text.map String.ofList, rest)

/-! ### Numbers -/

/-- The digits before the point: a zero alone, or digits that start with none. -/
def wholeDigits : List Char → Option (List Char × List Char)
  | '0' :: rest =>
    match rest with
    | d :: _ => if isDigit d then none else some (['0'], rest)
    | [] => some (['0'], [])
  | cs =>
    let digits := cs.takeWhile isDigit
    if digits.isEmpty then none else some (digits, cs.dropWhile isDigit)

/-- The digits after the point, if there is one. -/
def fractionDigits : List Char → Option (Option (List Char) × List Char)
  | '.' :: rest =>
    let digits := rest.takeWhile isDigit
    if digits.isEmpty then none else some (some digits, rest.dropWhile isDigit)
  | cs => some (none, cs)

/-- The exponent, if there is one. -/
def exponentDigits (cs : List Char) : Option (Option (Bool × List Char) × List Char) :=
  let digitsOf (down : Bool) (cs : List Char) : Option (Option (Bool × List Char) × List Char) :=
    let digits := cs.takeWhile isDigit
    if digits.isEmpty then none else some (some (down, digits), cs.dropWhile isDigit)
  match cs with
  | e :: rest =>
    if e = 'e' ∨ e = 'E' then
      match rest with
      | '+' :: rest => digitsOf false rest
      | '-' :: rest => digitsOf true rest
      | _ => digitsOf false rest
    else some (none, cs)
  | [] => some (none, [])

/-- A number. -/
def numberText (cs : List Char) : Option (NumberText × List Char) := do
  let (negative, cs) := match cs with
    | '-' :: rest => (true, rest)
    | _ => (false, cs)
  let (whole, cs) ← wholeDigits cs
  let (fraction, cs) ← fractionDigits cs
  let (exponent, cs) ← exponentDigits cs
  return ({ negative, whole, fraction, exponent }, cs)

/-! ### Documents -/

/-- The four characters that may stand between the parts of a document. -/
def isSpace (c : Char) : Bool := c == ' ' || c == '\t' || c == '\n' || c == '\r'

def skipSpace (cs : List Char) : List Char := cs.dropWhile isSpace

namespace Document

mutual

/-- A document at the start of a text, and what follows it.  The first argument bounds the number
of nested readings. -/
def value : Nat → List Char → Option (Document × List Char)
  | 0, _ => none
  | n + 1, cs =>
    match skipSpace cs with
    | 'n' :: 'u' :: 'l' :: 'l' :: rest => some (null, rest)
    | 't' :: 'r' :: 'u' :: 'e' :: rest => some (bool true, rest)
    | 'f' :: 'a' :: 'l' :: 's' :: 'e' :: rest => some (bool false, rest)
    | '"' :: rest => (stringText rest).map fun (text, rest) => (string text, rest)
    | '[' :: rest =>
      match skipSpace rest with
      | ']' :: rest => some (array [], rest)
      | rest => (elements n rest).map fun (items, rest) => (array items, rest)
    | '\x7b' :: rest =>
      match skipSpace rest with
      | '\x7d' :: rest => some (object [], rest)
      | rest => (members n rest).map fun (fields, rest) => (object fields, rest)
    | rest => (numberText rest).map fun (t, rest) => (number t.value?, rest)

/-- One or more elements of an array, to its closing bracket. -/
def elements : Nat → List Char → Option (List Document × List Char)
  | 0, _ => none
  | n + 1, cs =>
    match value n cs with
    | some (item, rest) =>
      match skipSpace rest with
      | ',' :: rest => (elements n rest).map fun (items, rest) => (item :: items, rest)
      | ']' :: rest => some ([item], rest)
      | _ => none
    | none => none

/-- One or more members of an object, to its closing brace. -/
def members : Nat → List Char → Option (List (Option String × Document) × List Char)
  | 0, _ => none
  | n + 1, cs =>
    match skipSpace cs with
    | '"' :: rest =>
      match stringText rest with
      | some (name, rest) =>
        match skipSpace rest with
        | ':' :: rest =>
          match value n rest with
          | some (item, rest) =>
            match skipSpace rest with
            | ',' :: rest =>
              (members n rest).map fun (fields, rest) => ((name, item) :: fields, rest)
            | '\x7d' :: rest => some ([(name, item)], rest)
            | _ => none
          | none => none
        | _ => none
      | none => none
    | _ => none

end

/-- The document that a text holds, blanks around it allowed.  Each reading takes a character or
hands on to one that does, so twice the length bounds how deeply they are nested. -/
def parse? (text : String) : Option Document :=
  let cs := text.toList
  match value (2 * (cs.length + 1)) cs with
  | some (d, rest) => if (skipSpace rest).isEmpty then some d else none
  | none => none

end Document

end LambdaQuery.Json
