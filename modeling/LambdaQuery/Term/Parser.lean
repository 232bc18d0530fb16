/-
Reading terms from tokens, by binding powers.

* `Sign.power?` — how tightly a sign binds the operands on its left and on its right; a sign that
  binds its right operand more loosely than its left one associates to the right;
* `Term.expression` — the longest expression whose operators bind at least as tightly as asked;
* `Term.parse` — the term of a text.

Two places look ahead: `(a, b) =>` against an expression in parentheses, and `Name =` against a
computed member of `new`.  A look-ahead that does not match leaves the tokens as they were.

The reading functions count how deeply they are nested.  `Term.parse` allows eight levels for each
token, which no text exhausts.
-/

import LambdaQuery.Term.Basic
import LambdaQuery.Token.Lexer

namespace LambdaQuery

namespace Sign

/-- The powers with which a sign binds its left and its right operand. -/
def power? : Sign → Option (Nat × Nat)
  | question => some (4, 3)
  | coalesce => some (6, 5)
  | or => some (10, 11)
  | and => some (20, 21)
  | equal | assign | notEqual => some (30, 31)
  | less | lessEqual | greater | greaterEqual => some (35, 36)
  | plus | minus | ampersand => some (40, 41)
  | star | slash | percent => some (50, 51)
  | dot => some (70, 71)
  | _ => none

/-- The power with which a sign before an operand binds it. -/
def leadingPower : Nat := 60

/-- The operator of two operands that a sign stands for; `=` compares, as `==` does. -/
def binaryOp? : Sign → Option BinaryOp
  | plus => some .add
  | minus => some .subtract
  | star => some .multiply
  | slash => some .divide
  | percent => some .modulo
  | equal | assign => some .equal
  | notEqual => some .notEqual
  | less => some .less
  | lessEqual => some .lessEqual
  | greater => some .greater
  | greaterEqual => some .greaterEqual
  | and => some .and
  | or => some .or
  | ampersand => some .concat
  | coalesce => some .coalesce
  | _ => none

end Sign

namespace Term

/-- A step of reading: what was read and the tokens after it, an error, or `none` when the nesting
allowed is used up. -/
abbrev Reading (α : Type) := Option (Except SyntaxError (α × Tokens))

namespace Reading

def ok {α : Type} (a : α) (rest : Tokens) : Reading α := some (.ok (a, rest))

def error {α : Type} (e : SyntaxError) : Reading α := some (.error e)

/-- Goes on with what was read and the tokens after it. -/
def andThen {α β : Type} (r : Reading α) (f : α → Tokens → Reading β) : Reading β :=
  match r with
  | some (.ok (a, rest)) => f a rest
  | some (.error e) => error e
  | none => none

/-- Goes on with tokens that may have been broken off. -/
def after {α : Type} (tokens : Tokens) (f : Tokens → Reading α) : Reading α :=
  match tokens.ready with
  | .ok tokens => f tokens
  | .error e => error e

end Reading

open Reading

/-- Passes a sign, or reports what stands in its place. -/
def expectSign {α : Type} (s : Sign) (tokens : Tokens) (f : Tokens → Reading α) : Reading α :=
  match tokens with
  | .more t rest =>
    match t with
    | .sign found => if found = s then after rest f else error (.expected (.sign s) (some t))
    | _ => error (.expected (.sign s) (some t))
  | _ => error .unexpectedEnd

/-- Passes a name, or reports what stands in its place. -/
def expectName {α : Type} (tokens : Tokens) (f : String → Tokens → Reading α) : Reading α :=
  match tokens with
  | .more (.name text) rest => after rest (f text)
  | .more t _ => error (.expected .name (some t))
  | _ => error .unexpectedEnd

/-! ### Look-ahead -/

/-- The tokens after `=>`, if that is what the tokens start with. -/
def arrow? : Tokens → Except SyntaxError (Option Tokens)
  | .more (.sign .arrow) rest => rest.ready.map some
  | _ => .ok none

/-- The parameter names up to `) =>` and the tokens after it; `none` if the tokens go on
otherwise. -/
def lambdaNames? : Tokens → Except SyntaxError (Option (List String × Tokens))
  | .more (.name text) rest => do
    let _ ← rest.ready
    match rest with
    | .more (.sign .comma) rest => do
      let _ ← rest.ready
      return (← lambdaNames? rest).map fun (names, rest) => (text :: names, rest)
    | .more (.sign .rightParen) rest => do
      return (← arrow? (← rest.ready)).map fun rest => ([text], rest)
    | _ => return none
  | _ => return none

/-- What a look-ahead for `(a, b) =>` finds behind its opening parenthesis. -/
def lambdaHead? (tokens : Tokens) : Except SyntaxError (Option (List String × Tokens)) :=
  match tokens with
  | .more (.sign .rightParen) rest => do
    return (← arrow? (← rest.ready)).map fun rest => ([], rest)
  | _ => lambdaNames? tokens

/-- What a look-ahead for `Name =` finds. -/
def memberHead? (tokens : Tokens) : Except SyntaxError (Option (String × Tokens)) :=
  match tokens with
  | .more (.name text) rest => do
    match ← rest.ready with
    | .more (.sign .assign) rest => return some (text, ← rest.ready)
    | _ => return none
  | _ => return none

/-! ### Expressions -/

mutual

/-- The longest expression whose operators bind at least with `power`. -/
def expression (depth : Nat) (power : Nat) (tokens : Tokens) : Reading Term :=
  match depth with
  | 0 => none
  | depth + 1 =>
    (primary depth tokens).andThen fun lhs rest => continuation depth power lhs rest

/-- Goes on from an operand with the operators that bind at least with `power`. -/
def continuation (depth : Nat) (power : Nat) (lhs : Term) (tokens : Tokens) : Reading Term :=
  match depth with
  | 0 => none
  | depth + 1 =>
    match tokens with
    | .more (.sign s) rest =>
      match s.power? with
      | none => ok lhs tokens
      | some (left, right) =>
        if left < power then ok lhs tokens
        else
          after rest fun rest =>
            match s with
            | .dot =>
              expectName rest fun text rest =>
                match rest with
                | .more (.sign .leftParen) _ =>
                  (arguments depth rest).andThen fun args rest =>
                    continuation depth power (call (some lhs) text args) rest
                | _ => continuation depth power (member lhs text) rest
            | .question =>
              (expression depth 0 rest).andThen fun ifTrue rest =>
                expectSign .colon rest fun rest =>
                  (expression depth right rest).andThen fun ifFalse rest =>
                    continuation depth power (cond lhs ifTrue ifFalse) rest
            | _ =>
              match s.binaryOp? with
              | some op =>
                (expression depth right rest).andThen fun rhs rest =>
                  continuation depth power (binary op lhs rhs) rest
              | none => error (.unexpectedToken (.sign s))
    | _ => ok lhs tokens

/-- An operand: a literal, a name, a call, a lambda, a record, or an expression in parentheses or
after a leading sign. -/
def primary (depth : Nat) (tokens : Tokens) : Reading Term :=
  match depth with
  | 0 => none
  | depth + 1 =>
    match tokens with
    | .more t rest =>
      match t with
      | .string text => after rest (ok (string text))
      | .integer n => after rest (ok (integer n))
      | .long n => after rest (ok (long n))
      | .float x => after rest (ok (float x))
      | .keyword .trueWord => after rest (ok (bool true))
      | .keyword .falseWord => after rest (ok (bool false))
      | .keyword .nullWord => after rest (ok null)
      | .positional index => after rest (ok (positional index))
      | .named text => after rest (ok (named text))
      | .name text =>
        after rest fun rest =>
          match rest with
          | .more (.sign .arrow) rest =>
            after rest fun rest =>
              (expression depth 0 rest).andThen fun body rest => ok (lambda [text] body) rest
          | .more (.sign .leftParen) _ =>
            (arguments depth rest).andThen fun args rest => ok (call none text args) rest
          | _ => ok (name text) rest
      | .sign .leftParen =>
        after rest fun rest =>
          match lambdaHead? rest with
          | .error e => error e
          | .ok (some (params, rest)) =>
            (expression depth 0 rest).andThen fun body rest => ok (lambda params body) rest
          | .ok none =>
            (expression depth 0 rest).andThen fun inner rest =>
              expectSign .rightParen rest (ok inner)
      | .keyword .newWord => after rest (recordTerm depth)
      | .sign .minus =>
        after rest fun rest =>
          (expression depth Sign.leadingPower rest).andThen fun operand rest =>
            ok (unary .negate operand) rest
      | .sign .not =>
        after rest fun rest =>
          (expression depth Sign.leadingPower rest).andThen fun operand rest =>
            ok (unary .not operand) rest
      | .sign .plus => after rest (expression depth Sign.leadingPower)
      | _ => error (.unexpectedToken t)
    | _ => error .unexpectedEnd

/-- The arguments of a call, from the opening parenthesis to the closing one. -/
def arguments (depth : Nat) (tokens : Tokens) : Reading (List Term) :=
  match depth with
  | 0 => none
  | depth + 1 =>
    expectSign .leftParen tokens fun rest =>
      match rest with
      | .more (.sign .rightParen) rest => after rest (ok [])
      | _ =>
        (argumentList depth rest).andThen fun args rest =>
          expectSign .rightParen rest (ok args)

/-- One or more arguments, with commas between them. -/
def argumentList (depth : Nat) (tokens : Tokens) : Reading (List Term) :=
  match depth with
  | 0 => none
  | depth + 1 =>
    (expression depth 0 tokens).andThen fun arg rest =>
      match rest with
      | .more (.sign .comma) rest =>
        after rest fun rest =>
          (argumentList depth rest).andThen fun args rest => ok (arg :: args) rest
      | _ => ok [arg] rest

/-- The members of `new`, from the opening parenthesis or brace to the closing one. -/
def recordTerm (depth : Nat) (tokens : Tokens) : Reading Term :=
  match depth with
  | 0 => none
  | depth + 1 =>
    match tokens with
    | .more (.sign .leftParen) rest => after rest (recordBody depth .rightParen)
    | .more (.sign .leftBrace) rest => after rest (recordBody depth .rightBrace)
    | .more t _ => error (.expected .memberList (some t))
    | _ => error (.expected .memberList none)

/-- The members of `new` up to the closing sign. -/
def recordBody (depth : Nat) (close : Sign) (tokens : Tokens) : Reading Term :=
  match depth with
  | 0 => none
  | depth + 1 =>
    match tokens with
    | .more (.sign s) rest =>
      if s = close then after rest fun _ => error .emptyRecord
      else
        (memberList depth tokens).andThen fun members rest =>
          expectSign close rest (ok (record members))
    | _ =>
      (memberList depth tokens).andThen fun members rest =>
        expectSign close rest (ok (record members))

/-- One or more members, with commas between them. -/
def memberList (depth : Nat) (tokens : Tokens) : Reading (List (Option String × Term)) :=
  match depth with
  | 0 => none
  | depth + 1 =>
    (memberTerm depth tokens).andThen fun m rest =>
      match rest with
      | .more (.sign .comma) rest =>
        after rest fun rest =>
          (memberList depth rest).andThen fun members rest => ok (m :: members) rest
      | _ => ok [m] rest

/-- A member of `new`: `Name = value`, `value as Name`, or a value that brings its own name. -/
def memberTerm (depth : Nat) (tokens : Tokens) : Reading (Option String × Term) :=
  match depth with
  | 0 => none
  | depth + 1 =>
    match memberHead? tokens with
    | .error e => error e
    | .ok (some (text, rest)) =>
      (expression depth 0 rest).andThen fun value rest => ok (some text, value) rest
    | .ok none =>
      (expression depth 0 tokens).andThen fun value rest =>
        match rest with
        | .more (.keyword .asWord) rest =>
          after rest fun rest => expectName rest fun text rest => ok (some text, value) rest
        | _ =>
          if value.memberName?.isSome then ok (none, value) rest else error .unnamedMember

end

/-- How deeply the reading of so many tokens may be nested. -/
def depthFor (tokens : Nat) : Nat := 8 * (tokens + 1)

/-- The term of a text. -/
def parse (text : String) : Except SyntaxError Term :=
  let tokens := Tokens.ofText text
  match after tokens (expression (depthFor tokens.length) 0) with
  | some (.ok (_, .more found _)) => .error (.expected .endOfText (some found))
  | some (.ok (t, _)) => .ok t
  | some (.error e) => .error e
  | none => .error .unexpectedEnd

end Term

end LambdaQuery
