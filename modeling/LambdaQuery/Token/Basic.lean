/-
Tokens of lambda text, and the errors of reading it.

* `Sign`, `Keyword`, `Token` — what a text is cut into;
* `Token.describe` — a token as messages show it;
* `SyntaxError`, `SyntaxError.message` — the causes for which a text is refused, and their wording;
* `Tokens` — the tokens of a text in order, with the error that ends them if there is one.
-/

import LambdaQuery.Double.Layout
import LambdaQuery.Text.Quoted

namespace LambdaQuery

/-- Operators and delimiters. -/
inductive Sign
  | plus | minus | star | slash | percent
  | equal | assign | notEqual
  | less | lessEqual | greater | greaterEqual
  | and | or | not
  | ampersand | question | coalesce | arrow
  | dot | comma | colon
  | leftParen | rightParen | leftBrace | rightBrace
  deriving Repr, DecidableEq

/-- Words with a meaning of their own; `and`, `or` and `not` are read as signs. -/
inductive Keyword
  | trueWord | falseWord | nullWord | newWord | asWord
  deriving Repr, DecidableEq

inductive Token
  | string (text : String)
  /-- A whole number below `2 ^ 63`. -/
  | integer (n : Nat)
  /-- A whole number with the suffix `L`. -/
  | long (n : Nat)
  | float (x : Double)
  | name (text : String)
  /-- `@0`, `@1`, … -/
  | positional (index : Nat)
  /-- `@name` -/
  | named (text : String)
  | keyword (k : Keyword)
  | sign (s : Sign)
  deriving Repr

namespace Sign

/-- The sign as messages name it. -/
def describe : Sign → String
  | plus => "Plus"
  | minus => "Minus"
  | star => "Star"
  | slash => "Slash"
  | percent => "Percent"
  | equal => "Equal"
  | assign => "Assign"
  | notEqual => "NotEqual"
  | less => "LessThan"
  | lessEqual => "LessThanOrEqual"
  | greater => "GreaterThan"
  | greaterEqual => "GreaterThanOrEqual"
  | and => "And"
  | or => "Or"
  | not => "Not"
  | ampersand => "Ampersand"
  | question => "Question"
  | coalesce => "Coalesce"
  | arrow => "Arrow"
  | dot => "Dot"
  | comma => "Comma"
  | colon => "Colon"
  | leftParen => "LeftParen"
  | rightParen => "RightParen"
  | leftBrace => "LeftBrace"
  | rightBrace => "RightBrace"

end Sign

namespace Keyword

/-- The keyword as messages name it. -/
def describe : Keyword → String
  | trueWord => "True"
  | falseWord => "False"
  | nullWord => "Null"
  | newWord => "New"
  | asWord => "As"

end Keyword

namespace Token

/-- The token that a word stands for: a keyword, an operator written as a word, or a name. -/
def ofWord (word : String) : Token :=
  match word with
  | "true" => keyword .trueWord
  | "false" => keyword .falseWord
  | "null" => keyword .nullWord
  | "new" => keyword .newWord
  | "as" => keyword .asWord
  | "and" => sign .and
  | "or" => sign .or
  | "not" => sign .not
  | _ => name word

/-- The token as messages show it: its kind, and in parentheses what it carries. -/
def describe : Token → String
  | string text => "String(" ++ Text.quoted text ++ ")"
  | integer n => "Integer(" ++ toString n ++ ")"
  | long n => "Long(" ++ toString n ++ ")"
  | float x => "Float(" ++ Double.Layout.literal.write x ++ ")"
  | name text => "Identifier(" ++ Text.quoted text ++ ")"
  | positional index => "Positional(" ++ toString index ++ ")"
  | named text => "Variable(" ++ Text.quoted text ++ ")"
  | keyword k => k.describe
  | sign s => s.describe

end Token

/-- What the grammar asks for where it finds something else. -/
inductive Wanted
  | sign (s : Sign)
  | name
  /-- `(` or `{` after `new`. -/
  | memberList
  | endOfText
  deriving Repr, DecidableEq

namespace Wanted

/-- What is wanted, as messages name it. -/
def describe : Wanted → String
  | sign s => s.describe
  | name => "identifier"
  | memberList => "'(' or '\x7b' after new"
  | endOfText => "end of expression"

end Wanted

/-- Why a text is refused. -/
inductive SyntaxError
  /-- A character that starts no token. -/
  | strayCharacter (c : Char)
  /-- A character that cannot follow `@`. -/
  | strayPlaceholder (c : Char)
  /-- A token that starts no expression. -/
  | unexpectedToken (t : Token)
  | unexpectedEnd
  /-- `new` without a member. -/
  | emptyRecord
  /-- A computed member of `new` without a name. -/
  | unnamedMember
  | invalidNumber (text : String)
  /-- An exponent without digits. -/
  | missingExponent
  | unclosedString
  /-- An escape that stands for no character, given from its backslash on. -/
  | invalidEscape (text : String)
  /-- Something else stands in the place of what the grammar asks for; `none` is the end. -/
  | expected (what : Wanted) (found : Option Token)
  deriving Repr

namespace SyntaxError

/-- The wording of an error. -/
def message : SyntaxError → String
  | strayCharacter c => "Unexpected token: " ++ c.toString
  | strayPlaceholder c => "Unexpected token: @" ++ c.toString
  | unexpectedToken t => "Unexpected token: " ++ t.describe
  | unexpectedEnd => "Unexpected end of expression"
  | emptyRecord => "Invalid syntax: new requires at least one member"
  | unnamedMember => "Invalid syntax: computed members of new need a name (expr as Name)"
  | invalidNumber text => "Invalid number: " ++ text
  | missingExponent => "Invalid number: Expected digit in exponent"
  | unclosedString => "Unclosed string literal"
  | invalidEscape text => "Invalid escape sequence: " ++ text
  | expected what found =>
    "Expected " ++ what.describe ++ ", found " ++ (found.map Token.describe).getD "Eof"

end SyntaxError

/-- The tokens of a text in order.  A text that cannot be read to its end keeps the tokens before
the fault. -/
inductive Tokens
  | done
  | broken (error : SyntaxError)
  | more (head : Token) (rest : Tokens)
  deriving Repr

namespace Tokens

/-- The number of tokens. -/
def length : Tokens → Nat
  | more _ rest => rest.length + 1
  | _ => 0

/-- The tokens before the end or the fault. -/
def toList : Tokens → List Token
  | more head rest => head :: rest.toList
  | _ => []

/-- The error that ends the tokens. -/
def error? : Tokens → Option SyntaxError
  | done => none
  | broken error => some error
  | more _ rest => rest.error?

/-- These tokens, unless the first of them could not be read. -/
def ready : Tokens → Except SyntaxError Tokens
  | broken error => .error error
  | tokens => .ok tokens

end Tokens

end LambdaQuery
