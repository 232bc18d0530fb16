/-
Texts in double quotes, as messages show them.

* `quoted` — the text between double quotes, its quotes, backslashes and characters without a form
  of their own escaped;
* `escapeChar` — the escape of one character.
-/

import LambdaQuery.Text.Hex
import LambdaQuery.Text.Visible

namespace LambdaQuery.Text

/-- A character as it stands between quotes: the short escapes first, then the code point in braces
for a character that is invisible or joins the one before it. -/
def escapeChar (c : Char) : String :=
  match c with
  | '"' => "\\\""
  | '\\' => "\\\\"
  | '\n' => "\\n"
  | '\r' => "\\r"
  | '\t' => "\\t"
  | '\x00' => "\\0"
  | _ =>
    if isInvisible c || isExtending c then "\\u\x7b" ++ hexDigits c.toNat ++ "\x7d"
    else c.toString

/-- The text between double quotes. -/
def quoted (s : String) : String :=
  "\"" ++ String.join (s.toList.map escapeChar) ++ "\""

end LambdaQuery.Text
