/-
JSON values and their text.

* `Json` — JSON values, the members of objects in order;
* `Json.ofDocument?` — the value of a document: members sorted by name, the last of equal names
  kept, nothing nested more than 127 deep;
* `Json.parse?` — the value of a text;
* `Json.write` — the text of a value, without blanks.
-/

import LambdaQuery.Double.Layout
import LambdaQuery.Json.Document

namespace LambdaQuery

inductive Json
  | null
  | bool (b : Bool)
  | number (n : Json.Number)
  | string (s : String)
  | array (items : List Json)
  | object (members : List (String × Json))
  deriving Repr

namespace Json

/-! ### Reading -/

/-- Puts a member into a list sorted by name, in the place of one with the same name. -/
def insertMember (name : String) (value : Json) : List (String × Json) → List (String × Json)
  | [] => [(name, value)]
  | (n, v) :: rest =>
    if name < n then (name, value) :: (n, v) :: rest
    else if name = n then (name, value) :: rest
    else (n, v) :: insertMember name value rest

/-- Members sorted by name; of members with equal names the last is kept. -/
def sortMembers (members : List (String × Json)) : List (String × Json) :=
  members.foldl (fun sorted (name, value) => insertMember name value sorted) []

mutual

/-- The value of a document whose arrays and objects are nested at most `depth` deep, if all its
strings and numbers have one. -/
def ofDocument? (depth : Nat) : Document → Option Json
  | .null => some null
  | .bool b => some (bool b)
  | .number n => n.map number
  | .string s => s.map string
  | .array items =>
    match depth with
    | 0 => none
    | depth + 1 => (ofItems? depth items).map array
  | .object members =>
    match depth with
    | 0 => none
    | depth + 1 => (ofMembers? depth members).map fun ms => object (sortMembers ms)

/-- The values of the elements of an array. -/
def ofItems? (depth : Nat) : List Document → Option (List Json)
  | [] => some []
  | d :: ds =>
    match ofDocument? depth d, ofItems? depth ds with
    | some v, some vs => some (v :: vs)
    | _, _ => none

/-- The values of the members of an object, in the order written. -/
def ofMembers? (depth : Nat) : List (Option String × Document) → Option (List (String × Json))
  | [] => some []
  | (name, d) :: ds =>
    match name, ofDocument? depth d, ofMembers? depth ds with
    | some name, some v, some vs => some ((name, v) :: vs)
    | _, _, _ => none

end

/-- The depth to which arrays and objects may be nested. -/
def depthLimit : Nat := 127

/-- The value of a text. -/
def parse? (text : String) : Option Json :=
  (Document.parse? text).bind (ofDocument? depthLimit)

/-! ### Writing -/

/-- A character as it stands in a string. -/
def escapeChar (c : Char) : String :=
  match c with
  | '"' => "\\\""
  | '\\' => "\\\\"
  | '\x08' => "\\b"
  | '\x0c' => "\\f"
  | '\n' => "\\n"
  | '\r' => "\\r"
  | '\t' => "\\t"
  | _ =>
    if c.toNat < 0x10 then "\\u000" ++ Text.hexDigits c.toNat
    else if c.toNat < 0x20 then "\\u00" ++ Text.hexDigits c.toNat
    else c.toString

/-- A string in its quotes. -/
def writeString (s : String) : String := "\"" ++ String.join (s.toList.map escapeChar) ++ "\""

/-- A number; infinities and NaN are written as `null`. -/
def writeNumber : Number → String
  | .int n => toString n
  | .double x => if Double.isFinite x then Double.Layout.json.write x else "null"

mutual

/-- The text of a value. -/
def write : Json → String
  | null => "null"
  | bool b => if b then "true" else "false"
  | number n => writeNumber n
  | string s => writeString s
  | array items => "[" ++ ",".intercalate (writeItems items) ++ "]"
  | object members => "\x7b" ++ ",".intercalate (writeMembers members) ++ "\x7d"

/-- The texts of the elements of an array. -/
def writeItems : List Json → List String
  | [] => []
  | v :: vs => write v :: writeItems vs

/-- The texts of the members of an object. -/
def writeMembers : List (String × Json) → List String
  | [] => []
  | (name, v) :: rest => (writeString name ++ ":" ++ write v) :: writeMembers rest

end

end Json

end LambdaQuery
