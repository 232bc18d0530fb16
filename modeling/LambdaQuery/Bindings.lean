/-
What lambda text may refer to besides its parameters.

* `Settings`, `Settings.parse?` — how names are matched and how a bare expression calls its
  parameter, and their JSON form;
* `Settings.denotes` — does a written name denote a declared one?
* `Bindings` — the values of `@0`, `@1`, … and the variables in the order they were set;
* `Bindings.lookup?` — the variable of a name, its exact spelling first.
-/

import LambdaQuery.Json.Document
import LambdaQuery.Text.Case
import LambdaQuery.Value.Basic

namespace LambdaQuery

/-- How names are resolved. -/
structure Settings where
  /-- Do names match whatever the case of their ASCII letters? -/
  ignoreCase : Bool
  /-- The name by which a bare expression may call its parameter. -/
  implicitParameter : String
  deriving Repr, DecidableEq

namespace Settings

/-- Exact spelling, and `it` for the parameter. -/
def standard : Settings := { ignoreCase := false, implicitParameter := "it" }

instance : Inhabited Settings := ⟨standard⟩

/-- Does the written name denote the declared one? -/
def denotes (s : Settings) (written declared : String) : Bool :=
  if s.ignoreCase then Text.sameIgnoringCase declared written else declared == written

/-! ### Reading -/

open Json (Document)

/-- Sets from the members of an object what has not been set before.  Members of other names are
passed over, and none of the two may come twice. -/
def ofMembers? (ignoreCase : Option Bool) (implicitParameter : Option String) :
    List (Option String × Document) → Option Settings
  | [] =>
    some { ignoreCase := ignoreCase.getD standard.ignoreCase,
           implicitParameter := implicitParameter.getD standard.implicitParameter }
  | (some "case_insensitive_members", value) :: rest =>
    match ignoreCase, value with
    | none, .bool b => ofMembers? (some b) implicitParameter rest
    | _, _ => none
  | (some "implicit_parameter", value) :: rest =>
    match implicitParameter, value with
    | none, .string (some name) => ofMembers? ignoreCase (some name) rest
    | _, _ => none
  | (some _, _) :: rest => ofMembers? ignoreCase implicitParameter rest
  | (none, _) :: _ => none

/-- The settings that a document stands for: an object with either setting or both, or an array of
their values in order, the last ones left out at will. -/
def ofDocument? : Document → Option Settings
  | .object members => ofMembers? none none members
  | .array [] => some standard
  | .array [.bool b] => some { standard with ignoreCase := b }
  | .array [.bool b, .string (some name)] => some { ignoreCase := b, implicitParameter := name }
  | _ => none

/-- The settings that a JSON text stands for. -/
def parse? (text : String) : Option Settings := (Document.parse? text).bind ofDocument?

end Settings

/-- The values and variables that go with a lambda text. -/
structure Bindings where
  /-- The values of `@0`, `@1`, … -/
  values : List Value
  /-- The variables in the order they were first set, with no name twice. -/
  named : List (String × Value)
  settings : Settings

namespace Bindings

def empty : Bindings := { values := [], named := [], settings := .standard }

instance : Inhabited Bindings := ⟨empty⟩

/-- Sets a variable: in its place if it is there, else at the end. -/
def setIn (name : String) (value : Value) : List (String × Value) → List (String × Value)
  | [] => [(name, value)]
  | (n, v) :: rest => if n = name then (n, value) :: rest else (n, v) :: setIn name value rest

/-- The bindings with one variable set. -/
def set (b : Bindings) (name : String) (value : Value) : Bindings :=
  { b with named := setIn name value b.named }

/-- The variable of a name.  The exact spelling wins; next comes the first one that the settings let
the name denote. -/
def lookup? (b : Bindings) (name : String) : Option Value :=
  (b.named.lookup name).or
    ((b.named.find? fun entry => b.settings.denotes name entry.1).map (·.2))

end Bindings

end LambdaQuery
