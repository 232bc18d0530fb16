/-
The methods and properties that lambda text may use on collections, texts and timestamps.

* `CollectionMethod`, `TextMethod`, `DatePart` — the methods, each with its name;
* `CollectionMethod.ofName?`, … — the method of a name.
-/

import LambdaQuery.Text.Case

namespace LambdaQuery

/-- Is a written name the given one, by spelling or up to the case of ASCII letters? -/
def sameName (ignoreCase : Bool) (declared written : String) : Bool :=
  if ignoreCase then Text.sameIgnoringCase declared written else declared == written

inductive CollectionMethod
  | count | longCount | any | all
  | sum | average | min | max
  | first | firstOrDefault | last | lastOrDefault
  | filter | select
  | contains | distinct | toList
  deriving Repr, DecidableEq

namespace CollectionMethod

/-- All methods of collections. -/
def values : List CollectionMethod :=
  [count, longCount, any, all, sum, average, min, max, first, firstOrDefault, last, lastOrDefault,
    filter, select, contains, distinct, toList]

def name : CollectionMethod → String
  | count => "Count"
  | longCount => "LongCount"
  | any => "Any"
  | all => "All"
  | sum => "Sum"
  | average => "Average"
  | min => "Min"
  | max => "Max"
  | first => "First"
  | firstOrDefault => "FirstOrDefault"
  | last => "Last"
  | lastOrDefault => "LastOrDefault"
  | filter => "Where"
  | select => "Select"
  | contains => "Contains"
  | distinct => "Distinct"
  | toList => "ToList"

/-- The method of a name. -/
def ofName? (ignoreCase : Bool) (written : String) : Option CollectionMethod :=
  values.find? fun m => sameName ignoreCase m.name written

/-- What a method takes besides its collection. -/
inductive Argument
  | none
  /-- A condition on the elements. -/
  | predicate
  /-- A value computed from each element. -/
  | selector
  /-- A value to compare the elements with. -/
  | item
  deriving Repr, DecidableEq

/-- What the method takes when it is called with so many arguments; `none` if it cannot be. -/
def argument? (m : CollectionMethod) (count : Nat) : Option Argument :=
  match count, m with
  | 0, all | 0, filter | 0, select | 0, contains => Option.none
  | 0, _ => some .none
  | 1, sum | 1, average | 1, min | 1, max | 1, select => some .selector
  | 1, contains => some .item
  | 1, distinct | 1, toList => Option.none
  | 1, _ => some .predicate
  | _, _ => Option.none

end CollectionMethod

inductive TextMethod
  | length | toUpper | toLower | trim | startsWith | endsWith | contains
  deriving Repr, DecidableEq

namespace TextMethod

def name : TextMethod → String
  | length => "Length"
  | toUpper => "ToUpper"
  | toLower => "ToLower"
  | trim => "Trim"
  | startsWith => "StartsWith"
  | endsWith => "EndsWith"
  | contains => "Contains"

/-- The methods that are called; `Length` is read like a field. -/
def callable : List TextMethod := [toUpper, toLower, trim, startsWith, endsWith, contains]

/-- The callable method of a name. -/
def ofName? (ignoreCase : Bool) (written : String) : Option TextMethod :=
  callable.find? fun m => sameName ignoreCase m.name written

/-- Does the method test its text against another one? -/
def isTest : TextMethod → Bool
  | startsWith | endsWith | contains => true
  | _ => false

/-- The number of arguments. -/
def arity (m : TextMethod) : Nat := if m.isTest then 1 else 0

end TextMethod

/-- The parts of a timestamp that are read like fields. -/
inductive DatePart
  | year | month | day | hour | minute | second
  deriving Repr, DecidableEq

namespace DatePart

def values : List DatePart := [year, month, day, hour, minute, second]

def name : DatePart → String
  | year => "Year"
  | month => "Month"
  | day => "Day"
  | hour => "Hour"
  | minute => "Minute"
  | second => "Second"

/-- The part of a name. -/
def ofName? (ignoreCase : Bool) (written : String) : Option DatePart :=
  values.find? fun p => sameName ignoreCase p.name written

end DatePart

end LambdaQuery
