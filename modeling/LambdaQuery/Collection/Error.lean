/-
Why an operation on a collection fails.

* `CollectionError`, `CollectionError.message` — the causes and their wording.
-/

import LambdaQuery.Ty.Display
import LambdaQuery.Value.Display

namespace LambdaQuery

inductive CollectionError
  /-- One element was asked for where there is none. -/
  | empty
  /-- A single element was asked for where there are more. -/
  | ambiguous
  | indexOutOfRange (index : Int)
  /-- A sum or a count does not fit its width. -/
  | overflow
  /-- A sum of a type that is not numeric. -/
  | cannotSum (type : Ty)
  | notNumeric (v : Value)

namespace CollectionError

/-- The wording of an error. -/
def message : CollectionError → String
  | empty => "Sequence contains no elements"
  | ambiguous => "Sequence contains more than one element"
  | indexOutOfRange index => "Index " ++ toString index ++ " is out of range"
  | overflow => "Arithmetic operation resulted in an overflow"
  | cannotSum type => "Type error: cannot sum values of type " ++ type.display
  | notNumeric v => "Type error: " ++ v.display ++ " is not a number"

end CollectionError

end LambdaQuery
