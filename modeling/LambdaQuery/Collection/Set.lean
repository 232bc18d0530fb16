/-
Collections as sets, by the equality `Value.same`; the first occurrence of a value gives its place.

* `contains` — does an equal value occur?
* `distinct`, `union`, `intersect`, `except` — the set operations.
-/

import LambdaQuery.Value.Order

namespace LambdaQuery.Collection

/-- Does a value equal to `v` occur? -/
def contains (items : List Value) (v : Value) : Bool := items.any fun item => item.same v

/-- The values that equal none of those seen and none before them. -/
def distinctAfter (seen : List Value) : List Value → List Value
  | [] => []
  | v :: vs =>
    if contains seen v then distinctAfter seen vs else v :: distinctAfter (v :: seen) vs

/-- Each value once, where it first occurs. -/
def distinct (items : List Value) : List Value := distinctAfter [] items

/-- The values of the first list, then those of the second alone. -/
def union (first second : List Value) : List Value := distinct (first ++ second)

/-- The values of the first list that occur in the second. -/
def intersect (first second : List Value) : List Value :=
  distinct (first.filter fun v => contains second v)

/-- The values of the first list that do not occur in the second. -/
def except (first second : List Value) : List Value :=
  distinct (first.filter fun v => !contains second v)

end LambdaQuery.Collection
