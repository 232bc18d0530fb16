/-
Sorting by several keys, each ascending or descending.

* `compareKeys` — the order of two lists of keys: by the first position where they differ;
* `sortByKeys` — the items in the order of their keys; items whose keys are equal keep the order of
  the source.  There are none where the sort gives up.
-/

import LambdaQuery.Collection.StableSort
import LambdaQuery.Value.Order

namespace LambdaQuery.Collection

/-- The order of two keys, turned round where the position is descending. -/
def compareKey (descending : Bool) (a b : Value) : Ordering :=
  if descending then (a.compare b).swap else a.compare b

/-- The order of two lists of keys; positions past the given directions are ascending. -/
def compareKeys : List Bool → List Value → List Value → Ordering
  | [], a :: as, b :: bs => (compareKey false a b).then (compareKeys [] as bs)
  | d :: ds, a :: as, b :: bs => (compareKey d a b).then (compareKeys ds as bs)
  | _, _, _ => .eq

/-- Sorts items by the keys that go with them. -/
def sortByKeys (descending : List Bool) (items : List (List Value × Value)) :
    Option (List Value) :=
  (sortBy (fun a b => compareKeys descending a.1 b.1) items).map (·.map (·.2))

end LambdaQuery.Collection
