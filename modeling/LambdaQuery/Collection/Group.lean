/-
Elements gathered by their keys, by the equality `Value.same`.

* `groupPairs` — one group for each key, in the order in which the keys first occur and under the
  value seen first;
* `lookup` — the same without the key null, which matches nothing;
* `matching` — the elements of the group of a key.
-/

import LambdaQuery.Value.Order

namespace LambdaQuery.Collection

/-- Keys with the elements that belong to them. -/
abbrev Groups := List (Value × List Value)

/-- Adds an element to the group of its key, or at the end as a group of its own. -/
def addToGroup (key element : Value) : Groups → Groups
  | [] => [(key, [element])]
  | (k, es) :: rest =>
    if k.same key then (k, es ++ [element]) :: rest else (k, es) :: addToGroup key element rest

/-- The groups of pairs of a key and an element. -/
def groupPairs (pairs : List (Value × Value)) : Groups :=
  pairs.foldl (fun groups (key, element) => addToGroup key element groups) []

/-- The groups of the pairs whose key is not null. -/
def lookup (pairs : List (Value × Value)) : Groups :=
  groupPairs (pairs.filter fun pair => !pair.1.isNull)

/-- The elements of the group of a key, none if there is no such group. -/
def matching (groups : Groups) (key : Value) : List Value :=
  match groups.find? fun group => group.1.same key with
  | some (_, elements) => elements
  | none => []

end LambdaQuery.Collection
