/-
What the operators do with the items of their sources.

* `Lambda.on`, `Lambda.accepts` — a function of a call on its arguments, and as a condition;
* `Call.onItems` — an operator with one source;
* `Call.zipItems`, `Call.joinItems` — an operator with two;
* `Call.groupItems` — the four forms of grouping;
* `Call.sortItems` — a whole chain of orderings, sorted once.

The arguments of a call are asked for when the operator reaches them, so that an argument in the
wrong place is an error only then.
-/

import LambdaQuery.Collection.Each
import LambdaQuery.Collection.Group
import LambdaQuery.Collection.Sort
import LambdaQuery.Expr.Eval
import LambdaQuery.Query.Basic

namespace LambdaQuery

/-- A result of a collection as one of the query. -/
def ofCollection {α : Type} (r : Except CollectionError α) : QueryResult α :=
  r.mapError .ofCollection

namespace Lambda

/-- The value of a function on arguments. -/
def on (l : Lambda) (args : List Value) : QueryResult Value := (l.call args).mapError .ofEval

/-- Does a function, as a condition, hold for a value? -/
def accepts (l : Lambda) (v : Value) : QueryResult Bool := (l.holds v).mapError .ofEval

end Lambda

namespace Call

/-! ### One source -/

/-- The elements of the value of a flattening selector. -/
def innerItems (v : Value) : QueryResult (List Value) :=
  match v with
  | .null => .error (.evaluation (.nullReference Operator.selectMany.name))
  | v =>
    match v.elements? with
    | some items => .ok items
    | none => .error (.mismatch (.notSequence v))

/-- The constant that stands for a number of elements or a place. -/
def index (c : Call) : QueryResult Int := do
  match ← c.constant 1 with
  | .int n => return n.toInt
  | _ => throw (.mismatch (.notCount c.operator))

/-- The constant that stands for a number of elements; less than none is none. -/
def count (c : Call) : QueryResult Nat := do return (← c.index).toNat

/-- The constant that stands for a second list. -/
def second (c : Call) : QueryResult (List Value) := do
  match (← c.constant 1).elements? with
  | some items => return items
  | none => throw (.mismatch (.notList c.operator))

/-- A value of the items that have been chosen. -/
def choose (c : Call) (items : List Value) : QueryResult Value := do
  let element ← c.typeArg 0
  match c.operator with
  | .count => ofCollection (Collection.count items.length)
  | .longCount => return .long (Int64.ofNat items.length)
  | .any => return .bool (!items.isEmpty)
  | .first => ofCollection (Collection.first items)
  | .firstOrDefault => return Collection.firstOrDefault items element
  | .single => ofCollection (Collection.single items)
  | .singleOrDefault => ofCollection (Collection.singleOrDefault items element)
  | .last => ofCollection (Collection.last items)
  | _ => return Collection.lastOrDefault items element

/-- The fold of the items: from the first of them, or from a constant. -/
def foldItems (c : Call) (items : List Value) : QueryResult Value := do
  let step (l : Lambda) (acc v : Value) : QueryResult Value := l.on [acc, v]
  match c.shape with
  | .unseeded =>
    match items with
    | [] => throw .empty
    | v :: vs => Each.fold (step (← c.function 1)) v vs
  | shape =>
    let seed ← c.constant 1
    let total ← Each.fold (step (← c.function 2)) seed items
    match shape with
    | .seededResult => (← c.function 3).on [total]
    | _ => return total

/-- The groups of the items by their keys, each as a grouping or as the result computed from it. -/
def groupItems (c : Call) (items : List Value) : QueryResult (List Value) := do
  let key ← c.function 1
  let element ←
    match c.shape with
    | .keyElement | .keyElementResult => some <$> c.function 2
    | _ => pure none
  let result ←
    match c.shape with
    | .keyResult => some <$> c.function 2
    | .keyElementResult => some <$> c.function 3
    | _ => pure none
  let pairs ← items |> Each.map fun v => do
    let k ← key.on [v]
    match element with
    | some l => return (k, ← l.on [v])
    | none => return (k, v)
  let groups := Collection.groupPairs pairs
  match result with
  | some l => groups |> Each.map fun (k, vs) => l.on [k, .sequence vs]
  | none => return groups.map fun (k, vs) => .grouping k vs

/-- An operator on the items of its source. -/
def onItems (c : Call) (items : List Value) : QueryResult Value := do
  match c.operator with
  | .filter => return .sequence (← Each.keep (← c.function 1).accepts items)
  | .select =>
    let l ← c.function 1
    return .sequence (← Each.map (fun v => l.on [v]) items)
  | .selectMany =>
    let l ← c.function 1
    return .sequence (← Each.map (fun v => do innerItems (← l.on [v])) items).flatten
  | .groupBy => return .sequence (← c.groupItems items)
  | .take => return .sequence (items.take (← c.count))
  | .skip => return .sequence (items.drop (← c.count))
  | .takeWhile => return .sequence (← Each.takeWhile (← c.function 1).accepts items)
  | .skipWhile => return .sequence (← Each.dropWhile (← c.function 1).accepts items)
  | .distinct => return .sequence (Collection.distinct items)
  | .reverse => return .sequence items.reverse
  | .defaultIfEmpty =>
    match items, c.shape with
    | [], .none => return .sequence [(← c.typeArg 0).default]
    | [], _ => return .sequence [← c.constant 1]
    | items, _ => return .sequence items
  | .concat => return .sequence (items ++ (← c.second))
  | .union => return .sequence (Collection.union items (← c.second))
  | .intersect => return .sequence (Collection.intersect items (← c.second))
  | .except => return .sequence (Collection.except items (← c.second))
  | .contains => return .bool (Collection.contains items (← c.constant 1))
  | .sequenceEqual => return .bool (Value.sameAll items (← c.second))
  | .elementAt => ofCollection (Collection.elementAt items (← c.index))
  | .elementAtOrDefault =>
    let index ← c.index
    return Collection.elementAtOrDefault items index (← c.typeArg 0)
  | .sum | .average | .min | .max =>
    let values ←
      match c.shape with
      | .selector => do
        let l ← c.function 1
        Each.map (fun v => l.on [v]) items
      | _ => pure items
    match c.operator with
    | .sum => ofCollection (Collection.sum values c.type)
    | .average => ofCollection (Collection.average values c.type)
    | .min => ofCollection (Collection.min values c.type)
    | _ => ofCollection (Collection.max values c.type)
  | .aggregate => c.foldItems items
  | operator =>
    match operator, c.shape with
    | .all, .predicate => return .bool (← Each.all (← c.function 1).accepts items)
    | _, .predicate => c.choose (← Each.keep (← c.function 1).accepts items)
    | _, _ => c.choose items

/-! ### Two sources -/

/-- The results of the pairs of items at the same places, as far as both sources go. -/
def zipItems (c : Call) (outer inner : List Value) : QueryResult (List Value) := do
  let result ← c.function 2
  Each.map (fun (t, u) => result.on [t, u]) (outer.zip inner)

/-- The join of the items on equal keys, in the order of the outer ones.  A null key matches
nothing.  The inner items that match an outer one give a result each, or one together. -/
def joinItems (c : Call) (outer inner : List Value) : QueryResult (List Value) := do
  let outerKey ← c.function 2
  let innerKey ← c.function 3
  let result ← c.function 4
  let keyed ← Each.map (fun u => do return (← innerKey.on [u], u)) inner
  let groups := Collection.lookup keyed
  let results ← outer |> Each.map fun t => do
    let key ← outerKey.on [t]
    let us := if key.isNull then [] else Collection.matching groups key
    match c.operator with
    | .groupJoin => return [← result.on [t, .sequence us]]
    | _ => Each.map (fun u => result.on [t, u]) us
  return results.flatten

/-! ### Orderings -/

/-- The keys of an item, one for each link of a chain of orderings. -/
def keysOf (links : List Call) (v : Value) : QueryResult (List Value) :=
  Each.map (fun c => do (← c.function 1).on [v]) links

/-- The items with their keys. -/
def keyRows (links : List Call) (items : List Value) : QueryResult (List (List Value × Value)) :=
  Each.map (fun v => do return (← keysOf links v, v)) items

/-- Sorts items by a chain of orderings, the first one first. -/
def sortItems (links : List Call) (items : List Value) : QueryResult (List Value) := do
  let rows ← keyRows links items
  match Collection.sortByKeys (links.map fun c => c.operator.isDescending) rows with
  | some sorted => return sorted
  | none => throw .halted

section Sorting

variable {links : List Call} {items : List Value} {rows : List (List Value × Value)}
  (hrows : keyRows links items = .ok rows)

include hrows

theorem sortItems_of_some {sorted : List Value}
    (h : Collection.sortByKeys (links.map fun c => c.operator.isDescending) rows = some sorted) :
    sortItems links items = .ok sorted := by
  simp only [sortItems, hrows, bind, Except.bind, h]
  rfl

theorem sortItems_of_none
    (h : Collection.sortByKeys (links.map fun c => c.operator.isDescending) rows = none) :
    sortItems links items = .error .halted := by
  simp only [sortItems, hrows, bind, Except.bind, h]
  rfl

end Sorting

end Call

end LambdaQuery
