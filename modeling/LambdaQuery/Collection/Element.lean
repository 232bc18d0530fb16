/-
One element out of many: by its place, or because it is the only one.

* `first`, `last`, `single`, `elementAt` — the element, or an error where there is none;
* `firstOrDefault`, … — the element, or the default of the element type.
-/

import LambdaQuery.Collection.Error

namespace LambdaQuery.Collection

def first (items : List Value) : Except CollectionError Value :=
  match items with
  | [] => .error .empty
  | v :: _ => .ok v

def firstOrDefault (items : List Value) (element : Ty) : Value := items.head?.getD element.default

def last (items : List Value) : Except CollectionError Value :=
  match items.getLast? with
  | none => .error .empty
  | some v => .ok v

def lastOrDefault (items : List Value) (element : Ty) : Value :=
  items.getLast?.getD element.default

/-- The only element. -/
def single (items : List Value) : Except CollectionError Value :=
  match items with
  | [] => .error .empty
  | [v] => .ok v
  | _ => .error .ambiguous

/-- The only element; several are refused all the same. -/
def singleOrDefault (items : List Value) (element : Ty) : Except CollectionError Value :=
  match items with
  | [] => .ok element.default
  | [v] => .ok v
  | _ => .error .ambiguous

/-- The element at a place counted from 0, if there is such a place. -/
def elementAt? (items : List Value) (index : Int) : Option Value :=
  if index < 0 then none else items[index.toNat]?

def elementAt (items : List Value) (index : Int) : Except CollectionError Value :=
  match elementAt? items index with
  | some v => .ok v
  | none => .error (.indexOutOfRange index)

def elementAtOrDefault (items : List Value) (index : Int) (element : Ty) : Value :=
  (elementAt? items index).getD element.default

end LambdaQuery.Collection
