/-
Which types may stand for which others.

* `Ty.assignable` — may a value of the first type be used where the second is expected?  A
  collection may stand for a sequence of a wider element type, unless the elements would have to
  change their form; function types stand only for themselves;
* `Ty.promote` — the type in which two numeric types are computed with;
* `Ty.unify` — the common type of two branches.
-/

import LambdaQuery.Ty.Basic

namespace LambdaQuery.Ty

/-- Are the values of the type held by reference?  Only such elements may be widened in place. -/
def isReference (t : Ty) : Bool := !t.isValue && !t.isNullable

/-- May a value of the first type be used where the second is expected? -/
def assignable (source target : Ty) : Bool :=
  source == target ||
  match source, target with
  | _, object => true
  | null, t => t.acceptsNull
  | s, nullable t => s == t
  | list s, sequence t | sequence s, sequence t | query s, sequence t
  | orderedQuery s, sequence t | grouping _ s, sequence t | orderedQuery s, query t =>
    s == t || (s.isReference && assignable s t)
  | _, _ => false

/-- The type in which two numeric types are computed with: the wider of the two, nullable if one of
them is. -/
def promote (s t : Ty) : Option Ty := do
  let i ← s.numericRank?
  let j ← t.numericRank?
  let base := if i ≥ j then s.underlying else t.underlying
  return if s.isNullable || t.isNullable then base.asNullable else base

/-- The common type of two branches: the wider number, the nullable form where one is `null`, or the
one that the other is assignable to. -/
def unify (s t : Ty) : Option Ty :=
  if s = t then some s
  else
    match promote s t with
    | some wider => some wider
    | none =>
      if s = null then some t.asNullable
      else if t = null then some s.asNullable
      else if assignable s t then some t
      else if assignable t s then some s
      else none

end LambdaQuery.Ty
