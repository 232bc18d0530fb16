/-
Tables that find their keys by hashes and keep them in the order in which they came.

* `HashSearch` — a choice, by hashes alone, of the keys that are compared with a given one;
* `HashSearch.byTag` — such a choice, by a part of the hash;
* `HashSearch.find?` — the place of the key that equals a given one;
* `HashSearch.set`, `HashSearch.has` — tables of keys;
* `HashSearch.groups`, `HashSearch.get` — tables of keys with the elements that belong to them.
-/

import LambdaQuery.Collection.Group
import LambdaQuery.Value.Key

namespace LambdaQuery

/-- A search by hashes.  The hashes of the keys in a table and that of a key that is looked for
decide which places of the table are compared with that key. -/
structure HashSearch where
  /-- The hash of the data that a value gives. -/
  hash : List HashPart → UInt64
  /-- The places that are compared, in this order. -/
  places : List UInt64 → UInt64 → List Nat
  /-- No place is left out that has the hash in question. -/
  complete : ∀ {hashes : List UInt64} {h : UInt64} {i : Nat}, hashes[i]? = some h →
    i ∈ places hashes h

namespace HashSearch

/-- The seven leading bits of a hash. -/
def tag (h : UInt64) : UInt64 := h >>> 57

/-- The search that compares the keys whose hashes have the tag of the one in question. -/
def byTag (hash : List HashPart → UInt64) : HashSearch where
  hash
  places hashes h :=
    (List.range hashes.length).filter fun i => hashes[i]?.map tag == some (tag h)
  complete := by
    intro hashes h i hi
    obtain ⟨hlt, -⟩ := List.getElem?_eq_some_iff.mp hi
    exact List.mem_filter.mpr ⟨List.mem_range.mpr hlt, by simp [hi]⟩

variable (p : HashSearch)

def hashOf (v : Value) : UInt64 := p.hash v.hashParts

/-- The place of a key in a table: the first of the chosen ones whose key equals it. -/
def find? (keys : List Value) (key : Value) : Option Nat :=
  (p.places (keys.map p.hashOf) (p.hashOf key)).find? fun i => keys[i]?.any (·.same key)

/-! ### Tables of keys -/

/-- Does the table have the key? -/
def has (keys : List Value) (key : Value) : Bool := (p.find? keys key).isSome

/-- Adds a key at the end of a table that does not have it. -/
def insert (keys : List Value) (key : Value) : List Value :=
  if p.has keys key then keys else keys ++ [key]

/-- The table of all the keys. -/
def set (keys : List Value) : List Value := keys.foldl p.insert []

/-! ### Tables of groups -/

/-- Adds an element to the group of its key, which is a new one at the end of a table without it. -/
def push (groups : Collection.Groups) (key element : Value) : Collection.Groups :=
  match p.find? (groups.map (·.1)) key with
  | some i => groups.modify i fun group => (group.1, group.2 ++ [element])
  | none => groups ++ [(key, [element])]

/-- The table of the groups of pairs of a key and an element. -/
def groups (pairs : List (Value × Value)) : Collection.Groups :=
  pairs.foldl (fun groups (key, element) => p.push groups key element) []

/-- The elements of the group of a key, none if there is no such group. -/
def get (groups : Collection.Groups) (key : Value) : List Value :=
  match (p.find? (groups.map (·.1)) key).bind fun i => groups[i]? with
  | some (_, elements) => elements
  | none => []

end HashSearch

end LambdaQuery
