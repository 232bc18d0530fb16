/-
Values as keys of hash tables.

* `HashPart` — the pieces of data that a hash is computed from;
* `Double.hashBits`, `Value.hashParts` — the data that doubles and values give;
* `Value.sameSharing` — the equality of keys where values may share their storage.
-/

import LambdaQuery.Value.Order

namespace LambdaQuery

instance : Hashable Timestamp where
  hash t := mixHash (hash t.day) (mixHash (hash t.second) (hash t.nano))

/-- A piece of the data that a hash is computed from. -/
inductive HashPart
  /-- Which kind of value follows. -/
  | kind (index : Nat)
  | bool (b : Bool)
  | int (n : Int32)
  | long (n : Int64)
  | bits (b : UInt64)
  | text (s : String)
  | moment (t : Timestamp)
  /-- How many values follow. -/
  | length (n : Nat)
  deriving Repr, DecidableEq, Hashable

/-- The bits of a double for its hash: zeros of either sign give the same, and so does every NaN. -/
def Double.hashBits (x : Double) : UInt64 :=
  if x.equals 0.0 then 0 else if isNaN x then 0x7ff8000000000000 else x.bits

namespace Value

mutual

/-- The data that a value gives to a hash.  A record leaves out its type. -/
def hashParts : Value → List HashPart
  | null => [.kind 0]
  | bool b => [.kind 1, .bool b]
  | int n => [.kind 2, .int n]
  | long n => [.kind 3, .long n]
  | double x => [.kind 4, .bits (Double.hashBits x)]
  | string s => [.kind 5, .text s]
  | timestamp t => [.kind 6, .moment t]
  | sequence items => .kind 7 :: .length items.length :: hashPartsAll items
  | record _ values => .kind 8 :: .length values.length :: hashPartsAll values
  | grouping key elements =>
    .kind 9 :: (hashParts key ++ .length elements.length :: hashPartsAll elements)

/-- The data of one value after the other. -/
def hashPartsAll : List Value → List HashPart
  | [] => []
  | v :: vs => hashParts v ++ hashPartsAll vs

end

mutual

/-- Equality as `same` has it, where `shared` tells of sequences, records and groupings that they
are one in storage: such values are equal without a look at what they hold. -/
def sameSharing (shared : Value → Value → Bool) : Value → Value → Bool
  | sequence a, sequence b => shared (sequence a) (sequence b) || sameSharingAll shared a b
  | record s a, record t b =>
    shared (record s a) (record t b) || (s == t && sameSharingAll shared a b)
  | grouping k a, grouping l b =>
    shared (grouping k a) (grouping l b) || (sameSharing shared k l && sameSharingAll shared a b)
  | a, b => same a b

/-- Are the values equal one by one? -/
def sameSharingAll (shared : Value → Value → Bool) : List Value → List Value → Bool
  | [], [] => true
  | a :: as, b :: bs => sameSharing shared a b && sameSharingAll shared as bs
  | _, _ => false

end

end Value

end LambdaQuery
