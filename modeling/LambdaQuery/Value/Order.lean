/-
Equality and order of values.

* `Value.same` — the equality of sets, groups and keys: total, with numbers of different kinds
  different, zeros of either sign equal and all NaNs equal;
* `Value.compare` — the order of sorting: null first, numbers by their value whatever their kind,
  and values of unrelated kinds by their kind;
* `Value.looselyEqual` — the equality of lambda text: numbers by their value whatever their kind.
-/

import LambdaQuery.Value.Basic

namespace LambdaQuery.Value

mutual

/-- Equality as sets, groups and keys see it. -/
def same : Value → Value → Bool
  | null, null => true
  | bool a, bool b => a == b
  | int a, int b => a == b
  | long a, long b => a == b
  | double a, double b => Double.same a b
  | string a, string b => a == b
  | timestamp a, timestamp b => a == b
  | sequence a, sequence b => sameAll a b
  | record s a, record t b => s == t && sameAll a b
  | grouping k a, grouping l b => same k l && sameAll a b
  | _, _ => false

/-- Are the values equal one by one? -/
def sameAll : List Value → List Value → Bool
  | [], [] => true
  | a :: as, b :: bs => same a b && sameAll as bs
  | _, _ => false

end

/-- The place of a kind of value in the order of kinds. -/
def kindRank : Value → Nat
  | null => 0
  | bool _ => 1
  | int _ | long _ | double _ => 2
  | string _ => 3
  | timestamp _ => 4
  | record _ _ => 5
  | sequence _ => 6
  | grouping _ _ => 7

/-- The order of two numbers: integers exactly, and as doubles where one of them is a double. -/
def compareNumbers (a b : Value) : Ordering :=
  match a.toInt64?, b.toInt64? with
  | some m, some n => Ord.compare m.toInt n.toInt
  | _, _ =>
    match a.toDouble?, b.toDouble? with
    | some x, some y => Double.totalCompare x y
    | _, _ => .eq

mutual

/-- The order of sorting. -/
def compare (a b : Value) : Ordering :=
  match a, b with
  | bool p, bool q => Ord.compare p q
  | string s, string t => Ord.compare s t
  | timestamp s, timestamp t => s.compare t
  | sequence as, sequence bs => compareAll as bs
  | record _ as, record _ bs => compareAll as bs
  | grouping k as, grouping l bs => (compare k l).then (compareAll as bs)
  | a, b =>
    if a.isNumeric && b.isNumeric then compareNumbers a b
    else Ord.compare a.kindRank b.kindRank

/-- The order of two lists: by the first elements that differ, and a list before those that go on
after it. -/
def compareAll (as bs : List Value) : Ordering :=
  match as, bs with
  | [], [] => .eq
  | [], _ :: _ => .lt
  | _ :: _, [] => .gt
  | a :: as, b :: bs => (compare a b).then (compareAll as bs)

end

/-- Equality as lambda text sees it: null equals null alone, and numbers are compared by value. -/
def looselyEqual (a b : Value) : Bool :=
  if a.isNumeric && b.isNumeric then a.compare b == .eq else a.same b

end LambdaQuery.Value
