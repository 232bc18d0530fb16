/-
The operators as methods of a source.

* `Source.filter`, `Source.select`, … — a new source for each lazy operator;
* `Source.groupByElement`, `Source.join`, `Source.zip`, … — the lazy operators with several
  functions, or with a second source;
* `Source.count`, `Source.first`, … — the value of each eager operator;
* `Source.aggregate`, `Source.aggregateSeed`, `Source.aggregateSeedResult` — the three folds;
* `Source.groupByElementCall`, `Source.aggregateCall`, … — the calls that those with several
  functions, a second source or a start build.

Expressions are texts, compiled with the bindings that go with them.
-/

import LambdaQuery.Query.Apply

namespace LambdaQuery.Source

/-! ### New sources -/

/-- The elements for which a condition holds. -/
def filter (s : Source) (predicate : String) (b : Bindings) : QueryResult Source :=
  s.derive .filter (some predicate) b

/-- A value of each element. -/
def select (s : Source) (selector : String) (b : Bindings) : QueryResult Source :=
  s.derive .select (some selector) b

/-- The elements of the sequences that a selector gives, one sequence after the other. -/
def selectMany (s : Source) (selector : String) (b : Bindings) : QueryResult Source :=
  s.derive .selectMany (some selector) b

def orderBy (s : Source) (key : String) (b : Bindings) : QueryResult Source :=
  s.derive .orderBy (some key) b

def orderByDescending (s : Source) (key : String) (b : Bindings) : QueryResult Source :=
  s.derive .orderByDescending (some key) b

/-- The source, which must be ordered, with a further key for elements that have been equal. -/
def thenBy (s : Source) (key : String) (b : Bindings) : QueryResult Source :=
  s.derive .thenBy (some key) b

def thenByDescending (s : Source) (key : String) (b : Bindings) : QueryResult Source :=
  s.derive .thenByDescending (some key) b

def take (s : Source) (count : Int32) : QueryResult Source := s.deriveWith .take (.int count)

def skip (s : Source) (count : Int32) : QueryResult Source := s.deriveWith .skip (.int count)

/-- The elements before the first for which a condition does not hold. -/
def takeWhile (s : Source) (predicate : String) (b : Bindings) : QueryResult Source :=
  s.derive .takeWhile (some predicate) b

/-- The elements from the first on for which a condition does not hold. -/
def skipWhile (s : Source) (predicate : String) (b : Bindings) : QueryResult Source :=
  s.derive .skipWhile (some predicate) b

def distinct (s : Source) : QueryResult Source := s.derive .distinct none .empty

def reverse (s : Source) : QueryResult Source := s.derive .reverse none .empty

/-- The elements, or the default of their type if there are none. -/
def defaultIfEmpty (s : Source) : QueryResult Source := s.derive .defaultIfEmpty none .empty

/-- The elements, or the given value if there are none. -/
def defaultIfEmptyWith (s : Source) (v : Value) : QueryResult Source :=
  s.deriveWith .defaultIfEmpty v

def concat (s : Source) (other : Value) : QueryResult Source := s.deriveWith .concat other

def union (s : Source) (other : Value) : QueryResult Source := s.deriveWith .union other

def intersect (s : Source) (other : Value) : QueryResult Source := s.deriveWith .intersect other

def except (s : Source) (other : Value) : QueryResult Source := s.deriveWith .except other

/-! ### Groups -/

/-- A selector of keys or elements of groups. -/
def groupSelector (s : Source) (argument text : String) (b : Bindings) : QueryResult Lambda :=
  Operator.groupBy.functionOf argument (some s) (Parameters.element s.element) (some text) b

/-- A selector of the results of groups with the given types of keys and elements. -/
def groupResult (s : Source) (text : String) (key element : Ty) (b : Bindings) :
    QueryResult Lambda :=
  Operator.groupBy.functionOf "resultSelector" (some s) (Parameters.groupResult key element)
    (some text) b

/-- The elements in groups of equal keys. -/
def groupBy (s : Source) (key : String) (b : Bindings) : QueryResult Source :=
  s.derive .groupBy (some key) b

def groupByElementCall (s : Source) (key element : String) (b : Bindings) : QueryResult Call := do
  let key ← s.groupSelector "keySelector" key b
  let element ← s.groupSelector "elementSelector" element b
  s.build .groupBy .keyElement [key, element] [] none

/-- The values of the elements in groups of equal keys. -/
def groupByElement (s : Source) (key element : String) (b : Bindings) : QueryResult Source := do
  deriveCall (← s.groupByElementCall key element b)

def groupByResultCall (s : Source) (key result : String) (b : Bindings) : QueryResult Call := do
  let key ← s.groupSelector "keySelector" key b
  let result ← s.groupResult result key.returns s.element b
  s.build .groupBy .keyResult [key, result] [] none

/-- A value of each group of elements. -/
def groupByResult (s : Source) (key result : String) (b : Bindings) : QueryResult Source := do
  deriveCall (← s.groupByResultCall key result b)

def groupByElementResultCall (s : Source) (key element result : String) (b : Bindings) :
    QueryResult Call := do
  let key ← s.groupSelector "keySelector" key b
  let element ← s.groupSelector "elementSelector" element b
  let result ← s.groupResult result key.returns element.returns b
  s.build .groupBy .keyElementResult [key, element, result] [] none

/-- A value of each group of values of the elements. -/
def groupByElementResult (s : Source) (key element result : String) (b : Bindings) :
    QueryResult Source := do
  deriveCall (← s.groupByElementResultCall key element result b)

/-! ### Two sources -/

/-- The call of a join of two sources on equal keys.  Both keys are compiled before the result. -/
def keyedJoinCall (s : Source) (operator : Operator) (inner : Source)
    (outerKey innerKey result : String) (b : Bindings) : QueryResult Call := do
  let outerKey ← operator.functionOf "outerKeySelector" (some s) (Parameters.element s.element)
    (some outerKey) b
  let innerKey ← operator.functionOf "innerKeySelector" (some inner)
    (Parameters.element inner.element) (some innerKey) b
  let types :=
    if operator = .groupJoin then Parameters.groupJoinResult s.element inner.element
    else Parameters.pair s.element inner.element
  let result ← operator.functionOf "resultSelector" (some s) types (some result) b
  s.build operator .keyed [outerKey, innerKey, result] [] (some inner)

/-- A join of two sources on equal keys. -/
def keyedJoin (s : Source) (operator : Operator) (inner : Source)
    (outerKey innerKey result : String) (b : Bindings) : QueryResult Source := do
  deriveCall (← s.keyedJoinCall operator inner outerKey innerKey result b)

/-- A value of each pair of elements whose keys are equal, in the order of the outer ones. -/
def join (s inner : Source) (outerKey innerKey result : String) (b : Bindings) :
    QueryResult Source :=
  s.keyedJoin .join inner outerKey innerKey result b

/-- A value of each outer element with all the inner ones whose key equals its own. -/
def groupJoin (s inner : Source) (outerKey innerKey result : String) (b : Bindings) :
    QueryResult Source :=
  s.keyedJoin .groupJoin inner outerKey innerKey result b

def zipCall (s inner : Source) (result : String) (b : Bindings) : QueryResult Call := do
  let result ← Operator.zip.functionOf "resultSelector" (some s)
    (Parameters.pair s.element inner.element) (some result) b
  s.build .zip .zip [result] [] (some inner)

/-- A value of each pair of elements at the same places, as far as both sources go. -/
def zip (s inner : Source) (result : String) (b : Bindings) : QueryResult Source := do
  deriveCall (← s.zipCall inner result b)

/-! ### Values -/

/-- The value of an operator that promises a kind of value. -/
def promised {α : Type} (operator : Operator) (read : Value → Option α) (v : Value) :
    QueryResult α :=
  match read v with
  | some a => .ok a
  | none => .error (.mismatch (.result operator v))

def readInt32 : Value → Option Int32
  | .int n => some n
  | _ => none

def readBool : Value → Option Bool
  | .bool b => some b
  | _ => none

/-- The number of elements for which a condition holds; a blank condition counts them all. -/
def count (s : Source) (predicate : String) (b : Bindings) : QueryResult Int32 := do
  promised .count readInt32 (← s.compute .count (some predicate) b)

def longCount (s : Source) (predicate : String) (b : Bindings) : QueryResult Int64 := do
  promised .longCount Value.toInt64? (← s.compute .longCount (some predicate) b)

def any (s : Source) (predicate : String) (b : Bindings) : QueryResult Bool := do
  promised .any readBool (← s.compute .any (some predicate) b)

def all (s : Source) (predicate : String) (b : Bindings) : QueryResult Bool := do
  promised .all readBool (← s.compute .all (some predicate) b)

def contains (s : Source) (v : Value) : QueryResult Bool := do
  promised .contains readBool (← s.computeWith .contains v)

def sequenceEqual (s : Source) (other : Value) : QueryResult Bool := do
  promised .sequenceEqual readBool (← s.computeWith .sequenceEqual other)

def first (s : Source) (predicate : String) (b : Bindings) : QueryResult Value :=
  s.compute .first (some predicate) b

def firstOrDefault (s : Source) (predicate : String) (b : Bindings) : QueryResult Value :=
  s.compute .firstOrDefault (some predicate) b

def single (s : Source) (predicate : String) (b : Bindings) : QueryResult Value :=
  s.compute .single (some predicate) b

def singleOrDefault (s : Source) (predicate : String) (b : Bindings) : QueryResult Value :=
  s.compute .singleOrDefault (some predicate) b

def last (s : Source) (predicate : String) (b : Bindings) : QueryResult Value :=
  s.compute .last (some predicate) b

def lastOrDefault (s : Source) (predicate : String) (b : Bindings) : QueryResult Value :=
  s.compute .lastOrDefault (some predicate) b

def elementAt (s : Source) (index : Int32) : QueryResult Value :=
  s.computeWith .elementAt (.int index)

def elementAtOrDefault (s : Source) (index : Int32) : QueryResult Value :=
  s.computeWith .elementAtOrDefault (.int index)

/-- The sum of a value of each element; a blank selector sums the elements. -/
def sum (s : Source) (selector : String) (b : Bindings) : QueryResult Value :=
  s.compute .sum (some selector) b

def average (s : Source) (selector : String) (b : Bindings) : QueryResult Value :=
  s.compute .average (some selector) b

def min (s : Source) (selector : String) (b : Bindings) : QueryResult Value :=
  s.compute .min (some selector) b

def max (s : Source) (selector : String) (b : Bindings) : QueryResult Value :=
  s.compute .max (some selector) b

/-! ### Folds -/

/-- Refuses a blank text for an argument of a fold. -/
def required (text argument : String) : QueryResult Unit :=
  if isBlankExpression (some text) then .error (.missingArgument .aggregate argument) else .ok ()

/-- The function of a fold, declared to return what it accumulates. -/
def accumulator (s : Source) (text : String) (accumulated : Ty) (b : Bindings) :
    QueryResult Lambda := do
  required text "func"
  let l ← Operator.aggregate.functionOf "func" (some s)
    (Parameters.accumulator accumulated s.element) (some text) b
  return l.accumulating accumulated

def aggregateCall (s : Source) (func : String) (b : Bindings) : QueryResult Call := do
  let func ← s.accumulator func s.element b
  s.build .aggregate .unseeded [func] [] none

/-- The fold of the elements from the first of them. -/
def aggregate (s : Source) (func : String) (b : Bindings) : QueryResult Value := do
  computeCall (← s.aggregateCall func b)

def aggregateSeedCall (s : Source) (seed : Value) (func : String) (b : Bindings) :
    QueryResult Call := do
  let accumulated ← Operator.aggregate.seedType seed
  let func ← s.accumulator func accumulated b
  s.build .aggregate .seeded [func] [seed] none

/-- The fold of the elements into a start, which may not be null. -/
def aggregateSeed (s : Source) (seed : Value) (func : String) (b : Bindings) :
    QueryResult Value := do
  computeCall (← s.aggregateSeedCall seed func b)

def aggregateSeedResultCall (s : Source) (seed : Value) (func result : String) (b : Bindings) :
    QueryResult Call := do
  let accumulated ← Operator.aggregate.seedType seed
  let func ← s.accumulator func accumulated b
  required result "resultSelector"
  let result ← Operator.aggregate.functionOf "resultSelector" (some s)
    (Parameters.element accumulated) (some result) b
  s.build .aggregate .seededResult [func, result] [seed] none

/-- A value of the fold of the elements into a start. -/
def aggregateSeedResult (s : Source) (seed : Value) (func result : String) (b : Bindings) :
    QueryResult Value := do
  computeCall (← s.aggregateSeedResultCall seed func result b)

end LambdaQuery.Source
