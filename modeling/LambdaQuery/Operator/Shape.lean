/-
What a call of an operator carries besides its source.

* `Shape`, `Shape.display` — the shapes of argument lists, and how messages call them;
* `Operator.shapes` — the shapes in which an operator can be called;
* `Operator.expressionShape?`, `Operator.constantShape?` — the shape meant by a single expression
  and by a single constant.
-/

import LambdaQuery.Operator.Basic

namespace LambdaQuery

inductive Shape
  /-- Nothing but the source. -/
  | none
  /-- A condition on the elements. -/
  | predicate
  /-- A value computed from each element. -/
  | selector
  /-- A key and an element from each element. -/
  | keyElement
  /-- A key from each element and a result from each group. -/
  | keyResult
  /-- A key and an element from each element and a result from each group. -/
  | keyElementResult
  /-- A number of elements, or a place among them. -/
  | count
  /-- A value of the element type. -/
  | element
  /-- A list of values of the element type. -/
  | sequence
  /-- A second source, the keys of both and a result. -/
  | keyed
  /-- A second source and a result of pairs. -/
  | zip
  /-- A function that folds the elements. -/
  | unseeded
  /-- A start and a function that folds the elements into it. -/
  | seeded
  /-- A start, a function that folds the elements into it, and a result of the end value. -/
  | seededResult
  deriving Repr, DecidableEq

namespace Shape

/-- All shapes. -/
def values : List Shape :=
  [none, predicate, selector, keyElement, keyResult, keyElementResult, count, element, sequence,
    keyed, zip, unseeded, seeded, seededResult]

/-- What messages call a shape. -/
def display : Shape → String
  | none => "zero-argument"
  | predicate => "predicate"
  | selector => "selector"
  | keyElement => "key and element selector"
  | keyResult => "key and result selector"
  | keyElementResult => "key, element and result selector"
  | count => "count"
  | element => "element"
  | sequence => "sequence"
  | keyed => "keyed inner sequence"
  | zip => "inner sequence"
  | unseeded => "accumulator"
  | seeded => "seeded accumulator"
  | seededResult => "seeded accumulator with result selector"

/-- Does the call carry one function of the elements? -/
def isExpression : Shape → Bool
  | predicate | selector => true
  | _ => false

/-- Does the call carry one constant? -/
def isConstant : Shape → Bool
  | count | element | sequence => true
  | _ => false

/-- Does the call carry a second source? -/
def hasInner : Shape → Bool
  | keyed | zip => true
  | _ => false

end Shape

namespace Operator

/-- The shapes in which an operator can be called. -/
def shapes : Operator → List Shape
  | filter | takeWhile | skipWhile | all => [.predicate]
  | select | selectMany | orderBy | orderByDescending | thenBy | thenByDescending => [.selector]
  | groupBy => [.selector, .keyElement, .keyResult, .keyElementResult]
  | join | groupJoin => [.keyed]
  | zip => [.zip]
  | take | skip | elementAt | elementAtOrDefault => [.count]
  | distinct | reverse => [.none]
  | defaultIfEmpty => [.none, .element]
  | concat | union | intersect | except | sequenceEqual => [.sequence]
  | contains => [.element]
  | count | longCount | any | first | firstOrDefault | single | singleOrDefault | last
  | lastOrDefault => [.none, .predicate]
  | sum | average | min | max => [.none, .selector]
  | aggregate => [.unseeded, .seeded, .seededResult]

/-- Can the operator be called in the shape? -/
def accepts (op : Operator) (shape : Shape) : Bool := op.shapes.contains shape

/-- The shape of a call with a single expression. -/
def expressionShape? (op : Operator) : Option Shape := op.shapes.find? Shape.isExpression

/-- The shape of a call with a single constant. -/
def constantShape? (op : Operator) : Option Shape := op.shapes.find? Shape.isConstant

end Operator

end LambdaQuery
