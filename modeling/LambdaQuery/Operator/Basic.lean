/-
The operators of queries.

* `Operator`, `Operator.values` — the operators, and all of them in the order of their table;
* `Operator.name`, `Operator.ofName?` — the name of an operator, and the operator of a name;
* `Operator.ofName?_name` — each operator is found under its name;
* `Operator.execution` — does an operator make a new query or run one?
-/

namespace LambdaQuery

inductive Operator
  /-- The elements for which a condition holds; it goes by the name `Where`. -/
  | filter
  | select | selectMany
  | orderBy | orderByDescending | thenBy | thenByDescending
  | groupBy | join | groupJoin | zip
  | take | skip | takeWhile | skipWhile
  | distinct | reverse | defaultIfEmpty
  | concat | union | intersect | except
  | count | longCount | any | all
  | first | firstOrDefault | single | singleOrDefault | last | lastOrDefault
  | elementAt | elementAtOrDefault
  | contains | sequenceEqual
  | sum | average | min | max
  | aggregate
  deriving Repr, DecidableEq

/-- When the operator does its work. -/
inductive Execution
  /-- The operator makes a new query, and nothing runs. -/
  | lazy
  /-- The operator runs the query and gives a value. -/
  | eager
  deriving Repr, DecidableEq

/-- The word for a way of execution. -/
def Execution.word : Execution → String
  | lazy => "lazy"
  | eager => "eager"

namespace Operator

/-- All operators, in the order of their table: the lazy ones first. -/
def values : List Operator :=
  [filter, select, selectMany, orderBy, orderByDescending, thenBy, thenByDescending, groupBy, join,
    groupJoin, zip, take, skip, takeWhile, skipWhile, distinct, reverse, defaultIfEmpty, concat,
    union, intersect, except, count, longCount, any, all, first, firstOrDefault, single,
    singleOrDefault, last, lastOrDefault, elementAt, elementAtOrDefault, contains, sequenceEqual,
    sum, average, min, max, aggregate]

/-- The name of an operator. -/
def name : Operator → String
  | filter => "Where"
  | select => "Select"
  | selectMany => "SelectMany"
  | orderBy => "OrderBy"
  | orderByDescending => "OrderByDescending"
  | thenBy => "ThenBy"
  | thenByDescending => "ThenByDescending"
  | groupBy => "GroupBy"
  | join => "Join"
  | groupJoin => "GroupJoin"
  | zip => "Zip"
  | take => "Take"
  | skip => "Skip"
  | takeWhile => "TakeWhile"
  | skipWhile => "SkipWhile"
  | distinct => "Distinct"
  | reverse => "Reverse"
  | defaultIfEmpty => "DefaultIfEmpty"
  | concat => "Concat"
  | union => "Union"
  | intersect => "Intersect"
  | except => "Except"
  | count => "Count"
  | longCount => "LongCount"
  | any => "Any"
  | all => "All"
  | first => "First"
  | firstOrDefault => "FirstOrDefault"
  | single => "Single"
  | singleOrDefault => "SingleOrDefault"
  | last => "Last"
  | lastOrDefault => "LastOrDefault"
  | elementAt => "ElementAt"
  | elementAtOrDefault => "ElementAtOrDefault"
  | contains => "Contains"
  | sequenceEqual => "SequenceEqual"
  | sum => "Sum"
  | average => "Average"
  | min => "Min"
  | max => "Max"
  | aggregate => "Aggregate"

/-- The operator of a name, which must be spelled exactly. -/
def ofName? (name : String) : Option Operator := values.find? fun op => op.name == name

/-- Each operator is found under its name. -/
theorem ofName?_name (op : Operator) : ofName? op.name = some op := by cases op <;> decide

/-! ### Groups of operators -/

/-- Does the operator start or refine an ordering? -/
def isOrdering : Operator → Bool
  | orderBy | orderByDescending | thenBy | thenByDescending => true
  | _ => false

/-- Does the operator refine an ordering that its source must have? -/
def refinesOrdering : Operator → Bool
  | thenBy | thenByDescending => true
  | _ => false

/-- Does the operator order from the greatest key to the least? -/
def isDescending : Operator → Bool
  | orderByDescending | thenByDescending => true
  | _ => false

/-- When the operator does its work. -/
def execution : Operator → Execution
  | filter | select | selectMany | orderBy | orderByDescending | thenBy | thenByDescending | groupBy
  | join | groupJoin | zip | take | skip | takeWhile | skipWhile | distinct | reverse
  | defaultIfEmpty | concat | union | intersect | except => .lazy
  | _ => .eager

/-- Does the operator make a new query? -/
def isLazy (op : Operator) : Bool := op.execution == .lazy

/-- Does a blank expression stand for the form without arguments? -/
def hasFallback : Operator → Bool
  | count | longCount | any | first | firstOrDefault | single | singleOrDefault | last
  | lastOrDefault | sum | average | min | max => true
  | _ => false

/-- Does what a selector returns decide the type of the result? -/
def hasGenericResult : Operator → Bool
  | select | selectMany | orderBy | orderByDescending | thenBy | thenByDescending | groupBy | join
  | groupJoin | zip | min | max | aggregate => true
  | _ => false

/-- Has the operator one overload for each numeric type? -/
def isNumeric : Operator → Bool
  | sum | average => true
  | _ => false

end Operator

end LambdaQuery
