/-
The library of signatures, and the choice among overloads.

* `Signature.library` — every overload of every operator, in order;
* `Signature.overloads` — those of one operator in one shape;
* `Signature.resolve` — the first overload that a call fits, with the type of the call; if it fits
  none, the error of the last one.
-/

import LambdaQuery.Signature.Basic

namespace LambdaQuery.Signature

section Library

open TypePattern

/-- The element type of the source. -/
def typeT : TypePattern := param 0

def typeU : TypePattern := param 1

def typeV : TypePattern := param 2

def typeW : TypePattern := param 3

/-- A condition on the elements of the source. -/
def predicate : TypePattern := function [typeT] (concrete .bool)

/-- The overloads of an operator that filters or cuts its source. -/
def filtering (op : Operator) : List Signature :=
  [⟨op, .predicate, 1, [query typeT, predicate], query typeT⟩]

/-- The overloads of an operator that takes or skips so many elements. -/
def counting (op : Operator) : List Signature :=
  [⟨op, .count, 1, [query typeT, concrete .int], query typeT⟩]

/-- The overloads of an operator that needs nothing but its source. -/
def bare (op : Operator) : List Signature :=
  [⟨op, .none, 1, [query typeT], query typeT⟩]

/-- The overloads of an operator that joins its source with a list. -/
def listing (op : Operator) : List Signature :=
  [⟨op, .sequence, 1, [query typeT, sequence typeT], query typeT⟩]

/-- The overloads of an operator that starts an ordering. -/
def ordering (op : Operator) : List Signature :=
  [⟨op, .selector, 2, [query typeT, function [typeT] typeU], orderedQuery typeT⟩]

/-- The overloads of an operator that refines an ordering. -/
def refining (op : Operator) : List Signature :=
  [⟨op, .selector, 2, [orderedQuery typeT, function [typeT] typeU], orderedQuery typeT⟩]

/-- The overloads of `GroupBy`: `U` is the key, `V` the element or the result, `W` the result. -/
def grouped : List Signature :=
  [⟨.groupBy, .selector, 2, [query typeT, function [typeT] typeU],
      query (grouping typeU typeT)⟩,
    ⟨.groupBy, .keyElement, 3,
      [query typeT, function [typeT] typeU, function [typeT] typeV],
      query (grouping typeU typeV)⟩,
    ⟨.groupBy, .keyResult, 3,
      [query typeT, function [typeT] typeU, function [typeU, sequence typeT] typeV],
      query typeV⟩,
    ⟨.groupBy, .keyElementResult, 4,
      [query typeT, function [typeT] typeU, function [typeT] typeV,
        function [typeU, sequence typeV] typeW],
      query typeW⟩]

/-- The overload of a join on keys: `U` is the inner element, `V` the key, `W` the result, which is
computed from an outer element and `inner`. -/
def joining (op : Operator) (inner : TypePattern) : List Signature :=
  [⟨op, .keyed, 4,
      [query typeT, sequence typeU, function [typeT] typeV, function [typeU] typeV,
        function [typeT, inner] typeW],
      query typeW⟩]

/-- The overloads of an operator that gives a value, of all elements or of those that a condition
chooses. -/
def choosing (op : Operator) (result : TypePattern) : List Signature :=
  [⟨op, .none, 1, [query typeT], result⟩,
    ⟨op, .predicate, 1, [query typeT, predicate], result⟩]

/-- The overloads of an operator that gives the element at a place. -/
def placing (op : Operator) : List Signature :=
  [⟨op, .count, 1, [query typeT, concrete .int], typeT⟩]

/-- The overloads of `Sum` or `Average` for one numeric type. -/
def totalling (op : Operator) (number result : Ty) : List Signature :=
  [⟨op, .none, 0, [query (concrete number)], concrete result⟩,
    ⟨op, .selector, 1, [query typeT, function [typeT] (concrete number)], concrete result⟩]

/-- The numeric types in the order of their overloads. -/
def numbers : List Ty :=
  [.int, .long, .double, .nullable .int, .nullable .long, .nullable .double]

/-- The type of an average of numbers. -/
def averageType (number : Ty) : Ty := if number.isNullable then .nullable .double else .double

/-- The overloads of `Min` or `Max`. -/
def comparing (op : Operator) : List Signature :=
  [⟨op, .none, 1, [query typeT], typeT⟩,
    ⟨op, .selector, 2, [query typeT, function [typeT] typeU], typeU⟩]

/-- The overloads of `Aggregate`: `U` is the type of the start, `V` that of the result. -/
def folding : List Signature :=
  [⟨.aggregate, .unseeded, 1, [query typeT, function [typeT, typeT] typeT], typeT⟩,
    ⟨.aggregate, .seeded, 2, [query typeT, typeU, function [typeU, typeT] typeU], typeU⟩,
    ⟨.aggregate, .seededResult, 3,
      [query typeT, typeU, function [typeU, typeT] typeU, function [typeU] typeV], typeV⟩]

/-- Every overload of every operator. -/
def library : List Signature :=
  [.filter, .takeWhile, .skipWhile].flatMap filtering
    ++ [.take, .skip].flatMap counting
    ++ [.distinct, .reverse, .defaultIfEmpty].flatMap bare
    ++ [⟨.defaultIfEmpty, .element, 1, [query typeT, typeT], query typeT⟩]
    ++ [.concat, .union, .intersect, .except].flatMap listing
    ++ [⟨.select, .selector, 2, [query typeT, function [typeT] typeU], query typeU⟩,
      ⟨.selectMany, .selector, 2, [query typeT, function [typeT] (sequence typeU)],
        query typeU⟩]
    ++ [.orderBy, .orderByDescending].flatMap ordering
    ++ [.thenBy, .thenByDescending].flatMap refining
    ++ grouped
    ++ joining .join typeU
    ++ joining .groupJoin (sequence typeU)
    ++ [⟨.zip, .zip, 3, [query typeT, sequence typeU, function [typeT, typeU] typeV],
        query typeV⟩]
    ++ [.first, .firstOrDefault, .single, .singleOrDefault, .last, .lastOrDefault].flatMap
      (choosing · typeT)
    ++ [.elementAt, .elementAtOrDefault].flatMap placing
    ++ choosing .count (concrete .int)
    ++ choosing .longCount (concrete .long)
    ++ choosing .any (concrete .bool)
    ++ [⟨.all, .predicate, 1, [query typeT, predicate], concrete .bool⟩,
      ⟨.contains, .element, 1, [query typeT, typeT], concrete .bool⟩,
      ⟨.sequenceEqual, .sequence, 1, [query typeT, sequence typeT], concrete .bool⟩]
    ++ numbers.flatMap (fun number =>
      totalling .sum number number ++ totalling .average number (averageType number))
    ++ [.min, .max].flatMap comparing
    ++ folding

end Library

/-- The overloads of an operator in a shape. -/
def overloads (operator : Operator) (shape : Shape) : List Signature :=
  library.filter fun s => s.operator == operator && s.shape == shape

/-- The first of the overloads that a call fits; if it fits none, the error of the last one, or
`failure` if there is none. -/
def firstFit (typeArgs argTypes : List Ty) (failure : SignatureError) :
    List Signature → Except SignatureError (Signature × Ty)
  | [] => .error failure
  | s :: rest =>
    match s.check typeArgs argTypes with
    | .ok result => .ok (s, result)
    | .error e => firstFit typeArgs argTypes e rest

/-- The overload that a call fits, with the type of the call. -/
def resolve (operator : Operator) (shape : Shape) (typeArgs argTypes : List Ty) :
    Except SignatureError (Signature × Ty) :=
  firstFit typeArgs argTypes (.noOverload operator shape) (overloads operator shape)

/-- Every shape in which an operator can be called has an overload. -/
theorem overloads_ne_nil {operator : Operator} {shape : Shape} (h : shape ∈ operator.shapes) :
    overloads operator shape ≠ [] := by
  revert shape
  cases operator <;> simp only [Operator.shapes] <;> decide

end LambdaQuery.Signature
