/-
**Typing of queries.**  The calls that lists of elements and values are made of, one rule for each
form of an operator.  A rule names the types of the functions and the constants of a call, and the
type that the library of signatures gives it.

Main definitions:
* `Lambda.HasType` — a function of a call takes arguments of the given types to values of a type;
* `Query.Lists` — the tree is one of lazy calls, and its elements are of a type;
* `Call.Gives` — the call of an eager operator over such a tree gives a value of a type.

Main results:
* `Query.Lists.yields` — the type of the tree has the element type;
* `Query.Lists.ordered` — a tree of an ordered type is a call that orders;
* `Query.Lists.lazy`, `Call.Gives.eager` — only lazy operators list elements, and only eager ones
  give values.
-/

import LambdaQuery.Proofs.ExprSoundness
import LambdaQuery.Query.Source
import LambdaQuery.Signature.Library

namespace LambdaQuery

open Signature (averageType)
open Value (AllBelong)

/-! ### Functions of a call -/

/-- The function takes arguments of the given types to values of a type.  It refers to nothing
around it. -/
structure Lambda.HasType (l : Lambda) (params : List Ty) (result : Ty) : Prop where
  typed : l.Typed Value.Belongs []
  paramTypes : l.paramTypes = params
  returns : l.returns = result

/-- A function type stands for itself alone, so a function fits a parameter of its own type. -/
theorem Lambda.Typed.hasType {l : Lambda} {params : List Ty} {result : Ty}
    (hl : l.Typed Value.Belongs [])
    (h : l.type.assignable (.function params result) = true) : l.HasType params result := by
  rcases Ty.assignable_cases h with h | h | ⟨h, -⟩ | h | ⟨d, e, -, h, -⟩ | ⟨d, e, h, -⟩
  · obtain ⟨hp, hr⟩ := Ty.function.inj h
    exact ⟨hl, hp, hr⟩
  all_goals cases h

/-! ### Lists of elements -/

/-- The tree of lazy calls whose elements are of a type. -/
inductive Query.Lists : Ty → Query → Prop
  | root {t : Ty} {values : List Value} (h : AllBelong values t) : Lists t (.root t values)
  | filtering {t : Ty} {q : Query} {operator : Operator} {l : Lambda}
      (hop : operator = .filter ∨ operator = .takeWhile ∨ operator = .skipWhile) (hq : Lists t q)
      (hl : l.HasType [t] .bool) :
      Lists t (.call ⟨operator, .predicate, [t], [.query q, .function l], .query t⟩)
  | counting {t : Ty} {q : Query} {operator : Operator} {n : Int32}
      (hop : operator = .take ∨ operator = .skip) (hq : Lists t q) :
      Lists t (.call ⟨operator, .count, [t], [.query q, .constant (.int n) .int], .query t⟩)
  | bare {t : Ty} {q : Query} {operator : Operator}
      (hop : operator = .distinct ∨ operator = .reverse ∨ operator = .defaultIfEmpty)
      (hq : Lists t q) : Lists t (.call ⟨operator, .none, [t], [.query q], .query t⟩)
  | orElse {t : Ty} {q : Query} {v : Value} (hq : Lists t q) (hv : v.Belongs t) :
      Lists t (.call ⟨.defaultIfEmpty, .element, [t], [.query q, .constant v t], .query t⟩)
  | listing {t : Ty} {q : Query} {operator : Operator} {values : List Value}
      (hop : operator = .concat ∨ operator = .union ∨ operator = .intersect ∨ operator = .except)
      (hq : Lists t q) (hvs : AllBelong values t) :
      Lists t (.call ⟨operator, .sequence, [t],
        [.query q, .constant (.sequence values) (.sequence t)], .query t⟩)
  | select {t u : Ty} {q : Query} {l : Lambda} (hq : Lists t q) (hl : l.HasType [t] u) :
      Lists u (.call ⟨.select, .selector, [t, u], [.query q, .function l], .query u⟩)
  | selectMany {t u : Ty} {q : Query} {l : Lambda} (hq : Lists t q)
      (hl : l.HasType [t] (.sequence u)) :
      Lists u (.call ⟨.selectMany, .selector, [t, u], [.query q, .function l], .query u⟩)
  | ordering {t u : Ty} {q : Query} {operator : Operator} {l : Lambda}
      (hop : operator = .orderBy ∨ operator = .orderByDescending) (hq : Lists t q)
      (hl : l.HasType [t] u) :
      Lists t (.call ⟨operator, .selector, [t, u], [.query q, .function l], .orderedQuery t⟩)
  /-- What is refined must be an ordering. -/
  | refining {t u : Ty} {c : Call} {operator : Operator} {l : Lambda}
      (hop : operator = .thenBy ∨ operator = .thenByDescending) (hc : c.operator.isOrdering = true)
      (hq : Lists t (.call c)) (hl : l.HasType [t] u) :
      Lists t (.call ⟨operator, .selector, [t, u], [.query (.call c), .function l],
        .orderedQuery t⟩)
  | group {t k : Ty} {q : Query} {key : Lambda} (hq : Lists t q) (hk : key.HasType [t] k) :
      Lists (.grouping k t) (.call ⟨.groupBy, .selector, [t, k], [.query q, .function key],
        .query (.grouping k t)⟩)
  | groupElement {t k e : Ty} {q : Query} {key element : Lambda} (hq : Lists t q)
      (hk : key.HasType [t] k) (he : element.HasType [t] e) :
      Lists (.grouping k e) (.call ⟨.groupBy, .keyElement, [t, k, e],
        [.query q, .function key, .function element], .query (.grouping k e)⟩)
  | groupResult {t k u : Ty} {q : Query} {key result : Lambda} (hq : Lists t q)
      (hk : key.HasType [t] k) (hr : result.HasType [k, .sequence t] u) :
      Lists u (.call ⟨.groupBy, .keyResult, [t, k, u],
        [.query q, .function key, .function result], .query u⟩)
  | groupElementResult {t k e u : Ty} {q : Query} {key element result : Lambda} (hq : Lists t q)
      (hk : key.HasType [t] k) (he : element.HasType [t] e)
      (hr : result.HasType [k, .sequence e] u) :
      Lists u (.call ⟨.groupBy, .keyElementResult, [t, k, e, u],
        [.query q, .function key, .function element, .function result], .query u⟩)
  | join {t s k u : Ty} {q i : Query} {outer inner result : Lambda} (hq : Lists t q)
      (hi : Lists s i) (ho : outer.HasType [t] k) (hn : inner.HasType [s] k)
      (hr : result.HasType [t, s] u) :
      Lists u (.call ⟨.join, .keyed, [t, s, k, u],
        [.query q, .query i, .function outer, .function inner, .function result], .query u⟩)
  | groupJoin {t s k u : Ty} {q i : Query} {outer inner result : Lambda} (hq : Lists t q)
      (hi : Lists s i) (ho : outer.HasType [t] k) (hn : inner.HasType [s] k)
      (hr : result.HasType [t, .sequence s] u) :
      Lists u (.call ⟨.groupJoin, .keyed, [t, s, k, u],
        [.query q, .query i, .function outer, .function inner, .function result], .query u⟩)
  | zip {t s u : Ty} {q i : Query} {result : Lambda} (hq : Lists t q) (hi : Lists s i)
      (hr : result.HasType [t, s] u) :
      Lists u (.call ⟨.zip, .zip, [t, s, u], [.query q, .query i, .function result], .query u⟩)

namespace Query.Lists

variable {t : Ty} {q : Query}

/-- The type of a tree has the type of its elements. -/
theorem yields (h : q.Lists t) : q.type = .query t ∨ q.type = .orderedQuery t := by
  cases h with
  | ordering => exact .inr rfl
  | refining => exact .inr rfl
  | _ => exact .inl rfl

/-- Only lazy operators list elements. -/
theorem lazy {c : Call} (h : Lists t (.call c)) : c.operator.execution = .lazy := by
  cases h with
  | filtering hop | bare hop => rcases hop with rfl | rfl | rfl <;> rfl
  | counting hop | ordering hop | refining hop => rcases hop with rfl | rfl <;> rfl
  | listing hop => rcases hop with rfl | rfl | rfl | rfl <;> rfl
  | _ => rfl

/-- A tree of an ordered type is a call that orders. -/
theorem ordered (h : q.Lists t) (ho : q.type = .orderedQuery t) :
    ∃ c, q = .call c ∧ c.operator.isOrdering = true := by
  cases h with
  | ordering hop =>
      refine ⟨_, rfl, ?_⟩
      rcases hop with rfl | rfl <;> rfl
  | refining hop =>
      refine ⟨_, rfl, ?_⟩
      rcases hop with rfl | rfl <;> rfl
  | _ => cases ho

end Query.Lists

/-! ### Values -/

/-- The type of what an operator gives of the elements that are chosen, if it is such an
operator. -/
def Operator.chosenType (operator : Operator) (t : Ty) : Option Ty :=
  match operator with
  | .count => some .int
  | .longCount => some .long
  | .any => some .bool
  | .first | .firstOrDefault | .single | .singleOrDefault | .last | .lastOrDefault => some t
  | _ => none

/-- The type of a sum or a mean of numbers of a type, if the operator gives one. -/
def Operator.totalType (operator : Operator) (number : Ty) : Option Ty :=
  match operator with
  | .sum => some number
  | .average => some (averageType number)
  | _ => none

theorem Operator.execution_of_chosenType {operator : Operator} {t r : Ty}
    (h : operator.chosenType t = some r) : operator.execution = .eager := by
  cases operator <;> first | rfl | cases h

theorem Operator.execution_of_totalType {operator : Operator} {n r : Ty}
    (h : operator.totalType n = some r) : operator.execution = .eager := by
  cases operator <;> first | rfl | cases h

/-- The call of an eager operator over a tree of lazy calls gives a value of a type. -/
inductive Call.Gives : Ty → Call → Prop
  | chosen {t r : Ty} {q : Query} {operator : Operator} (hop : operator.chosenType t = some r)
      (hq : q.Lists t) : Gives r ⟨operator, .none, [t], [.query q], r⟩
  | chosenWhere {t r : Ty} {q : Query} {operator : Operator} {l : Lambda}
      (hop : operator.chosenType t = some r) (hq : q.Lists t) (hl : l.HasType [t] .bool) :
      Gives r ⟨operator, .predicate, [t], [.query q, .function l], r⟩
  | all {t : Ty} {q : Query} {l : Lambda} (hq : q.Lists t) (hl : l.HasType [t] .bool) :
      Gives .bool ⟨.all, .predicate, [t], [.query q, .function l], .bool⟩
  | place {t : Ty} {q : Query} {operator : Operator} {n : Int32}
      (hop : operator = .elementAt ∨ operator = .elementAtOrDefault) (hq : q.Lists t) :
      Gives t ⟨operator, .count, [t], [.query q, .constant (.int n) .int], t⟩
  | contains {t : Ty} {q : Query} {v : Value} (hq : q.Lists t) :
      Gives .bool ⟨.contains, .element, [t], [.query q, .constant v t], .bool⟩
  | sequenceEqual {t : Ty} {q : Query} {values : List Value} (hq : q.Lists t) :
      Gives .bool ⟨.sequenceEqual, .sequence, [t],
        [.query q, .constant (.sequence values) (.sequence t)], .bool⟩
  /-- The elements may be of a type narrower than the numbers. -/
  | total {t n r : Ty} {q : Query} {operator : Operator} (hop : operator.totalType n = some r)
      (hn : n.isNumeric = true) (hq : q.Lists t) (ht : ∀ v : Value, v.Belongs t → v.Belongs n) :
      Gives r ⟨operator, .none, [], [.query q], r⟩
  | totalOf {t n r : Ty} {q : Query} {operator : Operator} {l : Lambda}
      (hop : operator.totalType n = some r) (hn : n.isNumeric = true) (hq : q.Lists t)
      (hl : l.HasType [t] n) : Gives r ⟨operator, .selector, [t], [.query q, .function l], r⟩
  | extreme {t : Ty} {q : Query} {operator : Operator} (hop : operator = .min ∨ operator = .max)
      (hq : q.Lists t) : Gives t ⟨operator, .none, [t], [.query q], t⟩
  | extremeOf {t u : Ty} {q : Query} {operator : Operator} {l : Lambda}
      (hop : operator = .min ∨ operator = .max) (hq : q.Lists t) (hl : l.HasType [t] u) :
      Gives u ⟨operator, .selector, [t, u], [.query q, .function l], u⟩
  | fold {t : Ty} {q : Query} {l : Lambda} (hq : q.Lists t) (hl : l.HasType [t, t] t) :
      Gives t ⟨.aggregate, .unseeded, [t], [.query q, .function l], t⟩
  | foldFrom {t u : Ty} {q : Query} {v : Value} {l : Lambda} (hq : q.Lists t) (hv : v.Belongs u)
      (hl : l.HasType [u, t] u) :
      Gives u ⟨.aggregate, .seeded, [t, u], [.query q, .constant v u, .function l], u⟩
  | foldInto {t u w : Ty} {q : Query} {v : Value} {l result : Lambda} (hq : q.Lists t)
      (hv : v.Belongs u) (hl : l.HasType [u, t] u) (hr : result.HasType [u] w) :
      Gives w ⟨.aggregate, .seededResult, [t, u, w],
        [.query q, .constant v u, .function l, .function result], w⟩

/-- Only eager operators give values. -/
theorem Call.Gives.eager {r : Ty} {c : Call} (h : c.Gives r) : c.operator.execution = .eager := by
  cases h with
  | chosen hop _ => exact Operator.execution_of_chosenType hop
  | chosenWhere hop _ _ => exact Operator.execution_of_chosenType hop
  | place hop _ => rcases hop with rfl | rfl <;> rfl
  | total hop _ _ _ => exact Operator.execution_of_totalType hop
  | totalOf hop _ _ _ => exact Operator.execution_of_totalType hop
  | extreme hop _ => rcases hop with rfl | rfl <;> rfl
  | extremeOf hop _ _ => rcases hop with rfl | rfl <;> rfl
  | _ => rfl

end LambdaQuery
