/-
**What a source accepts.**  The type arguments of a call are read off its functions, and the call
then has to fit an overload exactly.  This module settles for each form of each operator which calls
get through: those that satisfy a condition on the types of bodies, or on a constant, that a reader
would expect of the operator.  All others are refused with an error of types, and nothing else can
go wrong once the texts are compiled.

Main definitions:
* `QueryError.isTypeError` — an error of types;
* `DecidedBy` — a call is built if a condition holds, and else refused with an error of types;
* `Source.expressionFits`, `Source.constantFits` — the conditions on a body and on a constant;
* `Source.Acceptance` — the rules for all forms of operators over a source.

Main results:
* `Source.decided_of_overload` — a call is decided by whether its arguments fit the one overload;
* `Source.decided_function`, `Source.decided_none`, `Source.decided_constant` — the forms with one
  function, with none, and with a constant;
* `Source.decided_keyedJoin`, `Source.decided_aggregate`, … — the forms with several functions;
* `Source.Declared.acceptance` — **every source whose elements are not all null accepts calls by the
  rules**.
-/

import LambdaQuery.Proofs.AssignabilityOrder
import LambdaQuery.Proofs.Grouping
import LambdaQuery.Proofs.PlacedRuns

namespace LambdaQuery

open Signature TypePattern

/-! ### Decided calls -/

/-- Is it an error of types: of what does not fit where it stands, or of a call that fits no
signature? -/
def QueryError.isTypeError : QueryError → Bool
  | mismatch _ | signature _ => true
  | _ => false

/-- The result is there if the condition holds, and else refused with an error of types. -/
def DecidedBy {α : Type} (fits : Prop) (r : QueryResult α) : Prop :=
  Within (fun e => e.isTypeError = true ∧ ¬ fits) (fun _ => fits) r

namespace DecidedBy

variable {α : Type} {fits : Prop} {r : QueryResult α}

theorem iff (h : DecidedBy fits r) : (∃ a, r = .ok a) ↔ fits := by
  cases h with
  | ok h => exact ⟨fun _ => h, fun _ => ⟨_, rfl⟩⟩
  | error h =>
      constructor
      · rintro ⟨a, ha⟩
        cases ha
      · intro hfits
        exact absurd hfits h.2

theorem of_iff (h : (∃ a, r = .ok a) ↔ fits)
    (he : Within (fun e => e.isTypeError = true) (fun _ => True) r) : DecidedBy fits r := by
  cases he with
  | @ok a _ => exact .ok (h.mp ⟨a, rfl⟩)
  | @error e he =>
      refine .error ⟨he, fun hfits => ?_⟩
      obtain ⟨a, ha⟩ := h.mpr hfits
      cases ha

theorem congr {fits' : Prop} (h : DecidedBy fits r) (hiff : fits ↔ fits') : DecidedBy fits' r :=
  propext hiff ▸ h

/-- The one result that there can be is there if the condition holds. -/
theorem of_eq {a : α} (h : ∀ a', r = .ok a' ↔ fits ∧ a' = a)
    (he : Within (fun e => e.isTypeError = true) (fun _ => True) r) : DecidedBy fits r := by
  refine of_iff ?_ he
  constructor
  · rintro ⟨a', ha'⟩
    exact ((h a').mp ha').1
  · intro hfits
    exact ⟨a, (h a).mpr ⟨hfits, rfl⟩⟩

end DecidedBy

/-- An ordered query stands for queries of all types that its elements may be read as. -/
theorem Ty.orderedQuery_assignable_iff {t n : Ty} :
    (Ty.orderedQuery t).assignable (.query n) = true ↔ Ty.Reads t n := by
  simp [Ty.assignable, Ty.Reads]

/-! ### Building -/

namespace Source

variable {s : Source} {operator : Operator} {shape : Shape} {functions : List Lambda} {l : Lambda}
  {constants : List Value} {inner : Option Source} {typeArgs : List Ty}
  {queries arguments : List Argument} {v : Value}

/-- With its type arguments and its queries there, a call fails over types alone. -/
theorem build_refuses
    (hts : s.typeArguments operator shape functions constants inner = .ok typeArgs)
    (hqs : s.queries shape inner = .ok queries)
    (hks : Within (fun e => e.isTypeError = true) (fun _ => True)
      (s.constantArguments operator shape constants)) :
    Within (fun e => e.isTypeError = true) (fun _ => True)
      (s.build operator shape functions constants inner) := by
  rw [build]
  split
  · exact .error rfl
  rw [hts, hqs]
  show Within _ _ (s.constantArguments operator shape constants >>= _)
  refine hks.bind fun arguments _ => ?_
  refine Within.bind (P := fun _ => True) ?_ fun _ _ => .ok trivial
  exact Within.mapError (within_any _) fun _ _ => rfl

/-- A call whose operator has one overload in the shape is decided by whether its arguments fit. -/
theorem decided_of_overload {sig : Signature} {t : Ty} (hop : operator.accepts shape = true)
    (hts : s.typeArguments operator shape functions constants inner = .ok typeArgs)
    (hqs : s.queries shape inner = .ok queries)
    (hks : s.constantArguments operator shape constants = .ok arguments)
    (hsig : overloads operator shape = [sig]) (ha : typeArgs.length = sig.arity)
    (hr : sig.result.instantiate? typeArgs = some t) :
    DecidedBy
      (List.Forall₂ (fun p (a : Argument) => Admits typeArgs p a.type) sig.params
        (queries ++ arguments ++ functions.map .function))
      (s.build operator shape functions constants inner) := by
  refine .of_iff ?_ (build_refuses hts hqs (hks ▸ .ok trivial))
  constructor
  · rintro ⟨c, hc⟩
    obtain ⟨arguments', hks', sig', hmem, t', hfit, -⟩ := build_eq_ok hts hqs hc
    obtain rfl := Except.ok.inj (hks.symm.trans hks')
    rw [hsig, List.mem_singleton] at hmem
    exact hmem ▸ hfit
  · intro hargs
    refine ⟨_, build_of_resolve sig (t := t) hop hts hqs hks ?_⟩
    rw [resolve, hsig]
    exact firstFit_of_only id (List.mem_singleton_self sig)
      (check_of_admits ha (List.forall₂_map_right_iff.mpr hargs) hr)
      fun _ hm _ _ => List.mem_singleton.mp hm

/-! ### Arguments of operators -/

/-- A function may stand for the functions of its own type alone. -/
theorem admits_function_iff {ps : List TypePattern} {p : TypePattern} :
    Admits typeArgs (.function ps p) (Argument.function l).type ↔
      instantiateAll? ps typeArgs = some l.paramTypes ∧
        p.instantiate? typeArgs = some l.returns := by
  simp only [Admits, instantiate?, Argument.type, Lambda.type, Option.bind_eq_bind,
    Option.bind_eq_some_iff, Option.pure_def, Option.some.injEq]
  constructor
  · rintro ⟨_, ⟨ps', hps, r, hr, rfl⟩, ha⟩
    obtain ⟨rfl, rfl⟩ := Ty.function_assignable_iff.mp ha
    exact ⟨hps, hr⟩
  · rintro ⟨hps, hr⟩
    exact ⟨_, ⟨_, hps, _, hr, rfl⟩, Ty.function_assignable_iff.mpr ⟨rfl, rfl⟩⟩

/-- A start may stand for what its type accumulates. -/
theorem admits_seed {t : Ty} {rest : List Ty} :
    Admits (t :: v.typeOf :: rest) (param 1) (Argument.constant v v.typeOf).type :=
  ⟨_, rfl, Ty.assignable_refl _⟩

/-- The tree of a source may be the source of a call with its element type. -/
theorem Declared.admits_query {rest : List Ty} (hs : s.Declared) :
    Admits (s.element :: rest) (.query (param 0)) (Argument.query s.query).type :=
  ⟨_, rfl, hs.assignable⟩

/-- Elements that are read as numbers are those numbers, if they are not all null. -/
theorem eq_of_reads_number {t n : Ty} (ht : t ≠ .null) (hn : n ∈ numbers) (h : Ty.Reads t n) :
    t = n := by
  rcases h with rfl | ⟨hreference, h⟩
  · rfl
  rcases Ty.assignable_cases h with rfl | rfl | ⟨rfl, -⟩ | rfl | ⟨d, e, -, rfl, -⟩ |
    ⟨d, e, -, rfl, -⟩
  · rfl
  · simp [numbers] at hn
  · exact absurd rfl ht
  · -- numbers that may be missing are not read in place of those that may not
    have hnumber : t = .int ∨ t = .long ∨ t = .double := by simpa [numbers] using hn
    rcases hnumber with rfl | rfl | rfl <;> cases hreference
  · simp [numbers] at hn
  · simp [numbers] at hn

/-- Over elements that are not all null, a tree may stand for a query of numbers only if its own
elements are those numbers. -/
theorem Declared.assignable_numbers_iff (hs : s.Declared) (ht : s.element ≠ .null) {n : Ty}
    (hn : n ∈ numbers) : s.query.type.assignable (.query n) = true ↔ s.element = n := by
  have htype := hs.type_eq
  rw [type] at htype
  rcases htype with htype | htype
  · rw [htype, Ty.query_assignable_iff]
  · rw [htype, Ty.orderedQuery_assignable_iff]
    exact ⟨eq_of_reads_number ht hn, .inl⟩

/-- Only a tree with an order may stand for an ordered query. -/
theorem Declared.assignable_ordered_iff (hs : s.Declared) :
    s.query.type.assignable (.orderedQuery s.element) = true ↔ s.isOrdered = true := by
  rw [isOrdered]
  rcases hs.type_eq with htype | htype
  · have hquery : s.query.type = .query s.element := htype
    simp [htype, hquery, Ty.assignable]
  · have hquery : s.query.type = .orderedQuery s.element := htype
    simp [htype, hquery, Ty.assignable]

/-- It may also be the second source of a call. -/
theorem Declared.admits_inner {t : Ty} {rest : List Ty} (hs : s.Declared) :
    Admits (t :: s.element :: rest) (.sequence (param 1)) (Argument.query s.query).type := by
  refine ⟨_, rfl, ?_⟩
  rcases hs.type_eq with htype | htype
  · have hquery : s.query.type = .query s.element := htype
    simp [Argument.type, hquery, Ty.assignable]
  · have hquery : s.query.type = .orderedQuery s.element := htype
    simp [Argument.type, hquery, Ty.assignable]

/-! ### One function -/

/-- May the operator take a function of the elements whose body has the type? -/
def expressionFits (s : Source) (operator : Operator) (body : Ty) : Prop :=
  match operator with
  | .select | .orderBy | .orderByDescending | .groupBy | .min | .max => True
  | .selectMany => ∃ t, body.element? = some t
  | .sum | .average => body ∈ numbers
  | .thenBy | .thenByDescending => s.isOrdered = true
  | _ => body = .bool

section Function

variable (hs : s.Declared) (hl : l.paramTypes = [s.element])

include hs hl

theorem decided_predicate {p : TypePattern} {r : Ty} (hop : operator.accepts .predicate = true)
    (hsig : overloads operator .predicate =
      [⟨operator, .predicate, 1, [.query typeT, predicate], p⟩])
    (hr : p.instantiate? [s.element] = some r) :
    DecidedBy (l.returns = .bool) (s.build operator .predicate [l] [] none) :=
  .of_eq (fun _ => build_predicate_iff hs hl hop hsig hr) (build_refuses rfl rfl (.ok trivial))

theorem decided_chosenWhere {r : Ty} (hop : operator.chosenType s.element = some r) :
    DecidedBy (l.returns = .bool) (s.build operator .predicate [l] [] none) :=
  .of_eq (fun _ => build_chosenWhere_iff hs hl hop) (build_refuses rfl rfl (.ok trivial))

theorem decided_totalOf (hop : operator = .sum ∨ operator = .average) :
    DecidedBy (l.returns ∈ numbers) (s.build operator .selector [l] [] none) := by
  refine .of_eq (fun _ => build_totalOf_iff hs hl hop) ?_
  rcases hop with rfl | rfl <;> exact build_refuses rfl rfl (.ok trivial)

/-- A flattening selector that is declared to return a sequence is taken. -/
theorem decided_flattening {e : Ty} (hr : l.returns = .sequence e) :
    DecidedBy True (s.build .selectMany .selector [l] [] none) := by
  have hts : s.typeArguments .selectMany .selector [l] [] none = .ok [s.element, e] := by
    show (Except.ok [s.element, l.returns.element?.getD l.returns] : QueryResult _) = _
    rw [hr]
    rfl
  refine (decided_of_overload rfl hts rfl rfl rfl rfl rfl).congr ?_
  simp [typeT, typeU, Admits, instantiate?, instantiateAll?, Argument.type, Lambda.type, hl, hr,
    hs.assignable, Ty.function_assignable_iff]

/-- A selector is flattened if its values have elements. -/
theorem decided_selectMany :
    DecidedBy (∃ t, l.body.type.element? = some t)
      (l.flattened >>= fun l => s.build .selectMany .selector [l] [] none) := by
  rw [Lambda.flattened]
  cases he : l.body.type.element? with
  | none => exact .error ⟨rfl, by simp⟩
  | some e =>
      have hassignable : l.body.type.assignable (.sequence e) = true := by
        cases hb : l.body.type <;> rw [hb] at he <;> cases he <;> simp [Ty.assignable]
      simp only [Lambda.returning?, if_pos hassignable]
      exact (decided_flattening (l := .mk l.base l.params l.body (.sequence e)) hs hl rfl).congr
        (by simp)

omit hs in
/-- An operator whose result depends on what its selector returns takes any selector over a source
that it takes. -/
theorem decided_selector {p q : TypePattern} {r : Ty} {source : Prop}
    (hop : operator.accepts .selector = true)
    (hts : s.typeArguments operator .selector [l] [] none = .ok [s.element, l.returns])
    (hsig : overloads operator .selector =
      [⟨operator, .selector, 2, [q, .function [typeT] typeU], p⟩])
    (hr : p.instantiate? [s.element, l.returns] = some r)
    (hq : Admits [s.element, l.returns] q s.query.type ↔ source) :
    DecidedBy source (s.build operator .selector [l] [] none) := by
  refine (decided_of_overload hop hts rfl rfl hsig rfl hr).congr ?_
  simp [typeT, typeU, Admits, instantiate?, instantiateAll?, Argument.type, Lambda.type, hl,
    Ty.function_assignable_iff] at hq ⊢
  exact hq

/-- A function that the operator takes as it is is decided by what it returns. -/
theorem decided_taken (hshape : operator.expressionShape? = some shape)
    (hmany : operator ≠ .selectMany) :
    DecidedBy (s.expressionFits operator l.returns) (s.build operator shape [l] [] none) := by
  -- The operators by what their overloads say of the function: it is a condition, it gives numbers,
  -- or it gives anything.
  cases operator
  case filter | takeWhile | skipWhile =>
    cases hshape
    exact decided_predicate (p := .query typeT) hs hl rfl rfl rfl
  case all =>
    cases hshape
    exact decided_predicate (p := .concrete .bool) hs hl rfl rfl rfl
  case count | longCount | any | first | firstOrDefault | single | singleOrDefault | last
      | lastOrDefault =>
    cases hshape
    exact decided_chosenWhere hs hl rfl
  case sum =>
    cases hshape
    exact decided_totalOf hs hl (.inl rfl)
  case average =>
    cases hshape
    exact decided_totalOf hs hl (.inr rfl)
  case select =>
    cases hshape
    exact decided_selector (p := .query typeU) hl rfl rfl rfl rfl (iff_true_intro hs.admits_query)
  case orderBy | orderByDescending =>
    cases hshape
    exact decided_selector (p := .orderedQuery typeT) hl rfl rfl rfl rfl
      (iff_true_intro hs.admits_query)
  case groupBy =>
    cases hshape
    exact decided_selector (p := .query (.grouping typeU typeT)) hl rfl rfl rfl rfl
      (iff_true_intro hs.admits_query)
  case min | max =>
    cases hshape
    exact decided_selector (p := typeU) hl rfl rfl rfl rfl (iff_true_intro hs.admits_query)
  case thenBy | thenByDescending =>
    cases hshape
    refine decided_selector (p := .orderedQuery typeT) (q := .orderedQuery typeT) hl rfl rfl rfl rfl
      ?_
    simp only [typeT, Admits, instantiate?, List.getElem?_cons_zero, Option.map_some,
      Option.some.injEq, exists_eq_left', hs.assignable_ordered_iff]
    exact Iff.rfl
  case selectMany => exact absurd rfl hmany
  all_goals cases hshape

/-- A function of the elements is decided by its body. -/
theorem decided_function (hr : l.returns = l.body.type)
    (hshape : operator.expressionShape? = some shape) :
    DecidedBy (s.expressionFits operator l.body.type)
      (operator.adjust l >>= fun l => s.build operator shape [l] [] none) := by
  by_cases hmany : operator = .selectMany
  · subst hmany
    cases hshape
    exact decided_selectMany hs hl
  · have hadjust : operator.adjust l = .ok l := by
      cases operator <;> first | rfl | exact absurd rfl hmany
    rw [hadjust, ← hr]
    exact decided_taken hs hl hshape hmany

end Function

/-! ### No function -/

/-- Without a function, sums and means need numbers, and all else is built over any source. -/
theorem decided_none (hs : s.Declared) (ht : s.element ≠ .null)
    (hop : operator.accepts .none = true) :
    DecidedBy (operator.isNumeric = true → s.element ∈ numbers)
      (s.build operator .none [] [] none) := by
  -- Sums and means have an overload for each type of numbers, all other operators have one.
  cases hn : operator.isNumeric with
  | true =>
      have hop : operator = .sum ∨ operator = .average := by
        cases operator <;> first | exact .inl rfl | exact .inr rfl | cases hn
      suffices h : DecidedBy (s.element ∈ numbers) (s.build operator .none [] [] none) from
        h.congr (by simp)
      refine .of_eq (fun _ => build_total_iff hop fun m hm => hs.assignable_numbers_iff ht hm) ?_
      rcases hop with rfl | rfl <;> exact build_refuses rfl rfl (.ok trivial)
  | false =>
      have hts : s.typeArguments operator .none [] [] none = .ok [s.element] := by
        simp [typeArguments, hn, pure, Except.pure]
      have hsig : ∃ p r, overloads operator .none = [⟨operator, .none, 1, [.query typeT], p⟩] ∧
          p.instantiate? [s.element] = some r := by
        cases operator <;> first | (cases hop; done) | (cases hn; done) | exact ⟨_, _, rfl, rfl⟩
      obtain ⟨p, r, hsig, hr⟩ := hsig
      exact (decided_of_overload hop hts rfl rfl hsig rfl hr).congr
        (iff_of_true (.cons hs.admits_query .nil) (by simp))

/-! ### A constant -/

/-- May a constant stand in a call of the shape? -/
def constantFits (s : Source) (shape : Shape) (v : Value) : Prop :=
  match shape with
  | .count => ∃ n, v = .int n
  | .element => v.conforms s.element = true
  | _ => ∃ items, v = .sequence items ∧ ∀ item ∈ items, item.conforms s.element = true

/-- The type of a constant is decided by that, if the constant is there at all. -/
theorem decided_constantType (hshape : operator.constantShape? = some shape)
    (hv : ¬ (shape = .sequence ∧ v = .null)) :
    DecidedBy (s.constantFits shape v) (operator.constantType shape s.element v) := by
  have hconstant : shape.isConstant = true := List.find?_some hshape
  cases shape <;> cases hconstant
  case count =>
    cases v
    case int n => exact .ok ⟨n, rfl⟩
    all_goals exact .error ⟨rfl, by simp [constantFits]⟩
  case element =>
    rw [Operator.constantType]
    split
    · rename_i h
      exact .ok h
    · rename_i h
      exact .error ⟨rfl, h⟩
  case sequence =>
    cases v
    case null => exact absurd ⟨rfl, rfl⟩ hv
    case sequence items =>
      simp only [Operator.constantType]
      split
      · rename_i hnone
        exact .ok ⟨items, rfl, by simpa using hnone⟩
      · rename_i item hsome
        refine .error ⟨rfl, ?_⟩
        rintro ⟨items', hlist, hall⟩
        cases hlist
        have hitem := List.find?_some hsome
        rw [hall item (List.mem_of_find?_eq_some hsome)] at hitem
        cases hitem
    all_goals exact .error ⟨rfl, by simp [constantFits]⟩

/-- A call with a constant of a type that the operator takes is decided by that type. -/
theorem decided_byConstant {fits : Prop} {q p : TypePattern} {r : Ty} (hs : s.Declared)
    (hop : operator.accepts shape = true)
    (hts : s.typeArguments operator shape [] [v] none = .ok [s.element])
    (hqs : s.queries shape none = .ok [.query s.query])
    (hsig : overloads operator shape = [⟨operator, shape, 1, [.query typeT, q], p⟩])
    (hr : p.instantiate? [s.element] = some r)
    (hv : DecidedBy fits (operator.constantType shape s.element v))
    (hq : ∀ t, operator.constantType shape s.element v = .ok t → Admits [s.element] q t) :
    DecidedBy fits (s.build operator shape [] [v] none) := by
  cases hk : operator.constantType shape s.element v with
  | error e =>
      -- the constant is refused before an overload is looked for
      have hbuild : s.build operator shape [] [v] none = .error e := by
        rw [build, hts, hqs, constantArguments, Each.map, hk, hop]
        rfl
      rw [hk] at hv
      cases hv with
      | error he => exact hbuild ▸ .error he
  | ok t =>
      have hks : s.constantArguments operator shape [v] = .ok [.constant v t] := by
        rw [constantArguments, Each.map, hk]
        rfl
      have hfits : fits := hv.iff.mp ⟨t, hk⟩
      exact (decided_of_overload hop hts hqs hks hsig rfl hr).congr
        (iff_of_true (.cons hs.admits_query (.cons (hq t hk) .nil)) hfits)

/-- So is the call with it. -/
theorem decided_constant (hs : s.Declared) (hshape : operator.constantShape? = some shape)
    (hv : ¬ (shape = .sequence ∧ v = .null)) :
    DecidedBy (s.constantFits shape v) (s.constantCall operator v) := by
  have hthere : ¬ (decide (shape = .sequence) && v.isNull) = true := by
    intro h
    obtain ⟨hsequence, hnull⟩ := Bool.and_eq_true_iff.mp h
    refine hv ⟨of_decide_eq_true hsequence, ?_⟩
    cases v <;> cases hnull
    rfl
  have hk := decided_constantType (s := s) hshape hv
  have hself : s.element.assignable s.element = true := Ty.assignable_refl _
  rw [constantCall, hshape]
  simp only [if_neg hthere]
  have hshapes : shape = .count ∨ shape = .element ∨ shape = .sequence := by
    cases operator <;> cases hshape <;> simp
  obtain rfl | rfl | rfl := hshapes
  · obtain ⟨p, r, hop, hsig, hr⟩ : ∃ p r, operator.accepts .count = true ∧
        overloads operator .count =
          [⟨operator, .count, 1, [.query typeT, .concrete .int], p⟩] ∧
        p.instantiate? [s.element] = some r := by
      cases operator <;> cases hshape <;> exact ⟨_, _, rfl, rfl, rfl⟩
    refine decided_byConstant hs hop rfl rfl hsig hr hk fun t ht => ?_
    obtain ⟨n, -, rfl⟩ := Operator.constantType_count ht
    exact ⟨_, rfl, by decide⟩
  · obtain ⟨p, r, hop, hsig, hr⟩ : ∃ p r, operator.accepts .element = true ∧
        overloads operator .element = [⟨operator, .element, 1, [.query typeT, typeT], p⟩] ∧
        p.instantiate? [s.element] = some r := by
      cases operator <;> cases hshape <;> exact ⟨_, _, rfl, rfl, rfl⟩
    refine decided_byConstant hs hop rfl rfl hsig hr hk fun t ht => ?_
    obtain ⟨-, rfl⟩ := Operator.constantType_element ht
    exact ⟨_, rfl, hself⟩
  · obtain ⟨p, r, hop, hsig, hr⟩ : ∃ p r, operator.accepts .sequence = true ∧
        overloads operator .sequence =
          [⟨operator, .sequence, 1, [.query typeT, .sequence typeT], p⟩] ∧
        p.instantiate? [s.element] = some r := by
      cases operator <;> cases hshape <;> exact ⟨_, _, rfl, rfl, rfl⟩
    refine decided_byConstant hs hop rfl rfl hsig hr hk fun t ht => ?_
    obtain ⟨-, -, -, rfl⟩ := Operator.constantType_sequence ht
    exact ⟨_, rfl, by simp [Ty.assignable]⟩

end Source

/-! ### Folding functions -/

namespace Lambda

variable {l : Lambda} {accumulated : Ty}

theorem accumulating_paramTypes : (l.accumulating accumulated).paramTypes = l.paramTypes := by
  rw [accumulating, returning?]
  split
  · rfl
  · split <;> rfl

/-- The function is declared to return what it accumulates just when its body may stand for that. -/
theorem accumulating_returns_iff (hr : l.returns = l.body.type) :
    (l.accumulating accumulated).returns = accumulated ↔
      l.body.type.assignable accumulated = true := by
  rw [accumulating, returning?]
  split
  · -- a function that returns the type already is left as it is
    rename_i h
    rw [← hr, h]
    simp [Ty.assignable_refl]
  · rename_i h
    split
    · rename_i hassignable
      simp [hassignable, returns]
    · -- so is one that cannot return it, for the overload to refuse
      rename_i hassignable
      simp [hassignable, h]

end Lambda

namespace Source

variable {s inner : Source} {operator : Operator} {shape : Shape} {b : Bindings}

/-! ### Several functions -/

section Functions

variable {k e r ik f : Lambda} {key element result innerKey func : String} (hs : s.Declared)

include hs

/-- Groups with values of their elements are built over any source. -/
theorem exists_groupByElementCall (hk : Compiles key [s.element] b k)
    (he : Compiles element [s.element] b e) : ∃ c, s.groupByElementCall key element b = .ok c := by
  have hcall : s.groupByElementCall key element b = s.build .groupBy .keyElement [k, e] [] none :=
    hk.functionOf_bind.trans he.functionOf_bind
  rw [hcall, (decided_of_overload rfl rfl rfl rfl rfl rfl rfl).iff]
  simp [typeT, typeU, typeV, admits_function_iff, instantiate?, instantiateAll?, hs.admits_query,
    hk.paramTypes, he.paramTypes]

/-- So are the results of groups, -/
theorem exists_groupByResultCall (hk : Compiles key [s.element] b k)
    (hr : Compiles result [k.body.type, .sequence s.element] b r) :
    ∃ c, s.groupByResultCall key result b = .ok c := by
  have hcall : s.groupByResultCall key result b = s.build .groupBy .keyResult [k, r] [] none := by
    rw [← hk.returns] at hr
    exact hk.functionOf_bind.trans hr.functionOf_bind
  rw [hcall, (decided_of_overload rfl rfl rfl rfl rfl rfl rfl).iff]
  simp [typeT, typeU, typeV, admits_function_iff, instantiate?, instantiateAll?, hs.admits_query,
    hk.paramTypes, hk.returns, hr.paramTypes]

/-- and those of groups with values of their elements. -/
theorem exists_groupByElementResultCall (hk : Compiles key [s.element] b k)
    (he : Compiles element [s.element] b e)
    (hr : Compiles result [k.body.type, .sequence e.body.type] b r) :
    ∃ c, s.groupByElementResultCall key element result b = .ok c := by
  have hcall : s.groupByElementResultCall key element result b =
      s.build .groupBy .keyElementResult [k, e, r] [] none := by
    rw [← hk.returns, ← he.returns] at hr
    exact hk.functionOf_bind.trans (he.functionOf_bind.trans hr.functionOf_bind)
  rw [hcall, (decided_of_overload rfl rfl rfl rfl rfl rfl rfl).iff]
  simp [typeT, typeU, typeV, typeW, admits_function_iff, instantiate?, instantiateAll?,
    hs.admits_query, hk.paramTypes, hk.returns, he.paramTypes, he.returns, hr.paramTypes]

/-- A join is decided by whether its keys have one type. -/
theorem decided_keyedJoin {types : List Ty} (hi : inner.Declared)
    (hop : operator = .join ∨ operator = .groupJoin)
    (htypes : types =
      if operator = .groupJoin then Parameters.groupJoinResult s.element inner.element
      else Parameters.pair s.element inner.element)
    (hk : Compiles key [s.element] b k) (hik : Compiles innerKey [inner.element] b ik)
    (hr : Compiles result types b r) :
    DecidedBy (k.body.type = ik.body.type)
      (s.keyedJoinCall operator inner key innerKey result b) := by
  have hcall : s.keyedJoinCall operator inner key innerKey result b =
      s.build operator .keyed [k, ik, r] [] (some inner) := by
    subst htypes
    exact hk.functionOf_bind.trans (hik.functionOf_bind.trans hr.functionOf_bind)
  rw [hcall]
  rcases hop with rfl | rfl
  all_goals
    refine (decided_of_overload rfl rfl rfl rfl rfl rfl rfl).congr ?_
    simp [typeT, typeU, typeV, typeW, admits_function_iff, instantiate?, instantiateAll?,
      hs.admits_query, hi.admits_inner, hk.paramTypes, hk.returns, hik.paramTypes, hik.returns,
      hr.paramTypes, htypes, Parameters.groupJoinResult, Parameters.pair, eq_comm]

/-- Any two sources may be zipped. -/
theorem exists_zipCall (hi : inner.Declared)
    (hr : Compiles result [s.element, inner.element] b r) :
    ∃ c, s.zipCall inner result b = .ok c := by
  have hcall : s.zipCall inner result b = s.build .zip .zip [r] [] (some inner) :=
    hr.functionOf_bind
  rw [hcall, (decided_of_overload rfl rfl rfl rfl rfl rfl rfl).iff]
  simp [typeT, typeU, typeV, admits_function_iff, instantiate?, instantiateAll?,
    hs.admits_query, hi.admits_inner, hr.paramTypes]

end Functions

/-! ### Folds -/

section Folds

variable {f r : Lambda} {func result : String} {seed : Value} {accumulated : Ty}

theorem accumulator_bind {k : Lambda → QueryResult Call}
    (hf : Compiles func [accumulated, s.element] b f) :
    (s.accumulator func accumulated b >>= k) = k (f.accumulating accumulated) := by
  have haccumulator : s.accumulator func accumulated b = .ok (f.accumulating accumulated) := by
    rw [accumulator]
    exact hf.required_bind.trans hf.functionOf_bind
  rw [haccumulator]
  rfl

theorem seedType_of_ne (hseed : seed ≠ .null) : operator.seedType seed = .ok seed.typeOf := by
  cases seed <;> first | rfl | exact absurd rfl hseed

variable (hs : s.Declared)

include hs

/-- A fold is decided by whether what its function makes may be accumulated. -/
theorem decided_aggregate (hf : Compiles func [s.element, s.element] b f) :
    DecidedBy (f.body.type.assignable s.element = true) (s.aggregateCall func b) := by
  have hcall : s.aggregateCall func b =
      s.build .aggregate .unseeded [f.accumulating s.element] [] none := accumulator_bind hf
  rw [hcall]
  refine (decided_of_overload rfl rfl rfl rfl rfl rfl rfl).congr ?_
  rw [← Lambda.accumulating_returns_iff hf.returns]
  simp [typeT, admits_function_iff, instantiate?, instantiateAll?, hs.admits_query,
    Lambda.accumulating_paramTypes, hf.paramTypes, eq_comm]

omit hs in
/-- A start that is not null is an argument of its own type. -/
theorem constantArguments_seed (hseed : seed ≠ .null)
    (hshape : shape = .seeded ∨ shape = .seededResult) :
    s.constantArguments operator shape [seed] = .ok [.constant seed seed.typeOf] := by
  have htype : operator.constantType shape s.element seed = .ok seed.typeOf := by
    rcases hshape with rfl | rfl <;> exact seedType_of_ne hseed
  rw [constantArguments, Each.map, htype]
  rfl

/-- So is one into a start, -/
theorem decided_aggregateSeed (hseed : seed ≠ .null)
    (hf : Compiles func [seed.typeOf, s.element] b f) :
    DecidedBy (f.body.type.assignable seed.typeOf = true) (s.aggregateSeedCall seed func b) := by
  have hstart : Operator.aggregate.seedType seed = .ok seed.typeOf := seedType_of_ne hseed
  have hcall : s.aggregateSeedCall seed func b =
      s.build .aggregate .seeded [f.accumulating seed.typeOf] [seed] none := by
    rw [aggregateSeedCall, hstart]
    exact accumulator_bind hf
  have hts : s.typeArguments .aggregate .seeded [f.accumulating seed.typeOf] [seed] none =
      .ok [s.element, seed.typeOf] := by
    simp only [typeArguments, hstart]
    rfl
  rw [hcall]
  refine (decided_of_overload rfl hts rfl (constantArguments_seed hseed (.inl rfl)) rfl rfl
    rfl).congr ?_
  rw [← Lambda.accumulating_returns_iff hf.returns]
  simp [typeT, typeU, admits_function_iff, instantiate?, instantiateAll?, hs.admits_query,
    Lambda.accumulating_paramTypes, hf.paramTypes, admits_seed, eq_comm]

/-- and one whose end value is passed on. -/
theorem decided_aggregateSeedResult (hseed : seed ≠ .null)
    (hf : Compiles func [seed.typeOf, s.element] b f) (hr : Compiles result [seed.typeOf] b r) :
    DecidedBy (f.body.type.assignable seed.typeOf = true)
      (s.aggregateSeedResultCall seed func result b) := by
  have hstart : Operator.aggregate.seedType seed = .ok seed.typeOf := seedType_of_ne hseed
  have hcall : s.aggregateSeedResultCall seed func result b =
      s.build .aggregate .seededResult [f.accumulating seed.typeOf, r] [seed] none := by
    rw [aggregateSeedResultCall, hstart]
    exact (accumulator_bind hf).trans (hr.required_bind.trans hr.functionOf_bind)
  have hts : s.typeArguments .aggregate .seededResult [f.accumulating seed.typeOf, r] [seed] none =
      .ok [s.element, seed.typeOf, r.returns] := by
    simp only [typeArguments, hstart]
    rfl
  rw [hcall]
  refine (decided_of_overload rfl hts rfl (constantArguments_seed hseed (.inr rfl)) rfl rfl
    rfl).congr ?_
  rw [← Lambda.accumulating_returns_iff hf.returns]
  simp [typeT, typeU, typeV, admits_function_iff, instantiate?, instantiateAll?, hs.admits_query,
    Lambda.accumulating_paramTypes, hf.paramTypes, hr.paramTypes, admits_seed, eq_comm]

end Folds

/-! ### All forms -/

/-- The rules by which a source accepts calls, once the texts of their functions compile over the
parameters that the operators give them. -/
structure Acceptance (s : Source) : Prop where
  /-- One function of the elements. -/
  expression : ∀ {operator : Operator} {shape : Shape} {text : String} {b : Bindings} {l : Lambda},
    operator.expressionShape? = some shape → Compiles text (Parameters.element s.element) b l →
      DecidedBy (s.expressionFits operator l.body.type) (s.expressionCall operator (some text) b)
  /-- No function: sums and means are of numbers, and all else is of anything. -/
  bare : ∀ {operator : Operator} {blank : Option String} {b : Bindings},
    operator.accepts .none = true → isBlankExpression blank = true →
      DecidedBy (operator.isNumeric = true → s.element ∈ numbers)
        (s.expressionCall operator blank b)
  /-- A constant. -/
  constant : ∀ {operator : Operator} {shape : Shape} {v : Value},
    operator.constantShape? = some shape → ¬ (shape = .sequence ∧ v = .null) →
      DecidedBy (s.constantFits shape v) (s.constantCall operator v)
  /-- A list that is not there is missing, before any type is looked at. -/
  nullList : ∀ {operator : Operator}, operator.constantShape? = some .sequence →
    s.constantCall operator .null = .error .missingSource
  groupByElement : ∀ {key element : String} {b : Bindings} {k e : Lambda},
    Compiles key (Parameters.element s.element) b k →
    Compiles element (Parameters.element s.element) b e →
      ∃ c, s.groupByElementCall key element b = .ok c
  groupByResult : ∀ {key result : String} {b : Bindings} {k r : Lambda},
    Compiles key (Parameters.element s.element) b k →
    Compiles result (Parameters.groupResult k.body.type s.element) b r →
      ∃ c, s.groupByResultCall key result b = .ok c
  groupByElementResult : ∀ {key element result : String} {b : Bindings} {k e r : Lambda},
    Compiles key (Parameters.element s.element) b k →
    Compiles element (Parameters.element s.element) b e →
    Compiles result (Parameters.groupResult k.body.type e.body.type) b r →
      ∃ c, s.groupByElementResultCall key element result b = .ok c
  /-- Both keys of a join have one type. -/
  join : ∀ {inner : Source} {outerKey innerKey result : String} {b : Bindings} {k ik r : Lambda},
    inner.Declared → Compiles outerKey (Parameters.element s.element) b k →
    Compiles innerKey (Parameters.element inner.element) b ik →
    Compiles result (Parameters.pair s.element inner.element) b r →
      DecidedBy (k.body.type = ik.body.type)
        (s.keyedJoinCall .join inner outerKey innerKey result b)
  groupJoin : ∀ {inner : Source} {outerKey innerKey result : String} {b : Bindings}
      {k ik r : Lambda},
    inner.Declared → Compiles outerKey (Parameters.element s.element) b k →
    Compiles innerKey (Parameters.element inner.element) b ik →
    Compiles result (Parameters.groupJoinResult s.element inner.element) b r →
      DecidedBy (k.body.type = ik.body.type)
        (s.keyedJoinCall .groupJoin inner outerKey innerKey result b)
  zip : ∀ {inner : Source} {result : String} {b : Bindings} {r : Lambda}, inner.Declared →
    Compiles result (Parameters.pair s.element inner.element) b r →
      ∃ c, s.zipCall inner result b = .ok c
  /-- What a fold makes may be accumulated. -/
  aggregate : ∀ {func : String} {b : Bindings} {f : Lambda},
    Compiles func (Parameters.accumulator s.element s.element) b f →
      DecidedBy (f.body.type.assignable s.element = true) (s.aggregateCall func b)
  aggregateSeed : ∀ {seed : Value} {func : String} {b : Bindings} {f : Lambda}, seed ≠ .null →
    Compiles func (Parameters.accumulator seed.typeOf s.element) b f →
      DecidedBy (f.body.type.assignable seed.typeOf = true) (s.aggregateSeedCall seed func b)
  aggregateSeedResult : ∀ {seed : Value} {func result : String} {b : Bindings} {f r : Lambda},
    seed ≠ .null → Compiles func (Parameters.accumulator seed.typeOf s.element) b f →
    Compiles result (Parameters.element seed.typeOf) b r →
      DecidedBy (f.body.type.assignable seed.typeOf = true)
        (s.aggregateSeedResultCall seed func result b)
  /-- A start that is not there has no type to accumulate. -/
  nullSeed : ∀ {func result : String} {b : Bindings},
    s.aggregateSeedCall .null func b = .error (.missingArgument .aggregate "seed") ∧
      s.aggregateSeedResultCall .null func result b = .error (.missingArgument .aggregate "seed")

/-- An operator that takes no function may be given a blank one. -/
theorem takesBlank_of_accepts_none (hop : operator.accepts .none = true) :
    operator.takesBlank = true := by
  cases operator <;> first | rfl | cases hop

/-- **A source accepts calls by the types of their functions and constants.**  Every source is
declared, whichever way it is made.  If its elements are not all null, then it builds just those
calls that satisfy the rule of their operator, and refuses all others with an error of types. -/
theorem Declared.acceptance (hs : s.Declared) (ht : s.element ≠ .null) : s.Acceptance := by
  constructor
  case expression =>
    intro operator shape text b l hshape hl
    rw [hl.expressionCall hshape]
    exact decided_function hs hl.paramTypes hl.returns hshape
  case bare =>
    intro operator blank b hop hblank
    rw [expressionCall_of_blank (takesBlank_of_accepts_none hop) hblank]
    exact decided_none hs ht hop
  case constant =>
    intro operator shape v hshape hv
    exact decided_constant hs hshape hv
  case nullList =>
    intro operator hshape
    rw [constantCall, hshape]
    rfl
  case groupByElement => exact exists_groupByElementCall hs
  case groupByResult => exact exists_groupByResultCall hs
  case groupByElementResult => exact exists_groupByElementResultCall hs
  case join =>
    intro inner _ _ _ b k ik r hi
    exact decided_keyedJoin hs hi (.inl rfl) rfl
  case groupJoin =>
    intro inner _ _ _ b k ik r hi
    exact decided_keyedJoin hs hi (.inr rfl) rfl
  case zip =>
    intro inner _ b r hi
    exact exists_zipCall hs hi
  case aggregate => exact decided_aggregate hs
  case aggregateSeed => exact decided_aggregateSeed hs
  case aggregateSeedResult => exact decided_aggregateSeedResult hs
  case nullSeed =>
    intro func result b
    exact ⟨rfl, rfl⟩

/-- Integers that may be missing are summed and joined to themselves.  They are no conditions, no
start of integers accumulates them, they have no order to refine, and no text is looked for among
them. -/
theorem acceptance_optional :
    let s : Source := ⟨.nullable .int, .root (.nullable .int) [.int 1, .null]⟩
    s.Obtained ∧ s.Declared ∧ s.element ≠ .null ∧
      (∃ c, s.expressionCall .sum (some "x => x") .empty = .ok c) ∧
      (∃ c, s.expressionCall .sum none .empty = .ok c) ∧
      DecidedBy False (s.expressionCall .filter (some "x => x") .empty) ∧
      DecidedBy False (s.expressionCall .thenBy (some "x => x") .empty) ∧
      DecidedBy False (s.constantCall .contains (.string "one")) ∧
      (∃ c, s.keyedJoinCall .join s "x => x" "x => x" "(x, y) => y" .empty = .ok c) ∧
      (∃ c, s.aggregateCall "(x, y) => y" .empty = .ok c) ∧
      DecidedBy False (s.aggregateSeedCall (.int 0) "(x, y) => y" .empty) := by
  intro s
  have hs : s.Obtained := @Obtained.ofValues (.nullable .int) [.int 1, .null] _ rfl
  have hne : s.element ≠ .null := by simp [s]
  have hnumber : s.element ∈ numbers := by simp [s, numbers]
  have htext : (Value.string "one").conforms s.element = false := by decide
  have hdeclared := hs.declared
  have h := hdeclared.acceptance hne
  refine ⟨hs, hdeclared, hne, (h.expression rfl compiles_identity).iff.mpr hnumber,
    (h.bare rfl rfl).iff.mpr fun _ => hnumber, (h.expression rfl compiles_identity).congr ?_,
    (h.expression rfl compiles_identity).congr ?_, (h.constant rfl (by simp)).congr ?_,
    (h.join hdeclared compiles_identity compiles_identity compiles_latter).iff.mpr rfl,
    (h.aggregate compiles_latter).iff.mpr (Ty.assignable_refl _),
    (h.aggregateSeed (by simp) compiles_latter).congr ?_⟩
  · simp [expressionFits, s, Lambda.identity, Lambda.ofBody, Lambda.body, Expr.type]
  · simp [expressionFits, isOrdered, type, s, Query.type]
  · simp [constantFits, htext]
  · simp [Lambda.latter, Lambda.ofBody, Lambda.body, Expr.type, s, Value.typeOf, Ty.assignable]

/-- The elements may not all be null: in an order they would be summed, though they are no
numbers. -/
example :
    (do
      let ordered ← (⟨.null, .root .null [.null]⟩ : Source).orderBy "x => x" .empty
      ordered.expressionCall .sum none .empty : QueryResult Call).isOk = true := by cbv

end Source

end LambdaQuery
