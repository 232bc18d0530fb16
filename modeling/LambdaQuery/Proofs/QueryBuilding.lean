/-
**Built calls are typed.**  Whatever the methods of a source build over typed trees fits the rules
of typing for queries: the signature that a call fits fixes the types of its functions and
constants.

Main definitions:
* `Source.Typed` — the tree of a source lists elements of its type;
* `Source.Reachable`, `Call.Built` — the sources that begin with well-formed values and go on by
  lazy calls, and the calls that the methods build over them;
* `Call.Typed` — a lazy call that lists elements, or an eager one that gives a value.

Main results:
* `Signature.check_eq_ok`, `Source.build_eq_ok` — what it takes for a call to fit and to be built;
* `Source.filtering_typed`, `Source.totalling_typed`, … — what is built for each form of an
  operator;
* `Source.expressionCall_typed`, `Source.constantCall_typed` — calls with one expression or
  constant;
* `Call.Built.typed`, `Source.Reachable.typed` — **every reachable source and every built call is
  typed**, by induction on how they were made.
-/

import LambdaQuery.Proofs.QueryTyping
import LambdaQuery.Query.Method

namespace LambdaQuery

open Value (AllBelong)

/-! ### Fitting a signature -/

/-- The type may be that of an argument for the parameter. -/
def TypePattern.Admits (typeArgs : List Ty) (p : TypePattern) (t : Ty) : Prop :=
  ∃ e, p.instantiate? typeArgs = some e ∧ t.assignable e = true

namespace Signature

/-- Arguments are accepted when each is assignable to its parameter. -/
theorem checkArguments_eq_ok {s : Signature} {typeArgs : List Ty} :
    ∀ {ps : List TypePattern} {position : Nat} {found : List Ty}, found.length = ps.length →
      s.checkArguments typeArgs position ps found = .ok () →
        List.Forall₂ (TypePattern.Admits typeArgs) ps found := by
  intro ps
  induction ps with
  | nil =>
      intro position found hl h
      obtain rfl := List.length_eq_zero_iff.mp hl
      exact .nil
  | cons p ps ih =>
      intro position found hl h
      cases found with
      | nil => cases hl
      | cons t rest =>
          obtain ⟨e, he, h⟩ := bind_eq_ok.mp h
          rw [instantiate] at he
          split at h
          · rename_i ht
            refine .cons ⟨e, ?_, ht⟩ (ih (Nat.succ.inj hl) h)
            split at he
            · rename_i e' he'
              cases he
              exact he'
            · cases he
          · cases h

/-- What a signature accepts, and the type that it gives. -/
theorem check_eq_ok {s : Signature} {typeArgs found : List Ty} {t : Ty}
    (h : s.check typeArgs found = .ok t) :
    List.Forall₂ (TypePattern.Admits typeArgs) s.params found ∧
      s.result.instantiate? typeArgs = some t := by
  rw [check] at h
  by_cases hts : typeArgs.length ≠ s.arity
  · rw [if_pos hts] at h
    cases h
  · rw [if_neg hts] at h
    by_cases hl : found.length ≠ s.params.length
    · rw [if_pos hl] at h
      cases h
    · rw [if_neg hl] at h
      obtain ⟨_, hc, hr⟩ := bind_eq_ok.mp h
      refine ⟨checkArguments_eq_ok (not_not.mp hl) hc, ?_⟩
      rw [instantiate] at hr
      split at hr
      · rename_i t' ht
        cases hr
        exact ht
      · cases hr

theorem firstFit_eq_ok {typeArgs found : List Ty} {fit : Signature × Ty} :
    ∀ {signatures : List Signature} {failure : SignatureError},
      firstFit typeArgs found failure signatures = .ok fit →
        fit.1 ∈ signatures ∧ fit.1.check typeArgs found = .ok fit.2 := by
  intro signatures
  induction signatures with
  | nil =>
      intro failure h
      cases h
  | cons s rest ih =>
      intro failure h
      rw [firstFit] at h
      split at h
      · rename_i t ht
        cases h
        exact ⟨List.mem_cons_self .., ht⟩
      · obtain ⟨hmem, hc⟩ := ih h
        exact ⟨List.mem_cons_of_mem _ hmem, hc⟩

/-! ### The overloads of each operator -/

section Overloads

variable {operator : Operator}

theorem overloads_filtering
    (h : operator = .filter ∨ operator = .takeWhile ∨ operator = .skipWhile) :
    overloads operator .predicate = filtering operator := by
  rcases h with rfl | rfl | rfl <;> rfl

theorem overloads_counting (h : operator = .take ∨ operator = .skip) :
    overloads operator .count = counting operator := by
  rcases h with rfl | rfl <;> rfl

theorem overloads_bare
    (h : operator = .distinct ∨ operator = .reverse ∨ operator = .defaultIfEmpty) :
    overloads operator .none = bare operator := by
  rcases h with rfl | rfl | rfl <;> rfl

theorem overloads_listing
    (h : operator = .concat ∨ operator = .union ∨ operator = .intersect ∨ operator = .except) :
    overloads operator .sequence = listing operator := by
  rcases h with rfl | rfl | rfl | rfl <;> rfl

theorem overloads_ordering (h : operator = .orderBy ∨ operator = .orderByDescending) :
    overloads operator .selector = ordering operator := by
  rcases h with rfl | rfl <;> rfl

theorem overloads_refining (h : operator = .thenBy ∨ operator = .thenByDescending) :
    overloads operator .selector = refining operator := by
  rcases h with rfl | rfl <;> rfl

theorem overloads_placing (h : operator = .elementAt ∨ operator = .elementAtOrDefault) :
    overloads operator .count = placing operator := by
  rcases h with rfl | rfl <;> rfl

/-- An operator that gives a value of chosen elements has the two overloads of its type. -/
theorem overloads_chosen {t r : Ty} (h : operator.chosenType t = some r) :
    ∃ p : TypePattern, p.instantiate? [t] = some r ∧
      overloads operator .none = [⟨operator, .none, 1, [.query typeT], p⟩] ∧
      overloads operator .predicate =
        [⟨operator, .predicate, 1, [.query typeT, predicate], p⟩] := by
  cases operator <;> first | cases h; exact ⟨_, rfl, rfl, rfl⟩ | cases h

theorem overloads_total (h : operator = .sum ∨ operator = .average) :
    overloads operator .none = numbers.map fun n =>
      ⟨operator, .none, 0, [.query (.concrete n)], .concrete ((operator.totalType n).getD n)⟩ := by
  rcases h with rfl | rfl <;> rfl

theorem overloads_totalOf (h : operator = .sum ∨ operator = .average) :
    overloads operator .selector = numbers.map fun n =>
      ⟨operator, .selector, 1, [.query typeT, .function [typeT] (.concrete n)],
        .concrete ((operator.totalType n).getD n)⟩ := by
  rcases h with rfl | rfl <;> rfl

theorem totalType_eq (h : operator = .sum ∨ operator = .average) (n : Ty) :
    operator.totalType n = some ((operator.totalType n).getD n) := by
  rcases h with rfl | rfl <;> rfl

theorem isNumeric_of_mem_numbers {n : Ty} (h : n ∈ numbers) : n.isNumeric = true := by
  revert n
  decide

theorem overloads_extreme (h : operator = .min ∨ operator = .max) :
    overloads operator .none = [⟨operator, .none, 1, [.query typeT], typeT⟩] := by
  rcases h with rfl | rfl <;> rfl

theorem overloads_extremeOf (h : operator = .min ∨ operator = .max) :
    overloads operator .selector =
      [⟨operator, .selector, 2, [.query typeT, .function [typeT] typeU], typeU⟩] := by
  rcases h with rfl | rfl <;> rfl

end Overloads

end Signature

/-! ### Types of constants -/

namespace Operator

variable {operator : Operator} {element r : Ty} {v : Value}

theorem constantType_count (h : operator.constantType .count element v = .ok r) :
    ∃ n, v = .int n ∧ r = .int := by
  cases v with
  | int n => exact ⟨n, rfl, (Except.ok.inj h).symm⟩
  | _ => cases h

theorem constantType_element (h : operator.constantType .element element v = .ok r) :
    v.conforms element = true ∧ r = element := by
  simp only [constantType] at h
  split at h
  · rename_i hv
    exact ⟨hv, (Except.ok.inj h).symm⟩
  · cases h

theorem constantType_sequence (h : operator.constantType .sequence element v = .ok r) :
    ∃ items, v = .sequence items ∧ Value.conformAll items element = true ∧
      r = .sequence element := by
  cases v with
  | sequence items =>
      simp only [constantType] at h
      split at h
      · rename_i hnone
        refine ⟨items, rfl, Value.conformAll_iff.mpr ?_, (Except.ok.inj h).symm⟩
        simpa using hnone
      · cases h
  | _ => cases h

end Operator

/-- The elements of a query are among those of a query that it may stand for. -/
theorem Value.Belongs.of_query {q t n : Ty} {v : Value} (hq : q = .query t ∨ q = .orderedQuery t)
    (h : q.assignable (.query n) = true) (hv : v.Belongs t) : v.Belongs n := by
  rcases Ty.assignable_cases h with h | h | ⟨h, -⟩ | h | ⟨d, e, -, h, -⟩ | ⟨d, e, hd, he, hr⟩
  · rcases hq with rfl | rfl <;> cases h
    exact hv
  · cases h
  · rcases hq with rfl | rfl <;> cases h
  · cases h
  · cases h
  · cases he
    rcases hq with rfl | rfl <;> cases hd
    rcases hr with rfl | ⟨-, hr⟩
    · exact hv
    · exact hv.of_assignable hr

/-! ### Built calls -/

/-- A lazy call lists elements, an eager one gives a value. -/
def Call.Typed (c : Call) : Prop := (∃ t, Query.Lists t (.call c)) ∨ c.Gives c.type

namespace Source

variable {s : Source} {operator : Operator} {shape : Shape} {functions : List Lambda}
  {constants : List Value} {inner : Option Source} {typeArgs : List Ty}
  {queries arguments : List Argument} {c : Call}

/-- A built call has one of the overloads of its operator. -/
theorem build_eq_ok (hts : s.typeArguments operator shape functions constants inner = .ok typeArgs)
    (hqs : s.queries shape inner = .ok queries)
    (h : s.build operator shape functions constants inner = .ok c) :
    ∃ arguments, s.constantArguments operator shape constants = .ok arguments ∧
      ∃ sig ∈ Signature.overloads operator shape, ∃ t,
        List.Forall₂ (fun p (a : Argument) => TypePattern.Admits typeArgs p a.type) sig.params
          (queries ++ arguments ++ functions.map .function) ∧
        sig.result.instantiate? typeArgs = some t ∧
        c = ⟨operator, shape, typeArgs, queries ++ arguments ++ functions.map .function, t⟩ := by
  rw [build] at h
  by_cases hacc : (!operator.accepts shape) = true
  · rw [if_pos hacc] at h
    cases h
  · rw [if_neg hacc] at h
    obtain ⟨typeArgs', hts', h⟩ := bind_eq_ok.mp h
    obtain ⟨queries', hqs', h⟩ := bind_eq_ok.mp h
    obtain ⟨arguments, hks, h⟩ := bind_eq_ok.mp h
    obtain ⟨⟨sig, t⟩, hfit, h⟩ := bind_eq_ok.mp h
    cases h
    obtain rfl : typeArgs = typeArgs' := Except.ok.inj (hts.symm.trans hts')
    obtain rfl : queries = queries' := Except.ok.inj (hqs.symm.trans hqs')
    -- what fits was checked against the types of all arguments
    obtain ⟨hmem, hcheck⟩ := Signature.firstFit_eq_ok (mapError_eq_ok.mp hfit)
    obtain ⟨hargs, hresult⟩ := Signature.check_eq_ok hcheck
    rw [List.forall₂_map_right_iff] at hargs
    exact ⟨arguments, hks, sig, hmem, t, hargs, hresult, rfl⟩

/-- A call without constants has the only overload of its operator in its shape. -/
theorem build_functions {sig : Signature}
    (hts : s.typeArguments operator shape functions [] inner = .ok typeArgs)
    (hqs : s.queries shape inner = .ok queries)
    (hsig : Signature.overloads operator shape = [sig])
    (h : s.build operator shape functions [] inner = .ok c) :
    ∃ t,
      List.Forall₂ (fun p (a : Argument) => TypePattern.Admits typeArgs p a.type) sig.params
        (queries ++ functions.map .function) ∧
      sig.result.instantiate? typeArgs = some t ∧
      c = ⟨operator, shape, typeArgs, queries ++ functions.map .function, t⟩ := by
  obtain ⟨arguments, hks, sig', hmem, t, hfit⟩ := build_eq_ok hts hqs h
  -- the overload that fits is the only one there is
  rw [hsig, List.mem_singleton] at hmem
  cases hks
  rw [hmem, List.append_nil] at hfit
  exact ⟨t, hfit⟩

/-- The same with one constant, whose type depends on the shape. -/
theorem build_constant {sig : Signature} {v : Value}
    (hts : s.typeArguments operator shape functions [v] none = .ok typeArgs)
    (hqs : s.queries shape none = .ok [.query s.query])
    (hsig : Signature.overloads operator shape = [sig])
    (h : s.build operator shape functions [v] none = .ok c) :
    ∃ r, operator.constantType shape s.element v = .ok r ∧ ∃ t,
      List.Forall₂ (fun p (a : Argument) => TypePattern.Admits typeArgs p a.type) sig.params
        (.query s.query :: .constant v r :: functions.map .function) ∧
      sig.result.instantiate? typeArgs = some t ∧
      c = ⟨operator, shape, typeArgs,
        .query s.query :: .constant v r :: functions.map .function, t⟩ := by
  obtain ⟨arguments, hks, sig', hmem, t, hfit⟩ := build_eq_ok hts hqs h
  rw [hsig, List.mem_singleton] at hmem
  obtain ⟨a, ha, hks⟩ := bind_eq_ok.mp hks
  obtain ⟨r, hr, ha⟩ := bind_eq_ok.mp ha
  cases ha
  cases hks
  subst hmem
  exact ⟨r, hr, t, hfit⟩

/-! ### One function of the elements -/

section Functions

open Signature TypePattern

variable {l : Lambda} (hs : s.query.Lists s.element) (hl : l.Typed Value.Belongs [])

include hs hl

theorem filtering_typed (hop : operator = .filter ∨ operator = .takeWhile ∨ operator = .skipWhile)
    (h : s.build operator .predicate [l] [] none = .ok c) : c.Typed := by
  obtain ⟨t, hargs, hresult, rfl⟩ :=
    build_functions rfl rfl (overloads_filtering hop) h
  simp [typeT, predicate, Admits, instantiate?, instantiateAll?] at hargs hresult
  subst hresult
  exact .inl ⟨_, .filtering hop hs (hl.hasType hargs.2)⟩

theorem all_typed (h : s.build .all .predicate [l] [] none = .ok c) : c.Typed := by
  obtain ⟨t, hargs, hresult, rfl⟩ := build_functions rfl rfl rfl h
  simp [typeT, predicate, Admits, instantiate?, instantiateAll?] at hargs hresult
  subst hresult
  exact .inr (.all hs (hl.hasType hargs.2))

theorem chosenWhere_typed {r : Ty} (hop : operator.chosenType s.element = some r)
    (h : s.build operator .predicate [l] [] none = .ok c) : c.Typed := by
  obtain ⟨p, hp, -, hsig⟩ := overloads_chosen hop
  obtain ⟨t, hargs, hresult, rfl⟩ := build_functions rfl rfl hsig h
  simp [typeT, predicate, Admits, instantiate?, instantiateAll?, hp] at hargs hresult
  subst hresult
  exact .inr (.chosenWhere hop hs (hl.hasType hargs.2))

theorem select_typed (h : s.build .select .selector [l] [] none = .ok c) : c.Typed := by
  obtain ⟨t, hargs, hresult, rfl⟩ := build_functions rfl rfl rfl h
  simp [typeT, typeU, Admits, instantiate?, instantiateAll?] at hargs hresult
  subst hresult
  exact .inl ⟨_, .select hs (hl.hasType hargs.2)⟩

theorem selectMany_typed (h : s.build .selectMany .selector [l] [] none = .ok c) : c.Typed := by
  obtain ⟨t, hargs, hresult, rfl⟩ := build_functions rfl rfl rfl h
  simp [typeT, typeU, Admits, instantiate?, instantiateAll?] at hargs hresult
  subst hresult
  exact .inl ⟨_, .selectMany hs (hl.hasType hargs.2)⟩

theorem ordering_typed (hop : operator = .orderBy ∨ operator = .orderByDescending)
    (h : s.build operator .selector [l] [] none = .ok c) : c.Typed := by
  have hts : s.typeArguments operator .selector [l] [] none = .ok [s.element, l.returns] := by
    rcases hop with rfl | rfl <;> rfl
  obtain ⟨t, hargs, hresult, rfl⟩ :=
    build_functions hts rfl (overloads_ordering hop) h
  simp [typeT, typeU, Admits, instantiate?, instantiateAll?] at hargs hresult
  subst hresult
  exact .inl ⟨_, .ordering hop hs (hl.hasType hargs.2)⟩

theorem refining_typed (hop : operator = .thenBy ∨ operator = .thenByDescending)
    (h : s.build operator .selector [l] [] none = .ok c) : c.Typed := by
  have hts : s.typeArguments operator .selector [l] [] none = .ok [s.element, l.returns] := by
    rcases hop with rfl | rfl <;> rfl
  obtain ⟨t, hargs, hresult, rfl⟩ :=
    build_functions hts rfl (overloads_refining hop) h
  simp [typeT, typeU, Admits, instantiate?, instantiateAll?] at hargs hresult
  subst hresult
  -- of the types of trees only that of an ordering is assignable to an ordered query
  rcases hs.yields with hy | hy
  · simp [Argument.type, hy, Ty.assignable] at hargs
  · obtain ⟨c, hc, ho⟩ := hs.ordered hy
    rw [hc] at hs ⊢
    exact .inl ⟨_, .refining hop ho hs (hl.hasType hargs.2)⟩

theorem group_typed (h : s.build .groupBy .selector [l] [] none = .ok c) : c.Typed := by
  obtain ⟨t, hargs, hresult, rfl⟩ := build_functions rfl rfl rfl h
  simp [typeT, typeU, Admits, instantiate?, instantiateAll?] at hargs hresult
  subst hresult
  exact .inl ⟨_, .group hs (hl.hasType hargs.2)⟩

theorem totalOf_typed (hop : operator = .sum ∨ operator = .average)
    (h : s.build operator .selector [l] [] none = .ok c) : c.Typed := by
  have hts : s.typeArguments operator .selector [l] [] none = .ok [s.element] := by
    rcases hop with rfl | rfl <;> rfl
  obtain ⟨arguments, hks, sig, hsig, t, hargs, hresult, rfl⟩ := build_eq_ok hts rfl h
  cases hks
  rw [overloads_totalOf hop] at hsig
  obtain ⟨n, hn, rfl⟩ := List.mem_map.mp hsig
  simp [typeT, Admits, instantiate?, instantiateAll?] at hargs hresult
  subst hresult
  exact .inr (.totalOf (totalType_eq hop n) (isNumeric_of_mem_numbers hn) hs (hl.hasType hargs.2))

theorem extremeOf_typed (hop : operator = .min ∨ operator = .max)
    (h : s.build operator .selector [l] [] none = .ok c) : c.Typed := by
  have hts : s.typeArguments operator .selector [l] [] none = .ok [s.element, l.returns] := by
    rcases hop with rfl | rfl <;> rfl
  obtain ⟨t, hargs, hresult, rfl⟩ :=
    build_functions hts rfl (overloads_extremeOf hop) h
  simp [typeT, typeU, Admits, instantiate?, instantiateAll?] at hargs hresult
  subst hresult
  exact .inr (.extremeOf hop hs (hl.hasType hargs.2))

end Functions

/-! ### No arguments -/

section Blank

open Signature TypePattern

variable (hs : s.query.Lists s.element)

include hs

theorem bare_typed (hop : operator = .distinct ∨ operator = .reverse ∨ operator = .defaultIfEmpty)
    (h : s.build operator .none [] [] none = .ok c) : c.Typed := by
  have hts : s.typeArguments operator .none [] [] none = .ok [s.element] := by
    rcases hop with rfl | rfl | rfl <;> rfl
  obtain ⟨t, hargs, hresult, rfl⟩ := build_functions hts rfl (overloads_bare hop) h
  simp [typeT, instantiate?] at hresult
  subst hresult
  exact .inl ⟨_, .bare hop hs⟩

theorem chosen_typed {r : Ty} (hop : operator.chosenType s.element = some r)
    (h : s.build operator .none [] [] none = .ok c) : c.Typed := by
  have hts : s.typeArguments operator .none [] [] none = .ok [s.element] := by
    cases operator <;> first | rfl | cases hop
  obtain ⟨p, hp, hsig, -⟩ := overloads_chosen hop
  obtain ⟨t, hargs, hresult, rfl⟩ := build_functions hts rfl hsig h
  obtain rfl : r = t := Option.some.inj (hp.symm.trans hresult)
  exact .inr (.chosen hop hs)

theorem total_typed (hop : operator = .sum ∨ operator = .average)
    (h : s.build operator .none [] [] none = .ok c) : c.Typed := by
  have hts : s.typeArguments operator .none [] [] none = .ok [] := by
    rcases hop with rfl | rfl <;> rfl
  obtain ⟨arguments, hks, sig, hsig, t, hargs, hresult, rfl⟩ := build_eq_ok hts rfl h
  cases hks
  rw [overloads_total hop] at hsig
  obtain ⟨n, hn, rfl⟩ := List.mem_map.mp hsig
  simp [Admits, instantiate?] at hargs hresult
  subst hresult
  refine .inr (.total (totalType_eq hop n) (isNumeric_of_mem_numbers hn) hs ?_)
  intro v hv
  rcases hs.yields with hy | hy
  · simp only [Argument.type, hy] at hargs
    exact Value.Belongs.of_query (.inl rfl) hargs hv
  · simp only [Argument.type, hy] at hargs
    exact Value.Belongs.of_query (.inr rfl) hargs hv

theorem extreme_typed (hop : operator = .min ∨ operator = .max)
    (h : s.build operator .none [] [] none = .ok c) : c.Typed := by
  have hts : s.typeArguments operator .none [] [] none = .ok [s.element] := by
    rcases hop with rfl | rfl <;> rfl
  obtain ⟨t, hargs, hresult, rfl⟩ := build_functions hts rfl (overloads_extreme hop) h
  simp [typeT, instantiate?] at hresult
  subst hresult
  exact .inr (.extreme hop hs)

end Blank

/-! ### One constant -/

section Constants

open Signature TypePattern

variable {v : Value} (hs : s.query.Lists s.element)

include hs

theorem counting_typed (hop : operator = .take ∨ operator = .skip)
    (h : s.build operator .count [] [v] none = .ok c) : c.Typed := by
  obtain ⟨r, hr, t, hargs, hresult, rfl⟩ := build_constant rfl rfl (overloads_counting hop) h
  obtain ⟨n, rfl, rfl⟩ := Operator.constantType_count hr
  simp [typeT, instantiate?] at hresult
  subst hresult
  exact .inl ⟨_, .counting hop hs⟩

theorem place_typed (hop : operator = .elementAt ∨ operator = .elementAtOrDefault)
    (h : s.build operator .count [] [v] none = .ok c) : c.Typed := by
  obtain ⟨r, hr, t, hargs, hresult, rfl⟩ := build_constant rfl rfl (overloads_placing hop) h
  obtain ⟨n, rfl, rfl⟩ := Operator.constantType_count hr
  simp [typeT, instantiate?] at hresult
  subst hresult
  exact .inr (.place hop hs)

theorem orElse_typed (hv : v.wellFormed = true)
    (h : s.build .defaultIfEmpty .element [] [v] none = .ok c) : c.Typed := by
  obtain ⟨r, hr, t, hargs, hresult, rfl⟩ := build_constant rfl rfl rfl h
  obtain ⟨hc, rfl⟩ := Operator.constantType_element hr
  simp [typeT, instantiate?] at hresult
  subst hresult
  exact .inl ⟨_, .orElse hs ⟨hv, hc⟩⟩

theorem contains_typed (h : s.build .contains .element [] [v] none = .ok c) : c.Typed := by
  obtain ⟨r, hr, t, hargs, hresult, rfl⟩ := build_constant rfl rfl rfl h
  obtain ⟨hc, rfl⟩ := Operator.constantType_element hr
  simp [instantiate?] at hresult
  subst hresult
  exact .inr (.contains hs)

theorem listing_typed
    (hop : operator = .concat ∨ operator = .union ∨ operator = .intersect ∨ operator = .except)
    (hv : v.wellFormed = true) (h : s.build operator .sequence [] [v] none = .ok c) : c.Typed := by
  obtain ⟨r, hr, t, hargs, hresult, rfl⟩ := build_constant rfl rfl (overloads_listing hop) h
  obtain ⟨items, rfl, hc, rfl⟩ := Operator.constantType_sequence hr
  simp [typeT, instantiate?] at hresult
  subst hresult
  exact .inl ⟨_, .listing hop hs (Value.allBelong_iff.mpr ⟨hv, hc⟩)⟩

theorem sequenceEqual_typed (h : s.build .sequenceEqual .sequence [] [v] none = .ok c) :
    c.Typed := by
  obtain ⟨r, hr, t, hargs, hresult, rfl⟩ := build_constant rfl rfl rfl h
  obtain ⟨items, rfl, hc, rfl⟩ := Operator.constantType_sequence hr
  simp [instantiate?] at hresult
  subst hresult
  exact .inr (.sequenceEqual hs)

end Constants

/-! ### Several functions -/

section Groups

open Signature TypePattern

variable {key element result : Lambda} (hs : s.query.Lists s.element)
  (hk : key.Typed Value.Belongs [])

include hs hk

theorem groupElement_typed (he : element.Typed Value.Belongs [])
    (h : s.build .groupBy .keyElement [key, element] [] none = .ok c) : c.Typed := by
  obtain ⟨t, hargs, hresult, rfl⟩ := build_functions rfl rfl rfl h
  simp [typeT, typeU, typeV, Admits, instantiate?, instantiateAll?] at hargs hresult
  subst hresult
  exact .inl ⟨_, .groupElement hs (hk.hasType hargs.2.1) (he.hasType hargs.2.2)⟩

theorem groupResult_typed (hr : result.Typed Value.Belongs [])
    (h : s.build .groupBy .keyResult [key, result] [] none = .ok c) : c.Typed := by
  obtain ⟨t, hargs, hresult, rfl⟩ := build_functions rfl rfl rfl h
  simp [typeT, typeU, typeV, Admits, instantiate?, instantiateAll?] at hargs hresult
  subst hresult
  exact .inl ⟨_, .groupResult hs (hk.hasType hargs.2.1) (hr.hasType hargs.2.2)⟩

theorem groupElementResult_typed (he : element.Typed Value.Belongs [])
    (hr : result.Typed Value.Belongs [])
    (h : s.build .groupBy .keyElementResult [key, element, result] [] none = .ok c) :
    c.Typed := by
  obtain ⟨t, hargs, hresult, rfl⟩ := build_functions rfl rfl rfl h
  simp [typeT, typeU, typeV, typeW, Admits, instantiate?, instantiateAll?] at hargs hresult
  subst hresult
  exact .inl ⟨_, .groupElementResult hs (hk.hasType hargs.2.1) (he.hasType hargs.2.2.1)
    (hr.hasType hargs.2.2.2)⟩

end Groups

section Joins

open Signature TypePattern

variable {outerKey innerKey result : Lambda} {i : Source} (hs : s.query.Lists s.element)
  (hi : i.query.Lists i.element) (hr : result.Typed Value.Belongs [])

include hs hi hr

theorem join_typed (ho : outerKey.Typed Value.Belongs []) (hn : innerKey.Typed Value.Belongs [])
    (h : s.build .join .keyed [outerKey, innerKey, result] [] (some i) = .ok c) : c.Typed := by
  obtain ⟨t, hargs, hresult, rfl⟩ := build_functions rfl rfl rfl h
  simp [typeT, typeU, typeV, typeW, Admits, instantiate?, instantiateAll?] at hargs hresult
  subst hresult
  obtain ⟨-, -, hargs⟩ := hargs
  exact .inl ⟨_, .join hs hi (ho.hasType hargs.1) (hn.hasType hargs.2.1) (hr.hasType hargs.2.2)⟩

theorem groupJoin_typed (ho : outerKey.Typed Value.Belongs [])
    (hn : innerKey.Typed Value.Belongs [])
    (h : s.build .groupJoin .keyed [outerKey, innerKey, result] [] (some i) = .ok c) :
    c.Typed := by
  obtain ⟨t, hargs, hresult, rfl⟩ := build_functions rfl rfl rfl h
  simp [typeT, typeU, typeV, typeW, Admits, instantiate?, instantiateAll?] at hargs hresult
  subst hresult
  obtain ⟨-, -, hargs⟩ := hargs
  exact .inl ⟨_, .groupJoin hs hi (ho.hasType hargs.1) (hn.hasType hargs.2.1)
    (hr.hasType hargs.2.2)⟩

theorem zip_typed (h : s.build .zip .zip [result] [] (some i) = .ok c) : c.Typed := by
  obtain ⟨t, hargs, hresult, rfl⟩ := build_functions rfl rfl rfl h
  simp [typeT, typeU, typeV, Admits, instantiate?, instantiateAll?] at hargs hresult
  subst hresult
  exact .inl ⟨_, .zip hs hi (hr.hasType hargs.2.2)⟩

end Joins

section Folds

open Signature TypePattern

variable {func result : Lambda} {seed : Value} {u : Ty} (hs : s.query.Lists s.element)
  (hf : func.Typed Value.Belongs [])

include hs hf

theorem fold_typed (h : s.build .aggregate .unseeded [func] [] none = .ok c) : c.Typed := by
  obtain ⟨t, hargs, hresult, rfl⟩ := build_functions rfl rfl rfl h
  simp [typeT, Admits, instantiate?, instantiateAll?] at hargs hresult
  subst hresult
  exact .inr (.fold hs (hf.hasType hargs.2))

theorem foldFrom_typed (hu : Operator.aggregate.seedType seed = .ok u) (hv : seed.Belongs u)
    (h : s.build .aggregate .seeded [func] [seed] none = .ok c) : c.Typed := by
  have hts : s.typeArguments .aggregate .seeded [func] [seed] none = .ok [s.element, u] := by
    simp only [typeArguments, hu]
    rfl
  obtain ⟨r, hr, t, hargs, hresult, rfl⟩ := build_constant hts rfl rfl h
  obtain rfl : u = r := Except.ok.inj (hu.symm.trans hr)
  simp [typeT, typeU, Admits, instantiate?, instantiateAll?] at hargs hresult
  subst hresult
  exact .inr (.foldFrom hs hv (hf.hasType hargs.2.2))

theorem foldInto_typed (hu : Operator.aggregate.seedType seed = .ok u) (hv : seed.Belongs u)
    (hr : result.Typed Value.Belongs [])
    (h : s.build .aggregate .seededResult [func, result] [seed] none = .ok c) : c.Typed := by
  have hts : s.typeArguments .aggregate .seededResult [func, result] [seed] none
      = .ok [s.element, u, result.returns] := by
    simp only [typeArguments, hu]
    rfl
  obtain ⟨r, hr', t, hargs, hresult, rfl⟩ := build_constant hts rfl rfl h
  obtain rfl : u = r := Except.ok.inj (hu.symm.trans hr')
  simp [typeT, typeU, typeV, Admits, instantiate?, instantiateAll?] at hargs hresult
  subst hresult
  obtain ⟨-, -, hargs⟩ := hargs
  exact .inr (.foldInto hs hv (hf.hasType hargs.1) (hr.hasType hargs.2))

end Folds

end Source

/-! ### Functions from texts -/

section Texts

variable {b : Bindings} {l l' : Lambda} {operator : Operator}

theorem Operator.functionOf_typed (hb : b.All fun v => v.Belongs v.typeOf) {argument : String}
    {source : Option Source} {types : List Ty} {text : Option String}
    (h : operator.functionOf argument source types text b = .ok l) : l.Typed Value.Belongs [] := by
  unfold functionOf at h
  split at h
  · cases h
  · split at h
    · cases h
    · cases h
    · exact (Lambda.compile_typed (fun _ _ hv => hv) hb (mapError_eq_ok.mp h)).1

theorem Lambda.Typed.returning? {t : Ty} (hl : l.Typed Value.Belongs [])
    (h : l.returning? t = some l') : l'.Typed Value.Belongs [] := by
  obtain ⟨base, params, body, returns⟩ := l
  rw [Lambda.returning?] at h
  split at h
  · rename_i ha
    cases h
    exact ⟨hl.base, hl.body, ha⟩
  · cases h

theorem Lambda.Typed.adjust (hl : l.Typed Value.Belongs []) (h : operator.adjust l = .ok l') :
    l'.Typed Value.Belongs [] := by
  unfold Operator.adjust at h
  split at h
  · rw [Lambda.flattened] at h
    split at h
    · cases h
    · split at h
      · rename_i hr
        cases h
        exact hl.returning? hr
      · cases h
  · cases h
    exact hl

theorem Lambda.Typed.accumulating (hl : l.Typed Value.Belongs []) (t : Ty) :
    (l.accumulating t).Typed Value.Belongs [] := by
  rw [Lambda.accumulating]
  split
  · exact hl
  · cases hr : l.returning? t with
    | none => exact hl
    | some l' => exact hl.returning? hr

end Texts

/-! ### Calls with one expression or one constant -/

namespace Source

variable {s : Source} {operator : Operator} {b : Bindings} {c : Call}

/-- A call without arguments is typed, whatever operator can be called so. -/
theorem blank_typed (hs : s.query.Lists s.element) (hop : operator.accepts .none = true)
    (h : s.build operator .none [] [] none = .ok c) : c.Typed := by
  cases operator with
  | distinct => exact bare_typed hs (.inl rfl) h
  | reverse => exact bare_typed hs (.inr (.inl rfl)) h
  | defaultIfEmpty => exact bare_typed hs (.inr (.inr rfl)) h
  | sum => exact total_typed hs (.inl rfl) h
  | average => exact total_typed hs (.inr rfl) h
  | min => exact extreme_typed hs (.inl rfl) h
  | max => exact extreme_typed hs (.inr rfl) h
  | count | longCount | any | first | firstOrDefault | single | singleOrDefault | last
  | lastOrDefault => exact chosen_typed hs rfl h
  | _ => cases hop

/-- A call with one function is typed, whatever operator takes one. -/
theorem function_typed {shape : Shape} {l : Lambda} (hs : s.query.Lists s.element)
    (hl : l.Typed Value.Belongs []) (hop : operator.expressionShape? = some shape)
    (h : s.build operator shape [l] [] none = .ok c) : c.Typed := by
  cases operator <;> cases hop
  case filter => exact filtering_typed hs hl (.inl rfl) h
  case takeWhile => exact filtering_typed hs hl (.inr (.inl rfl)) h
  case skipWhile => exact filtering_typed hs hl (.inr (.inr rfl)) h
  case all => exact all_typed hs hl h
  case select => exact select_typed hs hl h
  case selectMany => exact selectMany_typed hs hl h
  case orderBy => exact ordering_typed hs hl (.inl rfl) h
  case orderByDescending => exact ordering_typed hs hl (.inr rfl) h
  case thenBy => exact refining_typed hs hl (.inl rfl) h
  case thenByDescending => exact refining_typed hs hl (.inr rfl) h
  case groupBy => exact group_typed hs hl h
  case sum => exact totalOf_typed hs hl (.inl rfl) h
  case average => exact totalOf_typed hs hl (.inr rfl) h
  case min => exact extremeOf_typed hs hl (.inl rfl) h
  case max => exact extremeOf_typed hs hl (.inr rfl) h
  all_goals exact chosenWhere_typed hs hl rfl h

theorem expressionCall_typed (hs : s.query.Lists s.element)
    (hb : b.All fun v => v.Belongs v.typeOf) {text : Option String}
    (h : s.expressionCall operator text b = .ok c) : c.Typed := by
  rw [expressionCall] at h
  split at h
  · rename_i hblank
    simp only [Operator.takesBlank, Bool.and_eq_true] at hblank
    exact blank_typed hs hblank.1.1 h
  · split at h
    · cases h
    · rename_i shape hop
      obtain ⟨l, hl, h⟩ := bind_eq_ok.mp h
      obtain ⟨l', hl', h⟩ := bind_eq_ok.mp h
      exact function_typed hs ((Operator.functionOf_typed hb hl).adjust hl') hop h

/-- A call with one constant is typed, whatever operator takes one. -/
theorem constant_typed {shape : Shape} {v : Value} (hs : s.query.Lists s.element)
    (hv : v.wellFormed = true) (hop : operator.constantShape? = some shape)
    (h : s.build operator shape [] [v] none = .ok c) : c.Typed := by
  cases operator <;> cases hop
  case take => exact counting_typed hs (.inl rfl) h
  case skip => exact counting_typed hs (.inr rfl) h
  case elementAt => exact place_typed hs (.inl rfl) h
  case elementAtOrDefault => exact place_typed hs (.inr rfl) h
  case defaultIfEmpty => exact orElse_typed hs hv h
  case contains => exact contains_typed hs h
  case concat => exact listing_typed hs (.inl rfl) hv h
  case union => exact listing_typed hs (.inr (.inl rfl)) hv h
  case intersect => exact listing_typed hs (.inr (.inr (.inl rfl))) hv h
  case except => exact listing_typed hs (.inr (.inr (.inr rfl))) hv h
  case sequenceEqual => exact sequenceEqual_typed hs h

theorem constantCall_typed {v : Value} (hs : s.query.Lists s.element) (hv : v.wellFormed = true)
    (h : s.constantCall operator v = .ok c) : c.Typed := by
  rw [constantCall] at h
  split at h
  · cases h
  · rename_i shape hop
    split at h
    · cases h
    · exact constant_typed hs hv hop h

/-! ### Calls with several functions -/

theorem groupByElementCall_typed (hs : s.query.Lists s.element)
    (hb : b.All fun v => v.Belongs v.typeOf) {key element : String}
    (h : s.groupByElementCall key element b = .ok c) : c.Typed := by
  obtain ⟨k, hk, h⟩ := bind_eq_ok.mp h
  obtain ⟨e, he, h⟩ := bind_eq_ok.mp h
  exact groupElement_typed hs (Operator.functionOf_typed hb hk) (Operator.functionOf_typed hb he) h

theorem groupByResultCall_typed (hs : s.query.Lists s.element)
    (hb : b.All fun v => v.Belongs v.typeOf) {key result : String}
    (h : s.groupByResultCall key result b = .ok c) : c.Typed := by
  obtain ⟨k, hk, h⟩ := bind_eq_ok.mp h
  obtain ⟨r, hr, h⟩ := bind_eq_ok.mp h
  exact groupResult_typed hs (Operator.functionOf_typed hb hk) (Operator.functionOf_typed hb hr) h

theorem groupByElementResultCall_typed (hs : s.query.Lists s.element)
    (hb : b.All fun v => v.Belongs v.typeOf) {key element result : String}
    (h : s.groupByElementResultCall key element result b = .ok c) : c.Typed := by
  obtain ⟨k, hk, h⟩ := bind_eq_ok.mp h
  obtain ⟨e, he, h⟩ := bind_eq_ok.mp h
  obtain ⟨r, hr, h⟩ := bind_eq_ok.mp h
  exact groupElementResult_typed hs (Operator.functionOf_typed hb hk)
    (Operator.functionOf_typed hb he) (Operator.functionOf_typed hb hr) h

theorem keyedJoinCall_typed {inner : Source} (hop : operator = .join ∨ operator = .groupJoin)
    (hs : s.query.Lists s.element) (hi : inner.query.Lists inner.element)
    (hb : b.All fun v => v.Belongs v.typeOf) {outerKey innerKey result : String}
    (h : s.keyedJoinCall operator inner outerKey innerKey result b = .ok c) : c.Typed := by
  obtain ⟨o, ho, h⟩ := bind_eq_ok.mp h
  obtain ⟨n, hn, h⟩ := bind_eq_ok.mp h
  obtain ⟨r, hr, h⟩ := bind_eq_ok.mp h
  have ho' := Operator.functionOf_typed hb ho
  have hn' := Operator.functionOf_typed hb hn
  have hr' := Operator.functionOf_typed hb hr
  rcases hop with rfl | rfl
  · exact join_typed hs hi hr' ho' hn' h
  · exact groupJoin_typed hs hi hr' ho' hn' h

theorem zipCall_typed {inner : Source} (hs : s.query.Lists s.element)
    (hi : inner.query.Lists inner.element) (hb : b.All fun v => v.Belongs v.typeOf)
    {result : String} (h : s.zipCall inner result b = .ok c) : c.Typed := by
  obtain ⟨r, hr, h⟩ := bind_eq_ok.mp h
  exact zip_typed hs hi (Operator.functionOf_typed hb hr) h

/-! ### Folds -/

theorem accumulator_typed (hb : b.All fun v => v.Belongs v.typeOf) {text : String} {u : Ty}
    {l : Lambda} (h : s.accumulator text u b = .ok l) : l.Typed Value.Belongs [] := by
  obtain ⟨_, -, h⟩ := bind_eq_ok.mp h
  obtain ⟨l', hl, h⟩ := bind_eq_ok.mp h
  cases h
  exact (Operator.functionOf_typed hb hl).accumulating u

/-- The type of a start is its own. -/
theorem seedType_eq_ok {seed : Value} {u : Ty} (h : operator.seedType seed = .ok u) :
    u = seed.typeOf := by
  rw [Operator.seedType] at h
  split at h
  · cases h
  · exact (Except.ok.inj h).symm

theorem aggregateCall_typed (hs : s.query.Lists s.element) (hb : b.All fun v => v.Belongs v.typeOf)
    {func : String} (h : s.aggregateCall func b = .ok c) : c.Typed := by
  obtain ⟨f, hf, h⟩ := bind_eq_ok.mp h
  exact fold_typed hs (accumulator_typed hb hf) h

theorem aggregateSeedCall_typed (hs : s.query.Lists s.element) {seed : Value}
    (hv : seed.Belongs seed.typeOf) (hb : b.All fun v => v.Belongs v.typeOf) {func : String}
    (h : s.aggregateSeedCall seed func b = .ok c) : c.Typed := by
  obtain ⟨u, hu, h⟩ := bind_eq_ok.mp h
  obtain ⟨f, hf, h⟩ := bind_eq_ok.mp h
  exact foldFrom_typed hs (accumulator_typed hb hf) hu (seedType_eq_ok hu ▸ hv) h

theorem aggregateSeedResultCall_typed (hs : s.query.Lists s.element) {seed : Value}
    (hv : seed.Belongs seed.typeOf) (hb : b.All fun v => v.Belongs v.typeOf) {func result : String}
    (h : s.aggregateSeedResultCall seed func result b = .ok c) : c.Typed := by
  obtain ⟨u, hu, h⟩ := bind_eq_ok.mp h
  obtain ⟨f, hf, h⟩ := bind_eq_ok.mp h
  obtain ⟨_, -, h⟩ := bind_eq_ok.mp h
  obtain ⟨r, hr, h⟩ := bind_eq_ok.mp h
  exact foldInto_typed hs (accumulator_typed hb hf) hu (seedType_eq_ok hu ▸ hv)
    (Operator.functionOf_typed hb hr) h

/-! ### New sources -/

/-- The element type of a declared source is that of its tree. -/
theorem declare_eq_ok {element : Ty} {q : Query} (h : declare element q = .ok s) :
    q.type.yields? = some element ∧ s = ⟨element, q⟩ := by
  rw [declare] at h
  split at h
  · rename_i hy
    exact ⟨hy, (Except.ok.inj h).symm⟩
  · cases h

theorem ofValues_typed {element : Ty} {values : List Value}
    (hv : ∀ v ∈ values, v.wellFormed = true) (h : ofValues element values = .ok s) :
    s.query.Lists s.element := by
  rw [ofValues] at h
  split at h
  · cases h
  · rename_i hnone
    obtain ⟨-, rfl⟩ := declare_eq_ok h
    simp only [List.find?_eq_none, Bool.not_eq_true', Bool.not_eq_false] at hnone
    exact .root fun v hm => ⟨hv v hm, hnone v hm⟩

theorem ofJsonText_typed {element : Ty} {text : String} {v : Value}
    (ht : Value.ofJsonText (.list element) text = .ok v) (hv : v.wellFormed = true)
    (h : ofJsonText element text = .ok s) : s.query.Lists s.element := by
  rw [ofJsonText] at h
  rw [ht] at h
  refine ofValues_typed ?_ h
  cases v with
  | sequence items => exact Value.allWellFormed_iff.mp hv
  | grouping key elements =>
      simp only [Value.wellFormed, Bool.and_eq_true] at hv
      exact Value.allWellFormed_iff.mp hv.2
  | _ =>
      intro w hw
      cases hw

/-- A lazy call makes a source of the type of its elements. -/
theorem deriveCall_typed (hc : c.Typed) (h : deriveCall c = .ok s) : s.query.Lists s.element := by
  obtain ⟨_, hlazy, h⟩ := bind_eq_ok.mp h
  rcases hc with ⟨t, hc⟩ | hc
  · rw [ofQuery] at h
    rcases hc.yields with hy | hy
    · rw [hy] at h
      obtain ⟨-, rfl⟩ := declare_eq_ok h
      exact hc
    · rw [hy] at h
      obtain ⟨-, rfl⟩ := declare_eq_ok h
      exact hc
  · rw [Operator.expect] at hlazy
    rw [hc.eager] at hlazy
    cases hlazy

end Source

/-! ### Reachable sources -/

mutual

/-- The sources of well-formed values, and those of lazy calls built over such sources. -/
inductive Source.Reachable : Source → Prop
  | ofValues {element : Ty} {values : List Value} {s : Source}
      (hv : ∀ v ∈ values, v.wellFormed = true) (h : Source.ofValues element values = .ok s) :
      Source.Reachable s
  | ofJsonText {element : Ty} {text : String} {v : Value} {s : Source}
      (ht : Value.ofJsonText (.list element) text = .ok v) (hv : v.wellFormed = true)
      (h : Source.ofJsonText element text = .ok s) : Source.Reachable s
  | derived {c : Call} {s : Source} (hc : Call.Built c) (h : Source.deriveCall c = .ok s) :
      Source.Reachable s

/-- The calls that the methods of reachable sources build, with bindings, starts and constants that
are values of their own types. -/
inductive Call.Built : Call → Prop
  | expression {s : Source} {operator : Operator} {text : Option String} {b : Bindings} {c : Call}
      (hs : Source.Reachable s) (hb : b.All fun v => v.Belongs v.typeOf)
      (h : s.expressionCall operator text b = .ok c) : Call.Built c
  | constant {s : Source} {operator : Operator} {v : Value} {c : Call} (hs : Source.Reachable s)
      (hv : v.Belongs v.typeOf) (h : s.constantCall operator v = .ok c) : Call.Built c
  | groupByElement {s : Source} {key element : String} {b : Bindings} {c : Call}
      (hs : Source.Reachable s) (hb : b.All fun v => v.Belongs v.typeOf)
      (h : s.groupByElementCall key element b = .ok c) : Call.Built c
  | groupByResult {s : Source} {key result : String} {b : Bindings} {c : Call}
      (hs : Source.Reachable s) (hb : b.All fun v => v.Belongs v.typeOf)
      (h : s.groupByResultCall key result b = .ok c) : Call.Built c
  | groupByElementResult {s : Source} {key element result : String} {b : Bindings} {c : Call}
      (hs : Source.Reachable s) (hb : b.All fun v => v.Belongs v.typeOf)
      (h : s.groupByElementResultCall key element result b = .ok c) : Call.Built c
  | keyedJoin {s inner : Source} {operator : Operator} {outerKey innerKey result : String}
      {b : Bindings} {c : Call} (hop : operator = .join ∨ operator = .groupJoin)
      (hs : Source.Reachable s) (hi : Source.Reachable inner)
      (hb : b.All fun v => v.Belongs v.typeOf)
      (h : s.keyedJoinCall operator inner outerKey innerKey result b = .ok c) : Call.Built c
  | zip {s inner : Source} {result : String} {b : Bindings} {c : Call} (hs : Source.Reachable s)
      (hi : Source.Reachable inner) (hb : b.All fun v => v.Belongs v.typeOf)
      (h : s.zipCall inner result b = .ok c) : Call.Built c
  | aggregate {s : Source} {func : String} {b : Bindings} {c : Call} (hs : Source.Reachable s)
      (hb : b.All fun v => v.Belongs v.typeOf) (h : s.aggregateCall func b = .ok c) : Call.Built c
  | aggregateSeed {s : Source} {seed : Value} {func : String} {b : Bindings} {c : Call}
      (hs : Source.Reachable s) (hv : seed.Belongs seed.typeOf)
      (hb : b.All fun v => v.Belongs v.typeOf)
      (h : s.aggregateSeedCall seed func b = .ok c) : Call.Built c
  | aggregateSeedResult {s : Source} {seed : Value} {func result : String} {b : Bindings} {c : Call}
      (hs : Source.Reachable s) (hv : seed.Belongs seed.typeOf)
      (hb : b.All fun v => v.Belongs v.typeOf)
      (h : s.aggregateSeedResultCall seed func result b = .ok c) : Call.Built c

end

mutual

theorem Source.Reachable.typed : ∀ {s : Source}, s.Reachable → s.query.Lists s.element
  | _, .ofValues hv h => Source.ofValues_typed hv h
  | _, .ofJsonText ht hv h => Source.ofJsonText_typed ht hv h
  | _, .derived hc h => Source.deriveCall_typed hc.typed h

theorem Call.Built.typed : ∀ {c : Call}, c.Built → c.Typed
  | _, .expression hs hb h => Source.expressionCall_typed hs.typed hb h
  | _, .constant hs hv h => Source.constantCall_typed hs.typed hv.wellFormed h
  | _, .groupByElement hs hb h => Source.groupByElementCall_typed hs.typed hb h
  | _, .groupByResult hs hb h => Source.groupByResultCall_typed hs.typed hb h
  | _, .groupByElementResult hs hb h => Source.groupByElementResultCall_typed hs.typed hb h
  | _, .keyedJoin hop hs hi hb h => Source.keyedJoinCall_typed hop hs.typed hi.typed hb h
  | _, .zip hs hi hb h => Source.zipCall_typed hs.typed hi.typed hb h
  | _, .aggregate hs hb h => Source.aggregateCall_typed hs.typed hb h
  | _, .aggregateSeed hs hv hb h => Source.aggregateSeedCall_typed hs.typed hv hb h
  | _, .aggregateSeedResult hs hv hb h => Source.aggregateSeedResultCall_typed hs.typed hv hb h

end

/-- The methods of a reachable source with an expression lead to reachable sources. -/
theorem Source.Reachable.derive {s s' : Source} {operator : Operator} {text : Option String}
    {b : Bindings} (hs : s.Reachable) (hb : b.All fun v => v.Belongs v.typeOf)
    (h : s.derive operator text b = .ok s') : s'.Reachable := by
  obtain ⟨_, -, h⟩ := bind_eq_ok.mp h
  obtain ⟨c, hc, h⟩ := bind_eq_ok.mp h
  exact .derived (.expression hs hb hc) h

/-- So do those with a constant. -/
theorem Source.Reachable.deriveWith {s s' : Source} {operator : Operator} {v : Value}
    (hs : s.Reachable) (hv : v.Belongs v.typeOf) (h : s.deriveWith operator v = .ok s') :
    s'.Reachable := by
  obtain ⟨_, -, h⟩ := bind_eq_ok.mp h
  obtain ⟨c, hc, h⟩ := bind_eq_ok.mp h
  exact .derived (.constant hs hv hc) h

end LambdaQuery
