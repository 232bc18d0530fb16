/-
**When calls are accepted.**  The converse of what a built call tells about its arguments: arguments
that fit their parameters are accepted, and the call is the one that the signature describes.

Main definitions:
* `Source.Declared` — the type of the tree has the element type of the source;
* `Source.projection` — the call of a projection by a function;
* `Compiles` — a text is there and compiles to a function over parameters of given types.

Main results:
* `Source.ofValues_declared`, `Source.ofJsonText_declared`, `Source.deriveCall_declared` — every
  source is declared, whichever way it is made;
* `Signature.check_of_admits`, `Signature.firstFit_of_only` — arguments that fit are accepted;
* `Source.build_functions_iff`, `Source.build_totals_iff` — **when a call without constants is
  built, and which call it is**;
* `Source.build_chosen_iff`, `Source.build_totalOf_iff`, `Source.build_extremeOf_iff`, … — the same
  for each kind of operator with one source;
* `Source.expressionCall_of_text`, `Source.expressionCall_of_blank` — calls with a text, and with a
  blank one;
* `Compiles.expressionCall` — a call with a text that compiles.
-/

import LambdaQuery.Proofs.QueryBuilding

namespace LambdaQuery

/-! ### Declared sources -/

namespace Source

/-- The type of the tree has the element type: what is checked whenever a source is made. -/
def Declared (s : Source) : Prop := declare s.element s.query = .ok s

variable {s : Source}

theorem declared_of_declare {element : Ty} {q : Query} (h : declare element q = .ok s) :
    s.Declared := by
  obtain ⟨-, rfl⟩ := declare_eq_ok h
  exact h

theorem ofQuery_declared {q : Query} (h : ofQuery q = .ok s) : s.Declared := by
  rw [ofQuery] at h
  split at h
  · exact declared_of_declare h
  · cases h

/-- The source of values is their tree, and all of them conform to its element type. -/
theorem ofValues_eq_ok {element : Ty} {values : List Value} (h : ofValues element values = .ok s) :
    s = ⟨element, .root element values⟩ ∧ ∀ v ∈ values, v.conforms element = true := by
  rw [ofValues] at h
  split at h
  · cases h
  · rename_i hnone
    exact ⟨(declare_eq_ok h).2, by simpa using hnone⟩

theorem ofValues_declared {element : Ty} {values : List Value}
    (h : ofValues element values = .ok s) : s.Declared := by
  obtain ⟨rfl, -⟩ := ofValues_eq_ok h
  exact if_pos rfl

/-- Values that conform to a type make a source of it. -/
theorem ofValues_of_conforms {element : Ty} {values : List Value}
    (h : ∀ v ∈ values, v.conforms element = true) :
    ofValues element values = .ok ⟨element, .root element values⟩ := by
  have hnone : (values.find? fun v => !v.conforms element) = none := by simpa using h
  rw [ofValues, hnone]
  exact if_pos rfl

theorem ofJsonText_declared {element : Ty} {text : String} (h : ofJsonText element text = .ok s) :
    s.Declared := by
  rw [ofJsonText] at h
  split at h
  · exact ofValues_declared h
  · cases h

theorem deriveCall_declared {c : Call} (h : deriveCall c = .ok s) : s.Declared := by
  obtain ⟨_, -, h⟩ := bind_eq_ok.mp h
  exact ofQuery_declared h

theorem Reachable.declared (hs : s.Reachable) : s.Declared := by
  cases hs with
  | ofValues _ h => exact ofValues_declared h
  | ofJsonText _ _ h => exact ofJsonText_declared h
  | derived _ h => exact deriveCall_declared h

/-- The tree may be the source of any operator that asks for no order. -/
theorem Declared.assignable (hs : s.Declared) :
    s.query.type.assignable (.query s.element) = true := by
  obtain ⟨hy, -⟩ := declare_eq_ok hs
  unfold Ty.yields? at hy
  split at hy
  · rename_i h
    cases hy
    simp [h, Ty.assignable]
  · rename_i h
    cases hy
    simp [h, Ty.assignable]
  · cases hy

/-- A lazy call of the type of a query makes a source. -/
theorem deriveCall_of_query {c : Call} {t : Ty} (hlazy : c.operator.execution = .lazy)
    (ht : c.type = .query t) : deriveCall c = .ok ⟨t, .call c⟩ := by
  rw [deriveCall, Operator.expect, if_pos hlazy]
  simp [ofQuery, declare, Query.type, ht, Ty.element?, Ty.yields?, bind, Except.bind]

end Source

/-! ### Calls that are built -/

/-- A function type stands for itself alone. -/
theorem Ty.function_assignable_iff {params params' : List Ty} {r r' : Ty} :
    (Ty.function params r).assignable (.function params' r') = true ↔
      params = params' ∧ r = r' := by
  simp [Ty.assignable]

/-- A query of elements of one type stands for queries of that type alone. -/
theorem Ty.query_assignable_iff {t n : Ty} : (Ty.query t).assignable (.query n) = true ↔ t = n := by
  simp [Ty.assignable]

namespace Signature

variable {sig : Signature} {typeArgs found : List Ty} {t : Ty}

theorem checkArguments_of_admits :
    ∀ {ps : List TypePattern} {found : List Ty} {position : Nat},
      List.Forall₂ (TypePattern.Admits typeArgs) ps found →
        sig.checkArguments typeArgs position ps found = .ok () := by
  intro ps found position h
  induction h generalizing position with
  | nil => rfl
  | cons hp _ ih =>
      obtain ⟨e, he, ha⟩ := hp
      refine bind_eq_ok.mpr ⟨e, by rw [instantiate, he], ?_⟩
      rw [if_pos ha]
      exact ih

/-- A call that has as many type arguments as the signature asks for fits it if each of its
arguments may stand for its parameter. -/
theorem check_of_admits (ha : typeArgs.length = sig.arity)
    (hargs : List.Forall₂ (TypePattern.Admits typeArgs) sig.params found)
    (hr : sig.result.instantiate? typeArgs = some t) : sig.check typeArgs found = .ok t := by
  rw [check]
  simp only [ha, hargs.length_eq, ne_eq, not_true_eq_false, if_false,
    checkArguments_of_admits hargs, instantiate, hr]
  rfl

/-- Of the signatures of a family that a call could fit it fits the one that it has. -/
theorem firstFit_of_only {α : Type} (family : α → Signature) {a : α} {members : List α}
    {failure : SignatureError} (hm : a ∈ members) (ha : (family a).check typeArgs found = .ok t)
    (honly : ∀ b ∈ members, ∀ r, (family b).check typeArgs found = .ok r → b = a) :
    firstFit typeArgs found failure (members.map family) = .ok (family a, t) := by
  induction members generalizing failure with
  | nil => cases hm
  | cons b rest ih =>
      rw [List.map_cons, firstFit]
      cases hb : (family b).check typeArgs found with
      | ok r =>
          obtain rfl := honly b (List.mem_cons_self ..) r hb
          cases ha.symm.trans hb
          rfl
      | error e =>
          have hne : a ≠ b := by
            rintro rfl
            cases ha.symm.trans hb
          exact ih ((List.mem_cons.mp hm).resolve_left hne)
            fun b hb => honly b (List.mem_cons_of_mem _ hb)

end Signature

namespace Source

open Signature TypePattern

variable {s : Source} {operator : Operator} {shape : Shape} {functions : List Lambda} {l : Lambda}
  {inner : Option Source} {typeArgs : List Ty} {queries : List Argument} {c : Call}

/-- A call that fits an overload is built. -/
theorem build_of_resolve (sig : Signature) {t : Ty} {constants : List Value}
    {arguments : List Argument} (hop : operator.accepts shape = true)
    (hts : s.typeArguments operator shape functions constants inner = .ok typeArgs)
    (hqs : s.queries shape inner = .ok queries)
    (hks : s.constantArguments operator shape constants = .ok arguments)
    (hfit : resolve operator shape typeArgs
      ((queries ++ arguments ++ functions.map Argument.function).map Argument.type)
        = .ok (sig, t)) :
    s.build operator shape functions constants inner =
      .ok ⟨operator, shape, typeArgs, queries ++ arguments ++ functions.map .function, t⟩ := by
  rw [build, if_neg (by simp [hop])]
  refine bind_eq_ok.mpr ⟨typeArgs, hts, bind_eq_ok.mpr ⟨queries, hqs, ?_⟩⟩
  refine bind_eq_ok.mpr ⟨arguments, hks, bind_eq_ok.mpr ⟨(sig, t), mapError_eq_ok.mpr hfit, rfl⟩⟩

/-- A call without constants whose operator has one overload in the shape is built just when its
arguments fit that overload. -/
theorem build_functions_iff {sig : Signature} {t : Ty} (hop : operator.accepts shape = true)
    (hts : s.typeArguments operator shape functions [] inner = .ok typeArgs)
    (hqs : s.queries shape inner = .ok queries)
    (hsig : overloads operator shape = [sig]) (ha : typeArgs.length = sig.arity)
    (hr : sig.result.instantiate? typeArgs = some t) :
    s.build operator shape functions [] inner = .ok c ↔
      List.Forall₂ (fun p (a : Argument) => Admits typeArgs p a.type) sig.params
          (queries ++ functions.map .function) ∧
        c = ⟨operator, shape, typeArgs, queries ++ functions.map .function, t⟩ := by
  constructor
  · intro h
    obtain ⟨t', hargs, hr', rfl⟩ := build_functions hts hqs hsig h
    obtain rfl : t = t' := Option.some.inj (hr.symm.trans hr')
    exact ⟨hargs, rfl⟩
  · rintro ⟨hargs, rfl⟩
    have hbuilt := build_of_resolve sig (t := t) hop hts hqs rfl
    rw [List.append_nil] at hbuilt
    refine hbuilt ?_
    rw [resolve, hsig]
    exact firstFit_of_only id (List.mem_singleton_self sig)
      (check_of_admits ha (List.forall₂_map_right_iff.mpr hargs) hr)
      fun _ hm _ _ => List.mem_singleton.mp hm

/-- The overload of a sum or a mean that fits is that of the numbers in question. -/
theorem build_totals_iff {family : Ty → Signature} {r : Ty → Ty} {n : Ty}
    (hop : operator.accepts shape = true)
    (hts : s.typeArguments operator shape functions [] none = .ok typeArgs)
    (hsig : overloads operator shape = numbers.map family)
    (ha : ∀ n, typeArgs.length = (family n).arity)
    (hr : ∀ n, (family n).result.instantiate? typeArgs = some (r n))
    (hqs : s.queries shape none = .ok queries)
    (hargs : ∀ m ∈ numbers,
      List.Forall₂ (fun p (a : Argument) => Admits typeArgs p a.type) (family m).params
          (queries ++ functions.map .function) ↔ n = m) :
    s.build operator shape functions [] none = .ok c ↔
      n ∈ numbers ∧
        c = ⟨operator, shape, typeArgs, queries ++ functions.map .function, r n⟩ := by
  constructor
  · intro h
    obtain ⟨_, hks, sig, hmem, t, hfit, hresult, rfl⟩ := build_eq_ok hts hqs h
    cases hks
    rw [hsig] at hmem
    obtain ⟨m, hm, rfl⟩ := List.mem_map.mp hmem
    rw [List.append_nil] at hfit ⊢
    obtain rfl := (hargs m hm).mp hfit
    obtain rfl : r n = t := Option.some.inj ((hr n).symm.trans hresult)
    exact ⟨hm, rfl⟩
  · rintro ⟨hn, rfl⟩
    have hbuilt := build_of_resolve (family n) (t := r n) hop hts hqs rfl
    rw [List.append_nil] at hbuilt
    refine hbuilt ?_
    rw [resolve, hsig]
    refine firstFit_of_only family hn
      (check_of_admits (ha n) (List.forall₂_map_right_iff.mpr ((hargs n hn).mpr rfl)) (hr n)) ?_
    intro m hm t hcheck
    exact ((hargs m hm).mp (List.forall₂_map_right_iff.mp (check_eq_ok hcheck).1)).symm

/-- A call with a condition is built when the function is one. -/
theorem build_predicate_iff {p : TypePattern} {r : Ty} (hs : s.Declared)
    (hl : l.paramTypes = [s.element]) (hop : operator.accepts .predicate = true)
    (hsig : overloads operator .predicate =
      [⟨operator, .predicate, 1, [.query typeT, predicate], p⟩])
    (hr : p.instantiate? [s.element] = some r) :
    s.build operator .predicate [l] [] none = .ok c ↔
      l.returns = .bool ∧
        c = ⟨operator, .predicate, [s.element], [.query s.query, .function l], r⟩ := by
  rw [build_functions_iff hop rfl rfl hsig rfl hr]
  simp [typeT, predicate, Admits, instantiate?, instantiateAll?, Argument.type, Lambda.type, hl,
    hs.assignable, Ty.function_assignable_iff]

/-- A call with nothing but its source is built over any source. -/
theorem build_none_iff {p : TypePattern} {r : Ty} (hs : s.Declared)
    (hop : operator.accepts .none = true) (hnumeric : operator.isNumeric = false)
    (hsig : overloads operator .none = [⟨operator, .none, 1, [.query typeT], p⟩])
    (hr : p.instantiate? [s.element] = some r) :
    s.build operator .none [] [] none = .ok c ↔
      c = ⟨operator, .none, [s.element], [.query s.query], r⟩ := by
  have hts : s.typeArguments operator .none [] [] none = .ok [s.element] := by
    simp [typeArguments, hnumeric, pure, Except.pure]
  rw [build_functions_iff hop hts rfl hsig rfl hr]
  simp [typeT, Admits, instantiate?, Argument.type, hs.assignable]

/-- The projection of the elements by a function. -/
def projection (s : Source) (l : Lambda) : Call :=
  ⟨.select, .selector, [s.element, l.returns], [.query s.query, .function l], .query l.returns⟩

/-- A projection is built whatever its function returns. -/
theorem build_select_iff (hs : s.Declared) (hl : l.paramTypes = [s.element]) :
    s.build .select .selector [l] [] none = .ok c ↔ c = s.projection l := by
  rw [build_functions_iff rfl rfl rfl rfl rfl rfl]
  simp [projection, typeT, typeU, Admits, instantiate?, instantiateAll?, Argument.type, Lambda.type,
    hl, hs.assignable, Ty.function_assignable_iff]

/-- A call that gives a value of all elements is built over any source. -/
theorem build_chosen_iff {r : Ty} (hs : s.Declared) (hop : operator.chosenType s.element = some r) :
    s.build operator .none [] [] none = .ok c ↔
      c = ⟨operator, .none, [s.element], [.query s.query], r⟩ := by
  obtain ⟨p, hp, hsig, -⟩ := overloads_chosen hop
  have hacc : operator.accepts .none = true ∧ operator.isNumeric = false := by
    cases operator <;> first | exact ⟨rfl, rfl⟩ | cases hop
  exact build_none_iff hs hacc.1 hacc.2 hsig hp

/-- One that gives a value of chosen elements is built when its function is a condition. -/
theorem build_chosenWhere_iff {r : Ty} (hs : s.Declared) (hl : l.paramTypes = [s.element])
    (hop : operator.chosenType s.element = some r) :
    s.build operator .predicate [l] [] none = .ok c ↔
      l.returns = .bool ∧
        c = ⟨operator, .predicate, [s.element], [.query s.query, .function l], r⟩ := by
  obtain ⟨p, hp, -, hsig⟩ := overloads_chosen hop
  have hacc : operator.accepts .predicate = true := by
    cases operator <;> first | rfl | cases hop
  exact build_predicate_iff hs hl hacc hsig hp

/-- A sum or a mean of the elements is built when they are numbers, if of all queries of numbers the
tree may stand for those of its own elements alone. -/
theorem build_total_iff {n : Ty} (hop : operator = .sum ∨ operator = .average)
    (hq : ∀ m ∈ numbers, s.query.type.assignable (.query m) = true ↔ n = m) :
    s.build operator .none [] [] none = .ok c ↔
      n ∈ numbers ∧
        c = ⟨operator, .none, [], [.query s.query], (operator.totalType n).getD n⟩ := by
  refine build_totals_iff (r := fun n => (operator.totalType n).getD n) ?_ ?_
    (overloads_total hop) (fun _ => rfl) (fun _ => rfl) rfl fun m hm => ?_
  · rcases hop with rfl | rfl <;> rfl
  · rcases hop with rfl | rfl <;> rfl
  · simp [Admits, instantiate?, Argument.type, hq m hm]

/-- A sum or a mean of values of the elements is built when they are numbers. -/
theorem build_totalOf_iff (hs : s.Declared) (hl : l.paramTypes = [s.element])
    (hop : operator = .sum ∨ operator = .average) :
    s.build operator .selector [l] [] none = .ok c ↔
      l.returns ∈ numbers ∧
        c = ⟨operator, .selector, [s.element], [.query s.query, .function l],
          (operator.totalType l.returns).getD l.returns⟩ := by
  refine build_totals_iff (r := fun n => (operator.totalType n).getD n) ?_ ?_
    (overloads_totalOf hop) (fun _ => rfl) (fun _ => rfl) rfl fun m _ => ?_
  · rcases hop with rfl | rfl <;> rfl
  · rcases hop with rfl | rfl <;> rfl
  · simp [typeT, Admits, instantiate?, instantiateAll?, Argument.type, Lambda.type, hl,
      hs.assignable, Ty.function_assignable_iff]

/-- The least or the greatest of the elements, and of values of the elements, of any type. -/
theorem build_extreme_iff (hs : s.Declared) (hop : operator = .min ∨ operator = .max) :
    s.build operator .none [] [] none = .ok c ↔
      c = ⟨operator, .none, [s.element], [.query s.query], s.element⟩ := by
  have hacc : operator.accepts .none = true ∧ operator.isNumeric = false := by
    rcases hop with rfl | rfl <;> exact ⟨rfl, rfl⟩
  exact build_none_iff hs hacc.1 hacc.2 (overloads_extreme hop) rfl

theorem build_extremeOf_iff (hs : s.Declared) (hl : l.paramTypes = [s.element])
    (hop : operator = .min ∨ operator = .max) :
    s.build operator .selector [l] [] none = .ok c ↔
      c = ⟨operator, .selector, [s.element, l.returns], [.query s.query, .function l],
        l.returns⟩ := by
  have hacc : operator.accepts .selector = true := by rcases hop with rfl | rfl <;> rfl
  have hts : s.typeArguments operator .selector [l] [] none = .ok [s.element, l.returns] := by
    rcases hop with rfl | rfl <;> rfl
  rw [build_functions_iff hacc hts rfl (overloads_extremeOf hop) rfl rfl]
  simp [typeT, typeU, Admits, instantiate?, instantiateAll?, Argument.type, Lambda.type, hl,
    hs.assignable, Ty.function_assignable_iff]

/-- A value of the element type may be looked for in any source. -/
theorem build_contains {v : Value} (hs : s.Declared) (hv : v.conforms s.element = true) :
    s.build .contains .element [] [v] none =
      .ok ⟨.contains, .element, [s.element], [.query s.query, .constant v s.element], .bool⟩ := by
  let sig : Signature :=
    ⟨.contains, .element, 1, [.query typeT, typeT], .concrete .bool⟩
  have hks : s.constantArguments .contains .element [v] = .ok [.constant v s.element] := by
    rw [constantArguments, Each.map, Operator.constantType, if_pos hv]
    rfl
  refine build_of_resolve sig rfl rfl rfl hks ?_
  have hsig : overloads .contains .element = [sig] := rfl
  rw [resolve, hsig]
  refine firstFit_of_only id (List.mem_singleton_self sig) (check_of_admits rfl ?_ rfl)
    fun _ hm _ _ => List.mem_singleton.mp hm
  have hself : s.element.assignable s.element = true := by
    unfold Ty.assignable
    simp
  simp [sig, typeT, Admits, instantiate?, Argument.type, hs.assignable, hself]

end Source

/-! ### Calls with a text -/

namespace Source

variable {s : Source} {operator : Operator} {shape : Shape} {text : String} {b : Bindings}

/-- The function of a text that is not blank is what the text compiles to. -/
theorem functionOf_of_text {argument : String} {types : List Ty}
    (ht : Text.isBlankText text = false) :
    operator.functionOf argument (some s) types (some text) b =
      (Lambda.compile (Text.trim text) types b).mapError .compile := by
  rw [Operator.functionOf]
  split
  · rename_i h
    cases h
  · rename_i h
    exact absurd (Option.some.inj h) (Text.trim_ne_empty ht)
  · rename_i h
    cases h
    rfl

/-- The call of an operator with a text that is not blank: the text is compiled, and the function is
adjusted to the operator. -/
theorem expressionCall_of_adjusted (hop : operator.expressionShape? = some shape)
    (ht : Text.isBlankText text = false) :
    s.expressionCall operator (some text) b =
      (Lambda.compile (Text.trim text) [s.element] b).mapError .compile >>= fun l =>
        operator.adjust l >>= fun l => s.build operator shape [l] [] none := by
  have hblank : ¬ (operator.takesBlank && isBlankExpression (some text)) = true := by
    simp [isBlankExpression, ht]
  rw [expressionCall, if_neg hblank, hop]
  simp only [functionOf_of_text ht]
  rfl

/-- The same where the operator takes the function as it is. -/
theorem expressionCall_of_text (hop : operator.expressionShape? = some shape)
    (hadjust : ∀ l, operator.adjust l = .ok l) (ht : Text.isBlankText text = false) :
    s.expressionCall operator (some text) b =
      (Lambda.compile (Text.trim text) [s.element] b).mapError .compile >>= fun l =>
        s.build operator shape [l] [] none := by
  rw [expressionCall_of_adjusted hop ht]
  simp only [hadjust]
  rfl

/-- A lazy operator with such a text makes the source of its call. -/
theorem derive_of_text (hop : operator.expressionShape? = some shape)
    (hadjust : ∀ l, operator.adjust l = .ok l) (hlazy : operator.execution = .lazy)
    (ht : Text.isBlankText text = false) :
    s.derive operator (some text) b =
      (Lambda.compile (Text.trim text) [s.element] b).mapError .compile >>= fun l =>
        s.build operator shape [l] [] none >>= deriveCall := by
  rw [derive, expressionCall_of_text hop hadjust ht, Operator.expect, if_pos hlazy]
  exact bind_assoc (m := QueryResult) ..

/-- A blank expression stands for none where none will do. -/
theorem expressionCall_of_blank (hop : operator.takesBlank = true) {blank : Option String}
    (hblank : isBlankExpression blank = true) :
    s.expressionCall operator blank b = s.build operator .none [] [] none := by
  rw [expressionCall, if_pos (by simp [hop, hblank])]

end Source

/-- The text is there, and compiles to the function over parameters of the given types. -/
structure Compiles (text : String) (types : List Ty) (b : Bindings) (l : Lambda) : Prop where
  nonblank : Text.isBlankText text = false
  compiled : Lambda.compile (Text.trim text) types b = .ok l

namespace Compiles

variable {text : String} {types : List Ty} {b : Bindings} {l : Lambda}

theorem paramTypes (h : Compiles text types b l) : l.paramTypes = types :=
  (Lambda.compile_typed_any h.compiled).2.1

theorem returns (h : Compiles text types b l) : l.returns = l.body.type :=
  (Lambda.compile_typed_any h.compiled).2.2

theorem functionOf {s : Source} {operator : Operator} {argument : String}
    (h : Compiles text types b l) :
    operator.functionOf argument (some s) types (some text) b = .ok l := by
  rw [Source.functionOf_of_text h.nonblank, h.compiled]
  rfl

theorem functionOf_bind {α : Type} {s : Source} {operator : Operator} {argument : String}
    {k : Lambda → QueryResult α} (h : Compiles text types b l) :
    (operator.functionOf argument (some s) types (some text) b >>= k) = k l := by
  rw [h.functionOf]
  rfl

theorem expressionCall {s : Source} {operator : Operator} {shape : Shape}
    (h : Compiles text [s.element] b l) (hop : operator.expressionShape? = some shape) :
    s.expressionCall operator (some text) b =
      operator.adjust l >>= fun l => s.build operator shape [l] [] none := by
  rw [Source.expressionCall_of_adjusted hop h.nonblank, h.compiled]
  rfl

theorem required_bind {α : Type} {argument : String} {k : Unit → QueryResult α}
    (h : Compiles text types b l) : (Source.required text argument >>= k) = k () := by
  have hthere : ¬ isBlankExpression (some text) = true := by
    simp [isBlankExpression, h.nonblank]
  rw [Source.required, if_neg hthere]
  rfl

end Compiles

end LambdaQuery
