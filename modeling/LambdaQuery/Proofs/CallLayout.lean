/-
**The layout of built calls.**  Where an argument of a call stands is agreed between three parties
by convention alone: the methods that build calls, the library of signatures, and the operators
that read the arguments at their places.  This module says what the first two agree on.

A shape fixes the kinds of the arguments: the source, the second source if there is one, then the
constants, then the functions.  Every call that a method builds has them in these places and fits
an overload of its operator and shape.  Its type follows from the overload, so that ordered queries
are the calls that order and nothing else.

No assumption is made on the values: neither those of the sources nor those bound to the texts.

Main definitions:
* `Shape.kinds` — the kinds of the arguments of a shape, in the order in which they stand;
* `Call.Placed` — the call fits an overload of its shape and has its arguments in their places;
* `Query.Laid`, `Call.OccursIn` — all calls of a tree are placed and lazy; the calls of a tree;
* `Source.Obtained`, `Call.Assembled` — the sources that the methods lead to, and the calls that
  they build.

Main results:
* `Call.Placed.type_of_lazy`, `Call.Placed.refines` — a lazy call is a query, ordered if it orders,
  and what it refines is a call that orders;
* `Call.BuiltOver.placed` — every call that is built over sources is placed;
* `Source.Obtained.laid` — **the tree of every source is laid out**, by induction on how it was
  obtained.
-/

import LambdaQuery.Proofs.CallAcceptance

namespace LambdaQuery

/-! ### Kinds of arguments -/

/-- The kind of an argument. -/
def Argument.kind : Argument → ArgumentKind
  | query _ => .query
  | function _ => .function
  | constant _ _ => .constant

namespace Shape

/-- The number of constants of a call. -/
def constants : Shape → Nat
  | count | element | sequence | seeded | seededResult => 1
  | _ => 0

/-- The number of functions of a call. -/
def functions : Shape → Nat
  | none | count | element | sequence => 0
  | predicate | selector | zip | unseeded | seeded => 1
  | keyElement | keyResult | seededResult => 2
  | keyElementResult | keyed => 3

/-- The kinds of the queries of a call. -/
def queryKinds (shape : Shape) : List ArgumentKind :=
  if shape.hasInner then [.query, .query] else [.query]

/-- The kinds of the arguments of a call, in the order in which they stand. -/
def kinds (shape : Shape) : List ArgumentKind :=
  shape.queryKinds ++ List.replicate shape.constants .constant ++
    List.replicate shape.functions .function

theorem functions_of_isExpression {shape : Shape} (h : shape.isExpression = true) :
    shape.functions = 1 ∧ shape.constants = 0 := by
  cases shape <;> first | exact ⟨rfl, rfl⟩ | cases h

theorem constants_of_isConstant {shape : Shape} (h : shape.isConstant = true) :
    shape.functions = 0 ∧ shape.constants = 1 := by
  cases shape <;> first | exact ⟨rfl, rfl⟩ | cases h

end Shape

/-! ### Placed calls -/

/-- The call has a shape of its operator, fits an overload of both that gives its type, and has
arguments of the kinds of the shape. -/
structure Call.Placed (c : Call) : Prop where
  accepted : c.operator.accepts c.shape = true
  fits : ∃ sig ∈ Signature.overloads c.operator c.shape,
    c.signature = .ok sig ∧ sig.check c.typeArgs c.argTypes = .ok c.type
  kinds : c.args.map Argument.kind = c.shape.kinds

namespace TypePattern

/-- Is the pattern one of ordered queries? -/
def isOrderedQuery : TypePattern → Bool
  | orderedQuery _ => true
  | _ => false

/-- Is the pattern one of queries without an order? -/
def isQuery : TypePattern → Bool
  | query _ => true
  | _ => false

variable {p : TypePattern} {typeArgs : List Ty} {t : Ty}

theorem eq_of_isOrderedQuery (hp : p.isOrderedQuery = true) (h : p.instantiate? typeArgs = some t) :
    ∃ u, t = .orderedQuery u := by
  cases p with
  | orderedQuery element =>
      obtain ⟨u, -, rfl⟩ := Option.map_eq_some_iff.mp h
      exact ⟨u, rfl⟩
  | _ => cases hp

theorem eq_of_isQuery (hp : p.isQuery = true) (h : p.instantiate? typeArgs = some t) :
    ∃ u, t = .query u := by
  cases p with
  | query element =>
      obtain ⟨u, -, rfl⟩ := Option.map_eq_some_iff.mp h
      exact ⟨u, rfl⟩
  | _ => cases hp

end TypePattern

namespace Signature

theorem mem_overloads {operator : Operator} {shape : Shape} {sig : Signature} :
    sig ∈ overloads operator shape ↔
      sig ∈ library ∧ sig.operator = operator ∧ sig.shape = shape := by
  simp [overloads]

/-! ### What the library says of all its overloads -/

/-- An overload of an operator that orders gives an ordered query. -/
theorem isOrderedQuery_result : ∀ sig ∈ library, sig.operator.isOrdering = true →
    sig.result.isOrderedQuery = true := by
  decide

/-- An overload of any other lazy operator gives a query without an order. -/
theorem isQuery_result : ∀ sig ∈ library, sig.operator.isLazy = true →
    sig.operator.isOrdering = false → sig.result.isQuery = true := by
  decide

/-- An overload of an operator that refines an ordering takes an ordered query. -/
theorem isOrderedQuery_params : ∀ sig ∈ library, sig.operator.refinesOrdering = true →
    (sig.params.head?.map TypePattern.isOrderedQuery) = some true := by
  decide

/-- An overload has type parameters unless it is one for a numeric type. -/
theorem arity_pos : ∀ sig ∈ library, sig.operator.isNumeric = false → 0 < sig.arity := by
  decide

/-- The type arguments that a signature accepts are as many as its type parameters. -/
theorem length_eq_of_check {sig : Signature} {typeArgs found : List Ty} {t : Ty}
    (h : sig.check typeArgs found = .ok t) : typeArgs.length = sig.arity := by
  by_contra hne
  rw [check, if_pos hne] at h
  cases h

end Signature

namespace Call.Placed

variable {c : Call} {index : Nat}

/-! ### The parts of a call -/

theorem arg (hc : c.Placed) {kind : ArgumentKind} (h : c.shape.kinds[index]? = some kind) :
    ∃ a, c.args[index]? = some a ∧ a.kind = kind := by
  rw [← hc.kinds, List.getElem?_map] at h
  exact Option.map_eq_some_iff.mp h

/-- Where the shape has a query there is one. -/
theorem query (hc : c.Placed) (h : c.shape.kinds[index]? = some .query) :
    ∃ q, c.args[index]? = some (.query q) := by
  obtain ⟨a, ha, hk⟩ := hc.arg h
  cases a with
  | query q => exact ⟨q, ha⟩
  | _ => cases hk

/-- Where the shape has a function there is one. -/
theorem function (hc : c.Placed) (h : c.shape.kinds[index]? = some .function) :
    ∃ l, c.function index = .ok l := by
  obtain ⟨a, ha, hk⟩ := hc.arg h
  cases a with
  | function l => exact ⟨l, by rw [Call.function, ha]⟩
  | _ => cases hk

/-- Where the shape has a constant there is one. -/
theorem constant (hc : c.Placed) (h : c.shape.kinds[index]? = some .constant) :
    ∃ v, c.constant index = .ok v := by
  obtain ⟨a, ha, hk⟩ := hc.arg h
  cases a with
  | constant v t => exact ⟨v, by rw [Call.constant, ha]⟩
  | _ => cases hk

/-- The first type argument is there, but for the overloads for numeric types. -/
theorem typeArg (hc : c.Placed) (hn : c.operator.isNumeric = false) :
    ∃ t, c.typeArg 0 = .ok t := by
  obtain ⟨sig, hsig, -, hcheck⟩ := hc.fits
  obtain ⟨hmem, hop, -⟩ := Signature.mem_overloads.mp hsig
  have hpos : 0 < c.typeArgs.length := by
    rw [Signature.length_eq_of_check hcheck]
    exact Signature.arity_pos sig hmem (hop ▸ hn)
  exact ⟨c.typeArgs[0], by rw [Call.typeArg, List.getElem?_eq_getElem hpos]⟩

/-- The source of a call stands first. -/
theorem source (hc : c.Placed) : ∃ q rest, c.args = .query q :: rest := by
  have hkind : c.shape.kinds[0]? = some .query := by
    cases c.shape <;> rfl
  obtain ⟨q, hq⟩ := hc.query hkind
  cases ha : c.args with
  | nil =>
      rw [ha] at hq
      cases hq
  | cons a rest =>
      rw [ha] at hq
      cases hq
      exact ⟨q, rest, rfl⟩

/-- The second source stands behind it. -/
theorem inner (hc : c.Placed) (hs : c.shape.hasInner = true) :
    ∃ q i rest, c.args = .query q :: .query i :: rest := by
  have hkind : c.shape.kinds[1]? = some .query := by
    cases hshape : c.shape <;> rw [hshape] at hs <;> first | rfl | cases hs
  obtain ⟨i, hi⟩ := hc.query hkind
  obtain ⟨q, rest, ha⟩ := hc.source
  rw [ha] at hi
  cases rest with
  | nil => cases hi
  | cons a rest =>
      cases hi
      exact ⟨q, i, rest, ha⟩

/-! ### The type of a call -/

/-- **A lazy call is a query**, and an ordered one if its operator orders. -/
theorem type_of_lazy (hc : c.Placed) (hl : c.operator.isLazy = true) :
    ∃ t, c.type = if c.operator.isOrdering then .orderedQuery t else .query t := by
  obtain ⟨sig, hsig, -, hcheck⟩ := hc.fits
  obtain ⟨hmem, hop, -⟩ := Signature.mem_overloads.mp hsig
  obtain ⟨-, hresult⟩ := Signature.check_eq_ok hcheck
  rw [← hop] at hl ⊢
  cases ho : sig.operator.isOrdering with
  | true =>
      have hpattern := Signature.isOrderedQuery_result sig hmem ho
      exact TypePattern.eq_of_isOrderedQuery hpattern hresult
  | false =>
      have hpattern := Signature.isQuery_result sig hmem hl ho
      exact TypePattern.eq_of_isQuery hpattern hresult

/-- A lazy call has the type of an ordered query exactly when its operator orders. -/
theorem ordered_iff (hc : c.Placed) (hl : c.operator.isLazy = true) :
    (∃ t, c.type = .orderedQuery t) ↔ c.operator.isOrdering = true := by
  obtain ⟨t, ht⟩ := hc.type_of_lazy hl
  rw [ht]
  cases c.operator.isOrdering <;> simp

/-- What a call refines is of the type of an ordered query, or of that of null. -/
theorem ordered_source (hc : c.Placed) (hr : c.operator.refinesOrdering = true) {q : Query}
    {rest : List Argument} (ha : c.args = .query q :: rest) :
    (∃ t, q.type = .orderedQuery t) ∨ q.type = .null := by
  obtain ⟨sig, hsig, -, hcheck⟩ := hc.fits
  obtain ⟨hmem, hop, -⟩ := Signature.mem_overloads.mp hsig
  obtain ⟨hargs, -⟩ := Signature.check_eq_ok hcheck
  have hparams := Signature.isOrderedQuery_params sig hmem (hop ▸ hr)
  rw [Call.argTypes, ha, List.map_cons] at hargs
  cases hps : sig.params with
  | nil =>
      rw [hps] at hparams
      cases hparams
  | cons p ps =>
      rw [hps] at hargs hparams
      obtain ⟨⟨e, he, hassign⟩, -⟩ := List.forall₂_cons.mp hargs
      obtain ⟨u, rfl⟩ := TypePattern.eq_of_isOrderedQuery (Option.some.inj hparams) he
      rcases Ty.assignable_cases hassign with h | h | ⟨h, -⟩ | h | ⟨d, e, -, h, -⟩ | ⟨d, e, -, h, -⟩
      · exact .inl ⟨u, h⟩
      · cases h
      · exact .inr h
      all_goals cases h

end Call.Placed

/-! ### Trees -/

/-- The calls of the tree are placed and lazy. -/
inductive Query.Laid : Query → Prop
  | root {element : Ty} {values : List Value} : Laid (.root element values)
  | call {c : Call} (hc : c.Placed) (hl : c.operator.isLazy = true)
      (hq : ∀ q, .query q ∈ c.args → Laid q) : Laid (.call c)

/-- The call is one of those of the tree, in the source or in the second source of another. -/
inductive Call.OccursIn (c : Call) : Query → Prop
  | top : OccursIn c (.call c)
  | inside {d : Call} {q : Query} (ha : .query q ∈ d.args) (ho : OccursIn c q) :
      OccursIn c (.call d)

namespace Query.Laid

variable {q : Query} {c : Call}

theorem of_occursIn (ho : c.OccursIn q) (h : q.Laid) : Laid (.call c) := by
  induction ho with
  | top => exact h
  | inside ha _ ih =>
      cases h with
      | call _ _ hq => exact ih (hq _ ha)

/-- The tree lists elements, and it does so in an order only if it is a call that orders. -/
theorem type_eq (h : q.Laid) : ∃ t, q.type = .query t ∨
    (q.type = .orderedQuery t ∧ ∃ c, q = .call c ∧ c.operator.isOrdering = true) := by
  cases h with
  | root => exact ⟨_, .inl rfl⟩
  | @call c hc hl _ =>
      obtain ⟨t, ht⟩ := hc.type_of_lazy hl
      refine ⟨t, ?_⟩
      cases ho : c.operator.isOrdering with
      | true =>
          rw [ho] at ht
          exact .inr ⟨ht, c, rfl, ho⟩
      | false =>
          rw [ho] at ht
          exact .inl ht

end Query.Laid

/-- **What a call refines is a call that orders.** -/
theorem Call.Placed.refines {c : Call} (hc : c.Placed) (hr : c.operator.refinesOrdering = true)
    (hq : ∀ q, .query q ∈ c.args → q.Laid) :
    ∃ source rest, c.args = .query (.call source) :: rest ∧ source.operator.isOrdering = true := by
  obtain ⟨q, rest, ha⟩ := hc.source
  have hlaid : q.Laid := hq q (by rw [ha]; exact List.mem_cons_self ..)
  obtain ⟨t, ht⟩ := hlaid.type_eq
  rcases ht with ht | ⟨-, source, rfl, ho⟩
  · rcases hc.ordered_source hr ha with ⟨u, hu⟩ | hn
    · cases ht.symm.trans hu
    · cases ht.symm.trans hn
  · exact ⟨source, rest, ha, ho⟩

/-! ### Built calls -/

/-- The call is built over the source, and over the second source if there is one, from as many
constants and functions as its shape has. -/
inductive Call.BuiltOver (s : Source) (inner : Option Source) (c : Call) : Prop
  | build (operator : Operator) (shape : Shape) (functions : List Lambda) (constants : List Value)
      (hf : functions.length = shape.functions) (hk : constants.length = shape.constants)
      (h : s.build operator shape functions constants inner = .ok c)

namespace Source

variable {s : Source} {inner : Option Source} {operator : Operator} {shape : Shape}
  {arguments : List Argument}

theorem kinds_queries (h : s.queries shape inner = .ok arguments) :
    arguments.map Argument.kind = shape.queryKinds ∧
      ∀ q, .query q ∈ arguments → q = s.query ∨ ∃ t, inner = some t ∧ q = t.query := by
  unfold queries at h
  rw [Shape.queryKinds]
  cases hs : shape.hasInner with
  | false =>
      rw [hs] at h
      cases h
      exact ⟨rfl, fun q hq => by simp_all⟩
  | true =>
      rw [hs] at h
      cases inner with
      | none => cases h
      | some t =>
          cases h
          exact ⟨rfl, fun q hq => by simp_all⟩

theorem kinds_constantArguments {constants : List Value}
    (h : s.constantArguments operator shape constants = .ok arguments) :
    arguments.map Argument.kind = List.replicate constants.length .constant := by
  rw [constantArguments] at h
  induction constants generalizing arguments with
  | nil =>
      cases h
      rfl
  | cons v vs ih =>
      obtain ⟨a, ha, h⟩ := bind_eq_ok.mp h
      obtain ⟨rest, hrest, h⟩ := bind_eq_ok.mp h
      obtain ⟨t, -, ha⟩ := bind_eq_ok.mp ha
      cases ha
      cases h
      rw [List.map_cons, ih hrest]
      rfl

end Source

theorem kinds_functions (functions : List Lambda) :
    (functions.map Argument.function).map Argument.kind =
      List.replicate functions.length .function := by
  induction functions with
  | nil => rfl
  | cons l ls ih =>
      rw [List.map_cons, List.map_cons, ih]
      rfl

theorem query_not_mem_of_kinds {arguments : List Argument} {n : Nat} {kind : ArgumentKind}
    (h : arguments.map Argument.kind = List.replicate n kind) (hk : kind ≠ .query) (q : Query) :
    .query q ∉ arguments := by
  intro hq
  have hmem : ArgumentKind.query ∈ arguments.map Argument.kind := List.mem_map.mpr ⟨_, hq, rfl⟩
  rw [h] at hmem
  exact hk (List.eq_of_mem_replicate hmem).symm

namespace Call.BuiltOver

variable {s : Source} {inner : Option Source} {c : Call}

/-- **A call that is built is placed**, and its queries are those of the sources. -/
theorem placed (h : c.BuiltOver s inner) :
    c.Placed ∧ ∀ q, .query q ∈ c.args → q = s.query ∨ ∃ t, inner = some t ∧ q = t.query := by
  obtain ⟨operator, shape, functions, constants, hf, hk, h⟩ := h
  rw [Source.build] at h
  by_cases hacc : (!operator.accepts shape) = true
  · rw [if_pos hacc] at h
    cases h
  rw [if_neg hacc] at h
  obtain ⟨typeArgs, -, h⟩ := bind_eq_ok.mp h
  obtain ⟨queries, hqueries, h⟩ := bind_eq_ok.mp h
  obtain ⟨arguments, harguments, h⟩ := bind_eq_ok.mp h
  obtain ⟨⟨sig, t⟩, hfit, h⟩ := bind_eq_ok.mp h
  cases h
  obtain ⟨hkinds, hsources⟩ := Source.kinds_queries hqueries
  have hconstants := Source.kinds_constantArguments harguments
  have hfunctions := kinds_functions functions
  have hresolve := mapError_eq_ok.mp hfit
  obtain ⟨hmem, hcheck⟩ := Signature.firstFit_eq_ok hresolve
  refine ⟨⟨by simpa using hacc, ⟨sig, hmem, ?_, hcheck⟩, ?_⟩, ?_⟩
  · exact map_eq_ok.mpr ⟨(sig, t), hresolve, rfl⟩
  · rw [List.map_append, List.map_append, hkinds, hconstants, hfunctions, hf, hk]
    rfl
  · intro q hq
    rcases List.mem_append.mp hq with hq | hq
    · rcases List.mem_append.mp hq with hq | hq
      · exact hsources q hq
      · exact absurd hq (query_not_mem_of_kinds hconstants (by decide) q)
    · exact absurd hq (query_not_mem_of_kinds hfunctions (by decide) q)

/-! ### Calls of the methods -/

section Methods

variable {operator : Operator} {b : Bindings}

/-- The call of an operator with a single expression. -/
theorem expressionCall {text : Option String} (h : s.expressionCall operator text b = .ok c) :
    c.BuiltOver s none := by
  rw [Source.expressionCall] at h
  split at h
  · exact .build _ .none [] [] rfl rfl h
  split at h
  · cases h
  · rename_i shape hshape
    obtain ⟨l, -, h⟩ := bind_eq_ok.mp h
    obtain ⟨l', -, h⟩ := bind_eq_ok.mp h
    have hexpression : shape.isExpression = true := List.find?_some hshape
    obtain ⟨hf, hk⟩ := Shape.functions_of_isExpression hexpression
    exact .build _ _ [l'] [] hf.symm hk.symm h

/-- The call of an operator with a single constant. -/
theorem constantCall {v : Value} (h : s.constantCall operator v = .ok c) :
    c.BuiltOver s none := by
  rw [Source.constantCall] at h
  split at h
  · cases h
  · rename_i shape hshape
    split at h
    · cases h
    have hconstant : shape.isConstant = true := List.find?_some hshape
    obtain ⟨hf, hk⟩ := Shape.constants_of_isConstant hconstant
    exact .build _ _ [] [v] hf.symm hk.symm h

theorem groupByElementCall {key element : String} (h : s.groupByElementCall key element b = .ok c) :
    c.BuiltOver s none := by
  obtain ⟨l, -, h⟩ := bind_eq_ok.mp h
  obtain ⟨l', -, h⟩ := bind_eq_ok.mp h
  exact .build _ .keyElement [l, l'] [] rfl rfl h

theorem groupByResultCall {key result : String} (h : s.groupByResultCall key result b = .ok c) :
    c.BuiltOver s none := by
  obtain ⟨l, -, h⟩ := bind_eq_ok.mp h
  obtain ⟨l', -, h⟩ := bind_eq_ok.mp h
  exact .build _ .keyResult [l, l'] [] rfl rfl h

theorem groupByElementResultCall {key element result : String}
    (h : s.groupByElementResultCall key element result b = .ok c) : c.BuiltOver s none := by
  obtain ⟨l, -, h⟩ := bind_eq_ok.mp h
  obtain ⟨l', -, h⟩ := bind_eq_ok.mp h
  obtain ⟨l'', -, h⟩ := bind_eq_ok.mp h
  exact .build _ .keyElementResult [l, l', l''] [] rfl rfl h

theorem keyedJoinCall {i : Source} {outerKey innerKey result : String}
    (h : s.keyedJoinCall operator i outerKey innerKey result b = .ok c) :
    c.BuiltOver s (some i) := by
  obtain ⟨l, -, h⟩ := bind_eq_ok.mp h
  obtain ⟨l', -, h⟩ := bind_eq_ok.mp h
  obtain ⟨l'', -, h⟩ := bind_eq_ok.mp h
  exact .build _ .keyed [l, l', l''] [] rfl rfl h

theorem zipCall {i : Source} {result : String} (h : s.zipCall i result b = .ok c) :
    c.BuiltOver s (some i) := by
  obtain ⟨l, -, h⟩ := bind_eq_ok.mp h
  exact .build _ .zip [l] [] rfl rfl h

theorem aggregateCall {func : String} (h : s.aggregateCall func b = .ok c) :
    c.BuiltOver s none := by
  obtain ⟨l, -, h⟩ := bind_eq_ok.mp h
  exact .build _ .unseeded [l] [] rfl rfl h

theorem aggregateSeedCall {seed : Value} {func : String}
    (h : s.aggregateSeedCall seed func b = .ok c) : c.BuiltOver s none := by
  obtain ⟨t, -, h⟩ := bind_eq_ok.mp h
  obtain ⟨l, -, h⟩ := bind_eq_ok.mp h
  exact .build _ .seeded [l] [seed] rfl rfl h

theorem aggregateSeedResultCall {seed : Value} {func result : String}
    (h : s.aggregateSeedResultCall seed func result b = .ok c) : c.BuiltOver s none := by
  obtain ⟨t, -, h⟩ := bind_eq_ok.mp h
  obtain ⟨l, -, h⟩ := bind_eq_ok.mp h
  obtain ⟨_, -, h⟩ := bind_eq_ok.mp h
  obtain ⟨l', -, h⟩ := bind_eq_ok.mp h
  exact .build _ .seededResult [l, l'] [seed] rfl rfl h

end Methods

end Call.BuiltOver

/-! ### Sources -/

mutual

/-- The sources of values and of JSON texts, and those of the lazy calls over such sources. -/
inductive Source.Obtained : Source → Prop
  | ofValues {element : Ty} {values : List Value} {s : Source}
      (h : Source.ofValues element values = .ok s) : Source.Obtained s
  | ofJsonText {element : Ty} {text : String} {s : Source}
      (h : Source.ofJsonText element text = .ok s) : Source.Obtained s
  | derived {c : Call} {s : Source} (hc : Call.Assembled c) (h : Source.deriveCall c = .ok s) :
      Source.Obtained s

/-- The calls that the methods of such sources build, whatever the texts, bindings and constants. -/
inductive Call.Assembled : Call → Prop
  | expression {s : Source} {operator : Operator} {text : Option String} {b : Bindings} {c : Call}
      (hs : Source.Obtained s) (h : s.expressionCall operator text b = .ok c) : Call.Assembled c
  | constant {s : Source} {operator : Operator} {v : Value} {c : Call} (hs : Source.Obtained s)
      (h : s.constantCall operator v = .ok c) : Call.Assembled c
  | groupByElement {s : Source} {key element : String} {b : Bindings} {c : Call}
      (hs : Source.Obtained s) (h : s.groupByElementCall key element b = .ok c) : Call.Assembled c
  | groupByResult {s : Source} {key result : String} {b : Bindings} {c : Call}
      (hs : Source.Obtained s) (h : s.groupByResultCall key result b = .ok c) : Call.Assembled c
  | groupByElementResult {s : Source} {key element result : String} {b : Bindings} {c : Call}
      (hs : Source.Obtained s) (h : s.groupByElementResultCall key element result b = .ok c) :
      Call.Assembled c
  | keyedJoin {s inner : Source} {operator : Operator} {outerKey innerKey result : String}
      {b : Bindings} {c : Call} (hs : Source.Obtained s) (hi : Source.Obtained inner)
      (h : s.keyedJoinCall operator inner outerKey innerKey result b = .ok c) : Call.Assembled c
  | zip {s inner : Source} {result : String} {b : Bindings} {c : Call} (hs : Source.Obtained s)
      (hi : Source.Obtained inner) (h : s.zipCall inner result b = .ok c) : Call.Assembled c
  | aggregate {s : Source} {func : String} {b : Bindings} {c : Call} (hs : Source.Obtained s)
      (h : s.aggregateCall func b = .ok c) : Call.Assembled c
  | aggregateSeed {s : Source} {seed : Value} {func : String} {b : Bindings} {c : Call}
      (hs : Source.Obtained s) (h : s.aggregateSeedCall seed func b = .ok c) : Call.Assembled c
  | aggregateSeedResult {s : Source} {seed : Value} {func result : String} {b : Bindings} {c : Call}
      (hs : Source.Obtained s) (h : s.aggregateSeedResultCall seed func result b = .ok c) :
      Call.Assembled c

end

/-- A call is placed over trees that are laid out. -/
theorem Call.BuiltOver.laid {s : Source} {inner : Option Source} {c : Call}
    (h : c.BuiltOver s inner) (hs : s.query.Laid) (hi : ∀ t, inner = some t → t.query.Laid) :
    c.Placed ∧ ∀ q, .query q ∈ c.args → q.Laid := by
  obtain ⟨hc, hsources⟩ := h.placed
  refine ⟨hc, fun q hq => ?_⟩
  rcases hsources q hq with rfl | ⟨t, ht, rfl⟩
  · exact hs
  · exact hi t ht

namespace Source

/-- A source of a lazy call is the call as its tree. -/
theorem deriveCall_eq_ok {c : Call} {s : Source} (h : deriveCall c = .ok s) :
    c.operator.isLazy = true ∧ s.query = .call c := by
  obtain ⟨_, hlazy, h⟩ := bind_eq_ok.mp h
  rw [ofQuery] at h
  split at h
  · obtain ⟨-, rfl⟩ := declare_eq_ok h
    rw [Operator.expect] at hlazy
    split at hlazy
    · rename_i he
      exact ⟨by simp [Operator.isLazy, he], rfl⟩
    · cases hlazy
  · cases h

theorem laid_ofValues {element : Ty} {values : List Value} {s : Source}
    (h : ofValues element values = .ok s) : s.query.Laid := by
  obtain ⟨rfl, -⟩ := ofValues_eq_ok h
  exact .root

end Source

mutual

/-- **The tree of every source is laid out**, by induction on how the source was obtained. -/
theorem Source.Obtained.laid : ∀ {s : Source}, s.Obtained → s.query.Laid
  | _, .ofValues h => Source.laid_ofValues h
  | _, .ofJsonText h => by
    rw [Source.ofJsonText] at h
    split at h
    · exact Source.laid_ofValues h
    · cases h
  | _, .derived hc h => by
    obtain ⟨hl, hq⟩ := Source.deriveCall_eq_ok h
    obtain ⟨hp, hs⟩ := hc.laid
    rw [hq]
    exact .call hp hl hs

/-- Every call that is built over sources is placed, over trees that are laid out. -/
theorem Call.Assembled.laid : ∀ {c : Call}, c.Assembled →
    c.Placed ∧ ∀ q, .query q ∈ c.args → q.Laid
  | _, .expression hs h => (Call.BuiltOver.expressionCall h).laid hs.laid nofun
  | _, .constant hs h => (Call.BuiltOver.constantCall h).laid hs.laid nofun
  | _, .groupByElement hs h => (Call.BuiltOver.groupByElementCall h).laid hs.laid nofun
  | _, .groupByResult hs h => (Call.BuiltOver.groupByResultCall h).laid hs.laid nofun
  | _, .groupByElementResult hs h =>
    (Call.BuiltOver.groupByElementResultCall h).laid hs.laid nofun
  | _, .keyedJoin hs hi h => (Call.BuiltOver.keyedJoinCall h).laid hs.laid fun _ ht =>
    Option.some.inj ht ▸ hi.laid
  | _, .zip hs hi h => (Call.BuiltOver.zipCall h).laid hs.laid fun _ ht =>
    Option.some.inj ht ▸ hi.laid
  | _, .aggregate hs h => (Call.BuiltOver.aggregateCall h).laid hs.laid nofun
  | _, .aggregateSeed hs h => (Call.BuiltOver.aggregateSeedCall h).laid hs.laid nofun
  | _, .aggregateSeedResult hs h =>
    (Call.BuiltOver.aggregateSeedResultCall h).laid hs.laid nofun

end

end LambdaQuery
