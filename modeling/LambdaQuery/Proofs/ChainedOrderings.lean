/-
**A chain of orderings is sorted once.**  A call that starts an ordering and the calls over it that
refine it are run together: every item gets one row of keys, and the rows are sorted by the first
place in which they differ.  That is the same as sorting the items stably by the last key, then by
the one before it, and so on, as if each call of the chain had been run by itself from the last to
the first.

Main definitions:
* `SortKey` — the selector of a key and its direction, with `SortKey.order` on items;
* `Call.Orders` — a call orders the items of a tree by keys, the first one first.

Main results:
* `Call.Orders.chain`, `Call.Orders.run` — the links of a chain, and what it computes;
* `Collection.compareKeys_eq` — rows of keys are compared by the orders of the keys;
* `Query.run_orders` — **a chain sorts the items stably by each of its keys, the first one last**.
-/

import LambdaQuery.Proofs.Grouping
import LambdaQuery.Proofs.KeySorting

namespace LambdaQuery

open Collection (StablySorts TransOn lexicographic sortEach)

/-! ### Keys -/

/-- A key of an ordering: what selects it, and whether it orders from the greatest to the least. -/
structure SortKey where
  selector : Lambda
  descending : Bool

namespace SortKey

/-- The operator that starts an ordering by the key. -/
def starter (k : SortKey) : Operator := if k.descending then .orderByDescending else .orderBy

/-- The operator that refines an ordering by the key. -/
def refiner (k : SortKey) : Operator := if k.descending then .thenByDescending else .thenBy

/-- The order of items by the values that selectors give for them. -/
def order (value : Lambda → Value → Value) (k : SortKey) (a b : Value) : Ordering :=
  Collection.compareKey k.descending (value k.selector a) (value k.selector b)

variable {value : Lambda → Value → Value} {k : SortKey}

theorem starter_isOrdering : k.starter.isOrdering = true := by
  rw [starter]
  split <;> rfl

theorem starter_refinesOrdering : k.starter.refinesOrdering = false := by
  rw [starter]
  split <;> rfl

theorem starter_isDescending : k.starter.isDescending = k.descending := by
  cases h : k.descending <;> simp [starter, h, Operator.isDescending]

theorem refiner_isOrdering : k.refiner.isOrdering = true := by
  rw [refiner]
  split <;> rfl

theorem refiner_refinesOrdering : k.refiner.refinesOrdering = true := by
  rw [refiner]
  split <;> rfl

theorem refiner_isDescending : k.refiner.isDescending = k.descending := by
  cases h : k.descending <;> simp [refiner, h, Operator.isDescending]

/-- Items have one place in the order when their keys have. -/
theorem order_eq_iff {a b : Value} :
    k.order value a b = .eq ↔ (value k.selector a).compare (value k.selector b) = .eq := by
  rw [order, Collection.compareKey]
  split
  · exact Ordering.swap_eq_eq
  · rfl

theorem oriented_order : Std.OrientedCmp (k.order value) where
  eq_swap := (Collection.oriented_compareKey k.descending).eq_swap

/-- The order is transitive on items where that of their keys is, in either direction. -/
theorem transOn_order {items : List Value}
    (h : TransOn Value.compare (items.map (value k.selector))) :
    TransOn (k.order value) items := by
  have hvalue : ∀ v ∈ items, value k.selector v ∈ items.map (value k.selector) :=
    fun v hv => List.mem_map_of_mem hv
  intro a ha b hb c hc
  exact Collection.transOn_compareKey h k.descending _ (hvalue a ha) _ (hvalue b hb) _
    (hvalue c hc)

end SortKey

/-! ### Rows of keys -/

namespace Collection

variable {value : Lambda → Value → Value} {keys : List SortKey} {items : List Value}

/-- Rows of keys are compared by the orders of the keys, the first one first. -/
theorem compareKeys_eq (keys : List SortKey) (a b : Value) :
    compareKeys (keys.map (·.descending)) (keys.map fun k => value k.selector a)
        (keys.map fun k => value k.selector b) =
      lexicographic (keys.map (SortKey.order value)) a b := by
  induction keys with
  | nil => rfl
  | cons k keys ih =>
      rw [List.map_cons, List.map_cons, List.map_cons, List.map_cons, compareKeys, ih]
      rfl

theorem lexicographic_eq_iff {a b : Value} :
    lexicographic (keys.map (SortKey.order value)) a b = .eq ↔
      ∀ k ∈ keys, (value k.selector a).compare (value k.selector b) = .eq := by
  induction keys with
  | nil => simp [lexicographic]
  | cons k keys ih =>
      rw [List.forall_mem_cons, ← ih, ← SortKey.order_eq_iff]
      exact Ordering.then_eq_eq

end Collection

/-! ### Chains -/

/-- The call orders the items of a tree by keys: a call starts with the first of them, and each call
over it refines the ordering by a further one. -/
inductive Call.Orders (q : Query) : List SortKey → Call → Prop
  | start (k : SortKey) (typeArgs : List Ty) (type : Ty) :
      Call.Orders q [k] ⟨k.starter, .selector, typeArgs, [.query q, .function k.selector], type⟩
  | refine {keys : List SortKey} {c : Call} (h : Call.Orders q keys c) (k : SortKey)
      (typeArgs : List Ty) (type : Ty) :
      Call.Orders q (keys ++ [k])
        ⟨k.refiner, .selector, typeArgs, [.query (.call c), .function k.selector], type⟩

namespace Call.Orders

variable {q : Query} {keys : List SortKey} {c : Call}

/-- Ordering a source builds such a call over its tree. -/
theorem of_build {s : Source} {k : SortKey}
    (h : s.build k.starter .selector [k.selector] [] none = .ok c) : c.Orders s.query [k] := by
  obtain ⟨queries, hqueries, hc⟩ := Source.build_arguments h
  cases hqueries
  rw [hc]
  exact .start k c.typeArgs c.type

/-- Refining the ordering of a source builds one with a further key. -/
theorem of_build_refine {s : Source} {source : Call} {k : SortKey} (hs : s.query = .call source)
    (hsource : source.Orders q keys)
    (h : s.build k.refiner .selector [k.selector] [] none = .ok c) : c.Orders q (keys ++ [k]) := by
  obtain ⟨queries, hqueries, hc⟩ := Source.build_arguments h
  cases hqueries
  rw [hc, hs]
  exact .refine hsource k c.typeArgs c.type

theorem isOrdering (h : c.Orders q keys) : c.operator.isOrdering = true := by
  cases h with
  | start k => exact k.starter_isOrdering
  | refine h k => exact k.refiner_isOrdering

/-- The call is the link of a key. -/
def LinkOf (link : Call) (k : SortKey) : Prop :=
  link.function 1 = .ok k.selector ∧ link.operator.isDescending = k.descending

/-- The links of a chain are those of its keys, over the items of its tree. -/
theorem chain (h : c.Orders q keys) :
    ∃ links, c.chain = .ok (links, q.run >>= Value.asItems) ∧ List.Forall₂ LinkOf links keys := by
  induction h with
  | start k typeArgs type =>
      refine ⟨[⟨k.starter, .selector, typeArgs, [.query q, .function k.selector], type⟩], ?_,
        .cons ⟨rfl, k.starter_isDescending⟩ .nil⟩
      rw [Call.chain.eq_def]
      simp only [k.starter_refinesOrdering, Bool.false_eq_true, if_false]
      rw [Argument.itemsAt]
      rfl
  | @refine keys c h k typeArgs type ih =>
      obtain ⟨links, hchain, hlinks⟩ := ih
      refine ⟨links ++
          [⟨k.refiner, .selector, typeArgs, [.query (.call c), .function k.selector], type⟩],
        ?_, List.rel_append hlinks (.cons ⟨rfl, k.refiner_isDescending⟩ .nil)⟩
      rw [Call.chain, if_pos k.refiner_refinesOrdering, if_pos h.isOrdering, hchain]
      rfl

/-- The row of keys of an item. -/
theorem keysOf_links {links : List Call} (h : List.Forall₂ LinkOf links keys) (v : Value) :
    keysOf links v = Each.map (fun k : SortKey => k.selector.on [v]) keys := by
  rw [keysOf]
  induction h with
  | nil => rfl
  | cons hlink _ ih => rw [Each.map, Each.map, hlink.1, ih]; rfl

theorem descending_links {links : List Call} (h : List.Forall₂ LinkOf links keys) :
    links.map (fun link => link.operator.isDescending) = keys.map (·.descending) := by
  induction h with
  | nil => rfl
  | cons hlink _ ih => rw [List.map_cons, List.map_cons, hlink.2, ih]

/-- A chain over items for which no key fails sorts them by their rows of keys. -/
theorem run {items : List Value} {value : Lambda → Value → Value} (h : c.Orders q keys)
    (hq : q.run = .ok (.sequence items))
    (hkeys : ∀ k ∈ keys, ∀ v ∈ items, k.selector.on [v] = .ok (value k.selector v))
    (htrans : TransOn (lexicographic (keys.map (SortKey.order value))) items) :
    ∃ sorted, Query.run (.call c) = .ok (.sequence sorted) ∧
      StablySorts (lexicographic (keys.map (SortKey.order value))) items sorted := by
  obtain ⟨links, hchain, hlinks⟩ := h.chain
  have hrows : keyRows links items =
      .ok (items.map fun v => (keys.map fun k => value k.selector v, v)) := by
    refine Each.map_eq_ok fun v hv => ?_
    rw [keysOf_links hlinks, Each.map_eq_ok fun k hk => hkeys k hk v hv]
    rfl
  obtain ⟨sorted, hsorted, hsorts⟩ :=
    Collection.exists_sortByKeys _ (Collection.compareKeys_eq keys) htrans
  have hsort : sortItems links items = .ok sorted :=
    sortItems_of_some hrows (by rw [descending_links hlinks, hsorted])
  refine ⟨sorted, ?_, hsorts⟩
  rw [Query.run, if_pos h.isOrdering, hchain, hq]
  show sortItems links items >>= (fun vs => pure (Value.sequence vs)) = _
  rw [hsort]
  rfl

end Call.Orders

/-! ### Orderings -/

/-- The order is transitive on keys without integers that are no doubles. -/
theorem Value.transOn_of_exact {vs : List Value}
    (h : ∀ v ∈ vs, ∀ u ∈ v.numbers, ∀ n, u.toInt64? = some n → n.toInt.natAbs ≤ 2 ^ 53) :
    TransOn compare vs := by
  intro a ha b hb c hc
  simp only [Ordering.isLE_iff_ne_gt]
  refine compare_trans_of_exact ?_
  intro u hu
  rcases List.mem_append.mp hu with hu | hu
  · rcases List.mem_append.mp hu with hu | hu
    · exact h a ha u hu
    · exact h b hb u hu
  · exact h c hc u hu

/-- **A chain of orderings is stable sorting by each of its keys, the first one last.**  Its items
are sorted by their rows of keys, and those whose keys are all equal keep the order of the
source. -/
theorem Query.run_orders {q : Query} {keys : List SortKey} {c : Call} {items : List Value}
    {value : Lambda → Value → Value} (h : c.Orders q keys) (hq : q.run = .ok (.sequence items))
    (hkeys : ∀ k ∈ keys, ∀ v ∈ items, k.selector.on [v] = .ok (value k.selector v))
    (htrans : ∀ k ∈ keys, TransOn Value.compare (items.map (value k.selector))) :
    ∃ sorted, run (.call c) = .ok (.sequence sorted) ∧
      sorted = sortEach (keys.map (SortKey.order value)) items ∧
      sorted.Perm items ∧
      (sorted.Pairwise fun a b =>
        (lexicographic (keys.map (SortKey.order value)) a b).isLE = true) ∧
      ∀ a ∈ items,
        (sorted.filter fun b => keys.all fun k =>
          (value k.selector a).compare (value k.selector b) == .eq) =
        items.filter fun b => keys.all fun k =>
          (value k.selector a).compare (value k.selector b) == .eq := by
  have horiented : ∀ order ∈ keys.map (SortKey.order value), Std.OrientedCmp order := by
    intro order horder
    obtain ⟨k, -, rfl⟩ := List.mem_map.mp horder
    exact SortKey.oriented_order
  have htransOn : ∀ order ∈ keys.map (SortKey.order value), TransOn order items := by
    intro order horder
    obtain ⟨k, hk, rfl⟩ := List.mem_map.mp horder
    exact SortKey.transOn_order (htrans k hk)
  have := Collection.oriented_lexicographic horiented
  obtain ⟨sorted, hrun, hsorts⟩ :=
    h.run hq hkeys (Collection.transOn_lexicographic horiented htransOn)
  refine ⟨sorted, hrun, hsorts.unique (Collection.stablySorts_sortEach horiented htransOn),
    hsorts.perm, hsorts.sorted, ?_⟩
  intro a ha
  have hties : ∀ vs, (vs.filter fun b => keys.all fun k =>
      (value k.selector a).compare (value k.selector b) == .eq) =
        Collection.ties (lexicographic (keys.map (SortKey.order value))) a vs := by
    intro vs
    refine List.filter_congr ?_
    intro b _
    rw [Bool.eq_iff_iff, List.all_eq_true, beq_iff_eq, Collection.lexicographic_eq_iff]
    simp only [beq_iff_eq]
  rw [hties, hties]
  exact hsorts.stable a ha

/-- Words by their length, the longest first, and then by themselves. -/
theorem Query.run_orders_words :
    let words := [Value.string "b", .string "ab", .string "a", .string "aa"]
    ∃ s s' c c', Source.ofValues .string words = .ok s ∧
      s.expressionCall .orderByDescending (some "Length") .empty = .ok c ∧
      Source.deriveCall c = .ok s' ∧ s'.expressionCall .thenBy (some "x => x") .empty = .ok c' ∧
      run (.call c') = .ok (.sequence [.string "aa", .string "ab", .string "a", .string "b"]) ∧
      ∃ keys value, c'.Orders s.query keys ∧ sortEach (keys.map (SortKey.order value)) words =
        [.string "aa", .string "ab", .string "a", .string "b"] := by
  intro words
  let length : Lambda := .ofBody 0 [("it", .string)] (.text .length (.parameter 0 .string) [] .int)
  let keys : List SortKey := [⟨length, true⟩, ⟨.identity .string, false⟩]
  let value (l : Lambda) (v : Value) : Value := (l.on [v]).toOption.getD .null
  let s : Source := ⟨.string, .root .string words⟩
  have hlength : Operator.orderByDescending.functionOf "keySelector" (some s) [.string]
      (some "Length") .empty = .ok length := by
    have htrim : Text.trim "Length" = "Length" := by cbv
    have hblank : Text.isBlankText "Length" = false := by cbv
    have hcompile : Lambda.compile "Length" [.string] .empty = .ok length := by cbv
    rw [Source.functionOf_of_text hblank, htrim, hcompile]
    rfl
  have hcall : s.expressionCall .orderByDescending (some "Length") .empty =
      .ok ⟨.orderByDescending, .selector, [.string, .int], [.query s.query, .function length],
        .orderedQuery .string⟩ := bind_eq_ok.mpr ⟨length, hlength, rfl⟩
  let s' : Source := ⟨.string, .call ⟨.orderByDescending, .selector, [.string, .int],
    [.query s.query, .function length], .orderedQuery .string⟩⟩
  have hcall' : s'.expressionCall .thenBy (some "x => x") .empty =
      .ok ⟨.thenBy, .selector, [.string, .string],
        [.query s'.query, .function (.identity .string)], .orderedQuery .string⟩ :=
    bind_eq_ok.mpr ⟨_, compiles_identity.functionOf, rfl⟩
  have hstart : s.build .orderByDescending .selector [length] [] none =
      .ok ⟨.orderByDescending, .selector, [.string, .int], [.query s.query, .function length],
        .orderedQuery .string⟩ := rfl
  have hrefine : s'.build .thenBy .selector [.identity .string] [] none =
      .ok ⟨.thenBy, .selector, [.string, .string],
        [.query s'.query, .function (.identity .string)], .orderedQuery .string⟩ := rfl
  have horders : Call.Orders s.query keys ⟨.thenBy, .selector, [.string, .string],
      [.query s'.query, .function (.identity .string)], .orderedQuery .string⟩ :=
    Call.Orders.of_build_refine (k := ⟨.identity .string, false⟩) rfl
      (Call.Orders.of_build (k := ⟨length, true⟩) hstart) hrefine
  have hkeys : ∀ k ∈ keys, ∀ v ∈ words, k.selector.on [v] = .ok (value k.selector v) := by
    simp only [keys, words, List.forall_mem_cons, List.not_mem_nil, false_imp_iff, implies_true,
      and_true]
    exact ⟨⟨rfl, rfl, rfl, rfl⟩, rfl, rfl, rfl, rfl⟩
  have htrans : ∀ k ∈ keys, TransOn Value.compare (words.map (value k.selector)) := by
    have hlengths : words.map (value length) = [.int 1, .int 2, .int 1, .int 2] := rfl
    have hwords : words.map (value (.identity .string)) = words := rfl
    simp only [keys, List.forall_mem_cons, List.not_mem_nil, false_imp_iff, implies_true, and_true]
    constructor
    · rw [hlengths]
      refine Value.transOn_of_exact ?_
      simp [Value.numbers, Value.toInt64?]
    · rw [hwords]
      refine Value.transOn_of_exact ?_
      simp [words, Value.numbers]
  obtain ⟨sorted, hrun, heach, -⟩ := run_orders horders rfl hkeys htrans
  have hsorted : run (.call ⟨.thenBy, .selector, [.string, .string],
      [.query s'.query, .function (.identity .string)], .orderedQuery .string⟩) =
        .ok (.sequence [.string "aa", .string "ab", .string "a", .string "b"]) := by rfl
  obtain rfl := Value.sequence.inj (Except.ok.inj (hrun.symm.trans hsorted))
  exact ⟨s, s', _, _, rfl, hcall, rfl, hcall', hrun, keys, value, horders, heach.symm⟩

end LambdaQuery
