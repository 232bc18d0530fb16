/-
**A join is the nested loop.**  The operator puts the inner items into a table under their keys and
looks up the key of each outer item there.  The table has under a key just the inner items whose own
key equals it, in their order, so that the lookups find the pairs that two loops over the sources
find, one within the other.

Main definitions:
* `Value.meets` — a key of an outer item matches that of an inner one: it equals it and is not null;
* `Join` — the functions of a join, and `Join.call` the call with them;
* `Join.partners`, `Join.pairs` — the inner items that an outer one matches, and the pairs that the
  nested loop finds.

Main results:
* `Collection.matching_groupPairs`, `Collection.matching_lookup` — what a lookup finds in a table;
* `Each.map_flatten` — computations over lists within a list are computations over pairs;
* `Join.joinItems_join`, `Join.joinItems_groupJoin` — the items of the two operators;
* `Query.join_nested_loop` — **both operators are nested loops over equal keys**.
-/

import LambdaQuery.Proofs.Grouping

namespace LambdaQuery

/-! ### Lookups -/

namespace Collection

variable {pairs : List (Value × Value)} {j key : Value}

theorem elementsUnder_congr (h : j.same key = true) :
    elementsUnder pairs j = elementsUnder pairs key := by
  have hsame : ∀ v : Value, v.same j = v.same key := by
    intro v
    rw [Value.same_comm v j, Value.same_comm v key]
    exact Value.same_congr h v
  simp only [elementsUnder, hsame]

/-- What is looked up in a table is what has been put there under an equal key. -/
theorem matching_groupPairs (pairs : List (Value × Value)) (key : Value) :
    matching (groupPairs pairs) key = elementsUnder pairs key := by
  rw [matching, groupPairs_eq, List.find?_map]
  cases hfind : (distinct (pairs.map (·.1))).find?
      ((fun group : Value × List Value => group.1.same key) ∘
        fun k => (k, elementsUnder pairs k)) with
  | some k =>
      have hsame := List.find?_some hfind
      exact elementsUnder_congr hsame
  | none =>
      -- no key of the pairs equals this one, so that nothing has been put there
      refine (elementsUnder_of_not_contains ?_).symm
      rw [← contains_distinct, ← Bool.not_eq_true, contains_eq_true]
      rintro ⟨k, hk, hsame⟩
      exact List.find?_eq_none.mp hfind k hk hsame

/-- For a key that is not null the pairs that are left out make no difference. -/
theorem matching_lookup (h : key.isNull = false) :
    matching (lookup pairs) key = elementsUnder pairs key := by
  rw [lookup, matching_groupPairs, elementsUnder, elementsUnder, List.filter_filter]
  congr 1
  refine List.filter_congr ?_
  intro pair _
  cases hsame : pair.1.same key with
  | false => rfl
  | true => rw [Value.isNull_of_same hsame, h]; rfl

end Collection

/-! ### Lists within a list -/

/-- Computations over lists within a list, taken together, are those over the pairs. -/
theorem Each.map_flatten {ε α β γ : Type} (g : α → β → Except ε γ) (inner : α → List β)
    (xs : List α) :
    (Each.map (fun x => Each.map (g x) (inner x)) xs >>= fun rs => pure rs.flatten) =
      Each.map (fun p => g p.1 p.2) (xs.flatMap fun x => (inner x).map fun y => (x, y)) := by
  induction xs with
  | nil => rfl
  | cons x xs ih =>
      rw [List.flatMap_cons, Each.map_append, ← ih, Each.map_map, Each.map]
      simp only [bind_assoc, pure_bind, List.flatten_cons]

/-! ### The functions of a join -/

/-- Does the key of an outer item match that of an inner one?  Null matches nothing. -/
def Value.meets (outerKey innerKey : Value) : Bool := !outerKey.isNull && outerKey.same innerKey

/-- The functions of a join: the keys of both sides, and the result. -/
structure Join where
  outerKey : Lambda
  innerKey : Lambda
  result : Lambda

namespace Join

/-- The call of an operator with these functions over two trees. -/
def call (j : Join) (operator : Operator) (outer inner : Query) (typeArgs : List Ty) (type : Ty) :
    Call :=
  ⟨operator, .keyed, typeArgs,
    [.query outer, .query inner, .function j.outerKey, .function j.innerKey, .function j.result],
    type⟩

/-- The inner items whose keys a key matches. -/
def partners (innerKey : Value → Value) (inner : List Value) (key : Value) : List Value :=
  inner.filter fun u => key.meets (innerKey u)

/-- What is looked up for a key among the inner items is what it matches. -/
theorem found_eq_partners (innerKey : Value → Value) (inner : List Value) (key : Value) :
    (if key.isNull then []
      else Collection.matching (Collection.lookup (inner.map fun u => (innerKey u, u))) key) =
      partners innerKey inner key := by
  cases hnull : key.isNull with
  | true =>
      rw [if_pos rfl, partners, eq_comm, List.filter_eq_nil_iff]
      intro u _
      simp [Value.meets, hnull]
  | false =>
      rw [if_neg Bool.false_ne_true, Collection.matching_lookup hnull, Collection.elementsUnder,
        List.filter_map, List.map_map, partners]
      show (inner.filter _).map id = _
      rw [List.map_id]
      refine List.filter_congr ?_
      intro u _
      show (innerKey u).same key = _
      rw [Value.meets, hnull, Value.same_comm]
      rfl

/-- The pairs that two loops find, the inner one within the outer. -/
def pairs (outerKey innerKey : Value → Value) (outer inner : List Value) : List (Value × Value) :=
  (outer.product inner).filter fun p => (outerKey p.1).meets (innerKey p.2)

/-- They are those of the outer items with what they match, one outer item after the other. -/
theorem pairs_eq (outerKey innerKey : Value → Value) (outer inner : List Value) :
    pairs outerKey innerKey outer inner =
      outer.flatMap fun t => (partners innerKey inner (outerKey t)).map fun u => (t, u) := by
  rw [pairs, List.product, List.filter_flatMap]
  congr 1
  funext t
  rw [List.filter_map]
  rfl

/-! ### The items of a join -/

/-- What an operator makes of an outer item and the inner ones that it matches. -/
def results (j : Join) (operator : Operator) (t : Value) (us : List Value) :
    QueryResult (List Value) :=
  match operator with
  | .groupJoin => do return [← j.result.on [t, .sequence us]]
  | _ => Each.map (fun u => j.result.on [t, u]) us

section Items

variable {j : Join} {operator : Operator} {outerQuery innerQuery : Query} {typeArgs : List Ty}
  {type : Ty} {outer inner : List Value} {outerKey innerKey : Value → Value}

/-- Where no key fails, the operator goes through the outer items with what they match. -/
theorem joinItems_call (houter : ∀ t ∈ outer, j.outerKey.on [t] = .ok (outerKey t))
    (hinner : ∀ u ∈ inner, j.innerKey.on [u] = .ok (innerKey u)) :
    Call.joinItems (j.call operator outerQuery innerQuery typeArgs type) outer inner =
      Each.map (fun t => j.results operator t (partners innerKey inner (outerKey t))) outer >>=
        fun rs => pure rs.flatten := by
  have hkeyed : Each.map (fun u => do return (← j.innerKey.on [u], u)) inner =
      .ok (inner.map fun u => (innerKey u, u)) := by
    refine Each.map_eq_ok fun u hu => ?_
    rw [hinner u hu]
    rfl
  calc Call.joinItems (j.call operator outerQuery innerQuery typeArgs type) outer inner
      = Each.map (fun u => do return (← j.innerKey.on [u], u)) inner >>= fun keyed =>
          Each.map (fun t => j.outerKey.on [t] >>= fun key =>
            j.results operator t
              (if key.isNull then []
                else Collection.matching (Collection.lookup keyed) key)) outer >>=
            fun rs => pure rs.flatten := rfl
    _ = Each.map (fun t => j.outerKey.on [t] >>= fun key =>
            j.results operator t (partners innerKey inner key)) outer >>=
          fun rs => pure rs.flatten := by
        rw [hkeyed]
        simp only [← found_eq_partners]
        rfl
    _ = _ := by
        congr 1
        refine Each.map_congr fun t ht => ?_
        rw [houter t ht]
        rfl

/-- A join computes a result for each pair that the nested loop finds. -/
theorem joinItems_join (houter : ∀ t ∈ outer, j.outerKey.on [t] = .ok (outerKey t))
    (hinner : ∀ u ∈ inner, j.innerKey.on [u] = .ok (innerKey u)) :
    Call.joinItems (j.call .join outerQuery innerQuery typeArgs type) outer inner =
      Each.map (fun p => j.result.on [p.1, p.2]) (pairs outerKey innerKey outer inner) := by
  rw [joinItems_call houter hinner, pairs_eq]
  exact Each.map_flatten (fun t u => j.result.on [t, u]) _ outer

/-- A group join computes one for each outer item. -/
theorem joinItems_groupJoin (houter : ∀ t ∈ outer, j.outerKey.on [t] = .ok (outerKey t))
    (hinner : ∀ u ∈ inner, j.innerKey.on [u] = .ok (innerKey u)) :
    Call.joinItems (j.call .groupJoin outerQuery innerQuery typeArgs type) outer inner =
      Each.map (fun t => j.result.on [t, .sequence (partners innerKey inner (outerKey t))])
        outer := by
  rw [joinItems_call houter hinner]
  -- it is a join with one partner for each outer item: the list of all that it matches
  have hone := Each.map_flatten (fun t us => j.result.on [t, .sequence us])
    (fun t => [partners innerKey inner (outerKey t)]) outer
  have hpairs : (outer.flatMap fun t =>
        [partners innerKey inner (outerKey t)].map fun us => (t, us)) =
      outer.map fun t => (t, partners innerKey inner (outerKey t)) := List.map_eq_flatMap.symm
  rw [hpairs, Each.map_map] at hone
  exact hone

end Items

/-- The items of a call of either operator over two trees that give items. -/
theorem run_call {j : Join} {operator : Operator} {outerQuery innerQuery : Query}
    {typeArgs : List Ty} {type : Ty} {outer inner : List Value}
    (hop : operator = .join ∨ operator = .groupJoin)
    (houter : outerQuery.run = .ok (.sequence outer))
    (hinner : innerQuery.run = .ok (.sequence inner)) :
    Query.run (.call (j.call operator outerQuery innerQuery typeArgs type)) =
      Call.joinItems (j.call operator outerQuery innerQuery typeArgs type) outer inner >>=
        fun vs => pure (.sequence vs) := by
  have hfirst : ∀ rest, Argument.itemsAt operator 0 (.query outerQuery :: rest) 0 = .ok outer := by
    intro rest
    rw [Argument.itemsAt, houter]
    rfl
  have hsecond : ∀ first rest,
      Argument.itemsAt operator 1 (first :: .query innerQuery :: rest) 1 = .ok inner := by
    intro first rest
    rw [Argument.itemsAt, Argument.itemsAt, hinner]
    rfl
  rcases hop with rfl | rfl
  · rw [Query.run_of_not_isOrdering rfl, call, Call.runOperator, hfirst, hsecond]
    rfl
  · rw [Query.run_of_not_isOrdering rfl, call, Call.runOperator, hfirst, hsecond]
    rfl

/-- A join of two sources builds such a call over their trees. -/
theorem of_build {j : Join} {s i : Source} {operator : Operator} {c : Call}
    (h : s.build operator .keyed [j.outerKey, j.innerKey, j.result] [] (some i) = .ok c) :
    c = j.call operator s.query i.query c.typeArgs c.type := by
  obtain ⟨queries, hqueries, hc⟩ := Source.build_arguments h
  cases hqueries
  exact hc

end Join

/-! ### Joins -/

/-- **A join is the nested loop.**  Over two trees that give items, with keys that can be computed
for all of them, a join gives the results of the pairs whose keys match, in the order of the outer
items and for each in that of the inner ones; a group join gives one result for each outer item with
the list of the inner ones that it matches.  The pairs of the one are those of the other,
flattened. -/
theorem Query.join_nested_loop (j : Join) (outerQuery innerQuery : Query) (outer inner : List Value)
    (outerKey innerKey : Value → Value) (typeArgs : List Ty) (type : Ty)
    (houter : outerQuery.run = .ok (.sequence outer))
    (hinner : innerQuery.run = .ok (.sequence inner))
    (houterKey : ∀ t ∈ outer, j.outerKey.on [t] = .ok (outerKey t))
    (hinnerKey : ∀ u ∈ inner, j.innerKey.on [u] = .ok (innerKey u)) :
    (∀ r : Value → Value → Value,
      (∀ p ∈ Join.pairs outerKey innerKey outer inner, j.result.on [p.1, p.2] = .ok (r p.1 p.2)) →
      run (.call (j.call .join outerQuery innerQuery typeArgs type)) =
        .ok (.sequence ((Join.pairs outerKey innerKey outer inner).map fun p => r p.1 p.2))) ∧
    (∀ r : Value → List Value → Value,
      (∀ t ∈ outer, j.result.on [t, .sequence (Join.partners innerKey inner (outerKey t))] =
        .ok (r t (Join.partners innerKey inner (outerKey t)))) →
      run (.call (j.call .groupJoin outerQuery innerQuery typeArgs type)) =
        .ok (.sequence (outer.map fun t => r t (Join.partners innerKey inner (outerKey t))))) ∧
    Join.pairs outerKey innerKey outer inner =
      outer.flatMap fun t => (Join.partners innerKey inner (outerKey t)).map fun u => (t, u) := by
  refine ⟨?_, ?_, ?_⟩
  · intro r hr
    rw [Join.run_call (.inl rfl) houter hinner, Join.joinItems_join houterKey hinnerKey,
      Each.map_eq_ok (f := fun p => r p.1 p.2) hr]
    rfl
  · intro r hr
    rw [Join.run_call (.inr rfl) houter hinner, Join.joinItems_groupJoin houterKey hinnerKey,
      Each.map_eq_ok (f := fun t => r t (Join.partners innerKey inner (outerKey t))) hr]
    rfl
  · exact Join.pairs_eq outerKey innerKey outer inner

/-- Doubles by themselves: the two zeros match each other, and null matches nothing. -/
theorem Query.join_nested_loop_zeros :
    let zero := Value.double ⟨0⟩
    let minusZero := Value.double ⟨0x8000000000000000⟩
    let one := Value.double (Double.ofInt 1)
    ∃ s i c c', Source.ofValues (.nullable .double) [zero, .null, one, minusZero] = .ok s ∧
      Source.ofValues (.nullable .double) [minusZero, .null, one, zero] = .ok i ∧
      s.keyedJoinCall .join i "x => x" "x => x" "(x, y) => y" .empty = .ok c ∧
      s.keyedJoinCall .groupJoin i "x => x" "x => x" "(x, y) => y" .empty = .ok c' ∧
      run (.call c) = .ok (.sequence [minusZero, zero, one, minusZero, zero]) ∧
      run (.call c') = .ok (.sequence [.sequence [minusZero, zero], .sequence [], .sequence [one],
        .sequence [minusZero, zero]]) := by
  intro zero minusZero one
  let t : Ty := .nullable .double
  let s : Source := ⟨t, .root t [zero, .null, one, minusZero]⟩
  let i : Source := ⟨t, .root t [minusZero, .null, one, zero]⟩
  let j : Join := ⟨.identity t, .identity t, .latter t t⟩
  let j' : Join := ⟨.identity t, .identity t, .latter t (.sequence t)⟩
  have hcall : s.keyedJoinCall .join i "x => x" "x => x" "(x, y) => y" .empty =
      .ok (j.call .join s.query i.query [t, t, t, t] (.query t)) :=
    bind_eq_ok.mpr ⟨_, compiles_identity.functionOf, bind_eq_ok.mpr
      ⟨_, compiles_identity.functionOf, bind_eq_ok.mpr ⟨_, compiles_latter.functionOf, rfl⟩⟩⟩
  have hcall' : s.keyedJoinCall .groupJoin i "x => x" "x => x" "(x, y) => y" .empty =
      .ok (j'.call .groupJoin s.query i.query [t, t, t, .sequence t] (.query (.sequence t))) :=
    bind_eq_ok.mpr ⟨_, compiles_identity.functionOf, bind_eq_ok.mpr
      ⟨_, compiles_identity.functionOf, bind_eq_ok.mpr ⟨_, compiles_latter.functionOf, rfl⟩⟩⟩
  have hjoin := join_nested_loop j s.query i.query _ _ id id [t, t, t, t] (.query t) rfl rfl
    (fun _ _ => rfl) (fun _ _ => rfl)
  have hgroup := join_nested_loop j' s.query i.query _ _ id id [t, t, t, .sequence t]
    (.query (.sequence t)) rfl rfl (fun _ _ => rfl) (fun _ _ => rfl)
  refine ⟨s, i, _, _, rfl, rfl, hcall, hcall', ?_, ?_⟩
  · exact (hjoin.1 (fun _ u => u) fun _ _ => rfl).trans rfl
  · exact (hgroup.2.1 (fun _ us => .sequence us) fun _ _ => rfl).trans rfl

end LambdaQuery
