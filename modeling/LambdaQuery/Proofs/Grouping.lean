/-
**A table of groups is a partition.**  `Collection.groupPairs` adds one pair after the other to a
table: to the group of an equal key, or as a group of its own at the end.  What the table holds
after any number of pairs follows from what one pair adds, because the equality of keys is an
equivalence: the keys are those of the pairs, each once and where it first occurs, and the group of
a key has the elements of all the pairs with an equal key.

Main definitions:
* `Collection.elementsUnder` — the elements that come with an equal key;
* `Collection.Partition` — what it means that groups divide pairs by their keys;
* `Grouping` — the functions of a grouping, and `Grouping.call` the call with them, in one of four
  forms;
* `Lambda.onGroups` — a function of a key and of elements, on groups that have been made;
* `Lambda.identity`, `Lambda.latter` — the functions that give back an argument.

Main results:
* `Collection.addToGroup_table`, `Collection.groupPairs_eq` — what one pair adds to a table, and the
  table of all pairs;
* `Collection.partition_groupPairs` — **grouping partitions the pairs**;
* `Grouping.run_call` — each of the four forms computes the groups of the items and puts them to its
  own use;
* `Grouping.run_call_result`, `Grouping.run_call_identity` — how the forms are made from each other;
* `Query.grouping_forms` — **grouping partitions, and its four forms agree**.
-/

import LambdaQuery.Proofs.SetOperators

namespace LambdaQuery

namespace Collection

/-! ### The table of groups -/

section Table

variable {pairs : List (Value × Value)} {groups : Groups} {key element : Value}

/-- The elements that come with a key equal to the given one, in their order. -/
def elementsUnder (pairs : List (Value × Value)) (key : Value) : List Value :=
  (pairs.filter fun pair => pair.1.same key).map (·.2)

theorem elementsUnder_snoc (pairs : List (Value × Value)) (key element k : Value) :
    elementsUnder (pairs ++ [(key, element)]) k =
      elementsUnder pairs k ++ if key.same k then [element] else [] := by
  rw [elementsUnder, List.filter_append, List.map_append, elementsUnder]
  cases hsame : key.same k <;> simp [hsame]

theorem elementsUnder_of_not_contains (h : contains (pairs.map (·.1)) key = false) :
    elementsUnder pairs key = [] := by
  rw [elementsUnder, List.map_eq_nil_iff, List.filter_eq_nil_iff]
  intro pair hpair hsame
  rw [← Bool.not_eq_true, contains_eq_true] at h
  exact h ⟨_, List.mem_map_of_mem hpair, hsame⟩

/-- **What one pair adds to a table** whose keys are all different and in which `f` gives the
elements of each key: the element goes to the key that equals its own, which is a new one at the end
if there was none. -/
theorem addToGroup_table (f : Value → List Value) : ∀ {keys : List Value},
    keys.Pairwise (fun j k => j.same k = false) → (contains keys key = false → f key = []) →
    addToGroup key element (keys.map fun k => (k, f k)) =
      (keys ++ if contains keys key then [] else [key]).map fun k =>
        (k, f k ++ if key.same k then [element] else []) := by
  intro keys
  induction keys with
  | nil =>
      intro _ hf
      simp [addToGroup, contains, hf rfl, Value.same_self]
  | cons k keys ih =>
      intro hkeys hf
      obtain ⟨hk, hkeys⟩ := List.pairwise_cons.mp hkeys
      have hcontains : contains (k :: keys) key = (k.same key || contains keys key) := rfl
      rw [List.map_cons, addToGroup, hcontains]
      by_cases hsame : k.same key = true
      · -- the other keys differ from `k`, and so from the key that equals it
        have hothers : ∀ j ∈ keys, key.same j = false := by
          intro j hj
          rw [← Value.same_congr hsame]
          exact hk j hj
        rw [if_pos hsame, hsame, Bool.true_or, if_pos rfl, List.append_nil, List.map_cons,
          Value.same_comm key k, hsame, if_pos rfl]
        congr 1
        refine List.map_congr_left ?_
        intro j hj
        rw [hothers j hj, if_neg Bool.false_ne_true, List.append_nil]
      · rw [Bool.not_eq_true] at hsame
        have hfk : contains keys key = false → f key = [] := by
          intro hc
          refine hf ?_
          rw [hcontains, hsame, hc, Bool.false_or]
        rw [hsame, if_neg Bool.false_ne_true, Bool.false_or, ih hkeys hfk, List.cons_append,
          List.map_cons, Value.same_comm key k, hsame, if_neg Bool.false_ne_true, List.append_nil]

theorem groupPairs_snoc (pairs : List (Value × Value)) (key element : Value) :
    groupPairs (pairs ++ [(key, element)]) = addToGroup key element (groupPairs pairs) := by
  rw [groupPairs, List.foldl_append]
  rfl

/-- **The table of all pairs**: their keys, each once, with the elements that come with them. -/
theorem groupPairs_eq (pairs : List (Value × Value)) :
    groupPairs pairs = (distinct (pairs.map (·.1))).map fun k => (k, elementsUnder pairs k) := by
  induction pairs using List.reverseRecOn with
  | nil => rfl
  | append_singleton pairs pair ih =>
      obtain ⟨key, element⟩ := pair
      have hnew : contains (distinct (pairs.map (·.1))) key = false →
          elementsUnder pairs key = [] := by
        rw [contains_distinct]
        exact elementsUnder_of_not_contains
      have hkeys : (pairs ++ [(key, element)]).map (·.1) = pairs.map (·.1) ++ [key] :=
        List.map_append
      rw [groupPairs_snoc, ih, addToGroup_table _ (pairwise_distinct _) hnew, hkeys, distinct_snoc,
        contains_distinct]
      refine List.map_congr_left ?_
      intro k _
      rw [elementsUnder_snoc]

/-! ### Partitions -/

/-- Adding a pair adds its element to the elements of all groups. -/
theorem elements_addToGroup_perm : ∀ groups : Groups,
    ((addToGroup key element groups).flatMap (·.2)).Perm (groups.flatMap (·.2) ++ [element]) := by
  intro groups
  induction groups with
  | nil => exact .refl _
  | cons group groups ih =>
      obtain ⟨k, es⟩ := group
      rw [addToGroup]
      split
      · rw [List.flatMap_cons, List.flatMap_cons, List.append_assoc, List.append_assoc]
        exact List.perm_append_comm.append_left es
      · rw [List.flatMap_cons, List.flatMap_cons, List.append_assoc]
        exact ih.append_left es

/-- No element is lost, and none is there twice. -/
theorem elements_groupPairs_perm (pairs : List (Value × Value)) :
    ((groupPairs pairs).flatMap (·.2)).Perm (pairs.map (·.2)) := by
  induction pairs using List.reverseRecOn with
  | nil => exact .refl _
  | append_singleton pairs pair ih =>
      obtain ⟨key, element⟩ := pair
      rw [groupPairs_snoc, List.map_append]
      exact (elements_addToGroup_perm _).trans (ih.append_right [element])

/-- Groups divide pairs by their keys. -/
structure Partition (pairs : List (Value × Value)) (groups : Groups) : Prop where
  /-- The key of every pair has a group. -/
  covered : ∀ pair ∈ pairs, ∃ group ∈ groups, group.1.same pair.1 = true
  /-- The keys of two groups are different. -/
  apart : groups.Pairwise fun g h => g.1.same h.1 = false
  /-- The key of a group is the first of those that equal it. -/
  first_seen : ∀ group ∈ groups, (pairs.map (·.1)).find? (·.same group.1) = some group.1
  /-- The groups stand in the order in which their keys first occur. -/
  in_order : groups.Pairwise fun g h =>
    place (pairs.map (·.1)) g.1 < place (pairs.map (·.1)) h.1
  /-- A group has the elements that come with an equal key, in their order. -/
  elements : ∀ group ∈ groups, group.2 = elementsUnder pairs group.1
  /-- Together the groups have all elements, each as often as it occurs. -/
  perm : (groups.flatMap (·.2)).Perm (pairs.map (·.2))
  /-- No group is empty. -/
  nonempty : ∀ group ∈ groups, group.2 ≠ []

/-- **Grouping partitions the pairs.** -/
theorem partition_groupPairs (pairs : List (Value × Value)) :
    Partition pairs (groupPairs pairs) := by
  have heq := groupPairs_eq pairs
  have hmem : ∀ group ∈ groupPairs pairs,
      group.1 ∈ distinct (pairs.map (·.1)) ∧ group.2 = elementsUnder pairs group.1 := by
    intro group hgroup
    rw [heq] at hgroup
    obtain ⟨k, hk, rfl⟩ := List.mem_map.mp hgroup
    exact ⟨hk, rfl⟩
  constructor
  case covered =>
    intro pair hpair
    have hcontains : contains (pairs.map (·.1)) pair.1 = true :=
      contains_eq_true.mpr ⟨_, List.mem_map_of_mem hpair, Value.same_self _⟩
    rw [← contains_distinct] at hcontains
    obtain ⟨k, hk, hsame⟩ := contains_eq_true.mp hcontains
    rw [heq]
    exact ⟨_, List.mem_map_of_mem hk, hsame⟩
  case apart =>
    rw [heq]
    exact List.pairwise_map.mpr (pairwise_distinct _)
  case first_seen =>
    intro group hgroup
    exact find?_of_mem_distinct (hmem group hgroup).1
  case in_order =>
    rw [heq]
    exact List.pairwise_map.mpr (distinct_in_order _)
  case elements =>
    intro group hgroup
    exact (hmem group hgroup).2
  case perm => exact elements_groupPairs_perm pairs
  case nonempty =>
    intro group hgroup
    obtain ⟨hk, helements⟩ := hmem group hgroup
    -- the pair that the key of the group comes from has an element for it
    obtain ⟨pair, hpair, hkey⟩ := List.mem_map.mp (mem_of_mem_distinct hk)
    rw [helements, ← hkey]
    exact List.ne_nil_of_mem
      (List.mem_map_of_mem (List.mem_filter.mpr ⟨hpair, Value.same_self _⟩))

end Table

end Collection

/-! ### Functions of groups -/

/-- The elements with the keys and the values that computations give for them. -/
def Each.keyed (key element : Value → QueryResult Value) (items : List Value) :
    QueryResult (List (Value × Value)) :=
  Each.map (fun v => do return (← key v, ← element v)) items

/-- Groups as a value. -/
def Collection.groupings (groups : Groups) : Value :=
  .sequence (groups.map fun group => .grouping group.1 group.2)

namespace Lambda

/-- The value of a function of a key and of elements on a grouping. -/
def onGroup (l : Lambda) (v : Value) : QueryResult Value :=
  match v with
  | .grouping key elements => l.on [key, .sequence elements]
  | v => .error (.mismatch (.notSequence v))

/-- Its values on the groupings of a sequence. -/
def onGroups (l : Lambda) (v : Value) : QueryResult Value := do
  return .sequence (← Each.map l.onGroup (← v.asItems))

end Lambda

/-! ### The four forms -/

/-- The functions of a grouping: that of the keys, and those of the elements and of the results if
there are such. -/
structure Grouping where
  key : Lambda
  element : Option Lambda
  result : Option Lambda

namespace Grouping

variable (g : Grouping) (q : Query) (typeArgs : List Ty) (type : Ty)

/-- The form of a call with these functions. -/
def shape : Shape :=
  match g.element, g.result with
  | none, none => .selector
  | some _, none => .keyElement
  | none, some _ => .keyResult
  | some _, some _ => .keyElementResult

/-- The call with these functions over the items of a tree. -/
def call : Call :=
  ⟨.groupBy, g.shape, typeArgs,
    .query q :: (g.key :: g.element.toList ++ g.result.toList).map .function, type⟩

/-- What stands in a group for an item. -/
def elementOf (v : Value) : QueryResult Value :=
  match g.element with
  | some l => l.on [v]
  | none => .ok v

/-- What the groups are made into. -/
def conclude (groups : Collection.Groups) : QueryResult (List Value) :=
  match g.result with
  | some l => Each.map (fun group => l.on [group.1, .sequence group.2]) groups
  | none => .ok (groups.map fun group => .grouping group.1 group.2)

theorem groupItems_call (items : List Value) :
    Call.groupItems (g.call q typeArgs type) items =
      Each.keyed (fun v => g.key.on [v]) g.elementOf items >>= fun pairs =>
        g.conclude (Collection.groupPairs pairs) := by
  obtain ⟨key, element, result⟩ := g
  cases element <;> cases result <;> rfl

end Grouping

/-- The items of a tree whose run gives a sequence. -/
theorem Value.asItems_bind_eq_ok {r : QueryResult Value} {items : List Value} :
    (r >>= asItems) = .ok items ↔ r = .ok (sequence items) := by
  rw [bind_eq_ok]
  constructor
  · rintro ⟨v, rfl, hv⟩
    cases v <;> cases hv
    rfl
  · rintro rfl
    exact ⟨_, rfl, rfl⟩

/-- A call that is built without constants has the queries of its sources, then its functions. -/
theorem Source.build_arguments {s : Source} {operator : Operator} {shape : Shape}
    {functions : List Lambda} {inner : Option Source} {c : Call}
    (h : s.build operator shape functions [] inner = .ok c) :
    ∃ queries, s.queries shape inner = .ok queries ∧
      c = ⟨operator, shape, c.typeArgs, queries ++ functions.map .function, c.type⟩ := by
  rw [Source.build] at h
  split at h
  · cases h
  obtain ⟨typeArgs, -, h⟩ := bind_eq_ok.mp h
  obtain ⟨queries, hqueries, h⟩ := bind_eq_ok.mp h
  obtain ⟨arguments, harguments, h⟩ := bind_eq_ok.mp h
  obtain ⟨⟨sig, t⟩, -, h⟩ := bind_eq_ok.mp h
  cases harguments
  cases h
  exact ⟨queries, hqueries, by rw [List.append_nil]⟩

namespace Grouping

variable (g : Grouping) (q : Query) (typeArgs : List Ty) (type : Ty)

/-- A call of grouping gives what becomes of the groups of the items of its tree. -/
theorem run_call :
    Query.run (.call (g.call q typeArgs type)) =
      (q.run >>= Value.asItems) >>= fun items =>
        Each.keyed (fun v => g.key.on [v]) g.elementOf items >>= fun pairs =>
          g.conclude (Collection.groupPairs pairs) >>= fun vs => pure (.sequence vs) := by
  rw [call, Query.run_onItems rfl, Argument.itemsAt]
  congr 1
  funext items
  calc Call.onItems (g.call q typeArgs type) items
      = Call.groupItems (g.call q typeArgs type) items >>= fun vs => pure (.sequence vs) := rfl
    _ = _ := by rw [groupItems_call, bind_assoc]

/-- Items on which no function fails are grouped. -/
theorem run_call_eq_ok {items : List Value} {k e : Value → Value}
    (hq : q.run = .ok (.sequence items)) (hk : ∀ v ∈ items, g.key.on [v] = .ok (k v))
    (he : ∀ v ∈ items, g.elementOf v = .ok (e v)) :
    Query.run (.call (g.call q typeArgs type)) =
      g.conclude (Collection.groupPairs (items.map fun v => (k v, e v))) >>= fun vs =>
        pure (.sequence vs) := by
  have hpairs : Each.keyed (fun v => g.key.on [v]) g.elementOf items =
      .ok (items.map fun v => (k v, e v)) := by
    refine Each.map_eq_ok fun v hv => ?_
    show (g.key.on [v] >>= fun k => g.elementOf v >>= fun e => pure (k, e)) = _
    rw [hk v hv, he v hv]
    rfl
  rw [run_call, hq]
  show Each.keyed (fun v => g.key.on [v]) g.elementOf items >>= _ = _
  rw [hpairs]
  rfl

/-- A function of groups on the groups that a form without results gives. -/
theorem onGroups_groupings (l : Lambda) (groups : Collection.Groups) :
    l.onGroups (Collection.groupings groups) =
      Each.map (fun group => l.on [group.1, .sequence group.2]) groups >>= fun vs =>
        pure (.sequence vs) := by
  show Each.map l.onGroup (groups.map fun group => .grouping group.1 group.2) >>= _ = _
  rw [Each.map_map]
  rfl

/-- A form with results gives the results of the groups that the form without gives. -/
theorem run_call_result (key : Lambda) (element : Option Lambda) (result : Lambda)
    (typeArgs' : List Ty) (type' : Ty) :
    Query.run (.call (call ⟨key, element, some result⟩ q typeArgs type)) =
      Query.run (.call (call ⟨key, element, none⟩ q typeArgs' type')) >>= result.onGroups := by
  rw [run_call, run_call, bind_assoc (q.run >>= Value.asItems)]
  apply bind_congr
  intro items
  rw [bind_assoc]
  apply bind_congr
  intro pairs
  exact (onGroups_groupings result _).symm

/-- A function that gives back the items makes no difference to their groups. -/
theorem run_call_identity (key element : Lambda) (typeArgs' : List Ty) (type' : Ty)
    (he : ∀ items, q.run = .ok (.sequence items) → ∀ v ∈ items, element.on [v] = .ok v) :
    Query.run (.call (call ⟨key, none, none⟩ q typeArgs type)) =
      Query.run (.call (call ⟨key, some element, none⟩ q typeArgs' type')) := by
  rw [run_call, run_call]
  refine bind_congr_ok fun items hitems => ?_
  congr 1
  refine Each.map_congr fun v hv => ?_
  show (key.on [v] >>= fun k => pure (k, v)) =
    key.on [v] >>= fun k => element.on [v] >>= fun e => pure (k, e)
  rw [he items (Value.asItems_bind_eq_ok.mp hitems) v hv]
  rfl

/-- Grouping over a source builds such calls over its tree. -/
theorem of_build {s : Source} {c : Call}
    (h : s.build .groupBy g.shape (g.key :: g.element.toList ++ g.result.toList) [] none = .ok c) :
    c = g.call s.query c.typeArgs c.type := by
  obtain ⟨queries, hqueries, hc⟩ := Source.build_arguments h
  have hsource : queries = [.query s.query] := by
    obtain ⟨key, element, result⟩ := g
    cases element <;> cases result <;> cases hqueries <;> rfl
  rw [hc, hsource]
  rfl

end Grouping

/-! ### Functions that give back an argument -/

namespace Lambda

variable {t u : Ty} {b : Bindings}

/-- The literal that gives back its argument. -/
def identity (t : Ty) : Lambda := .ofBody 0 [("x", t)] (.parameter 0 t)

/-- The literal that gives back the second of two arguments. -/
def latter (t u : Ty) : Lambda := .ofBody 0 [("x", t), ("y", u)] (.parameter 1 u)

theorem compile_identity : Lambda.compile "x => x" [t] b = .ok (identity t) := by
  have hparse : Term.parse "x => x" = .ok (.lambda ["x"] (.name "x")) := by cbv
  have hxx : b.settings.denotes "x" "x" = true := (Settings.denotes_eq _ (by decide)).trans rfl
  rw [Lambda.compile, hparse]
  simp [Scope.function, Scope.explicit, Scope.extend, Scope.term, Scope.name, Scope.parameter?,
    Scope.findLast?, Scope.settings, hxx, identity, Except.map]

theorem compile_latter : Lambda.compile "(x, y) => y" [t, u] b = .ok (latter t u) := by
  have hparse : Term.parse "(x, y) => y" = .ok (.lambda ["x", "y"] (.name "y")) := by cbv
  have hyy : b.settings.denotes "y" "y" = true := (Settings.denotes_eq _ (by decide)).trans rfl
  rw [Lambda.compile, hparse]
  simp [Scope.function, Scope.explicit, Scope.extend, Scope.term, Scope.name, Scope.parameter?,
    Scope.findLast?, Scope.settings, hyy, latter, Except.map]

end Lambda

theorem compiles_identity {t : Ty} {b : Bindings} : Compiles "x => x" [t] b (.identity t) := by
  have htrim : Text.trim "x => x" = "x => x" := by cbv
  have hblank : Text.isBlankText "x => x" = false := by cbv
  exact ⟨hblank, htrim ▸ Lambda.compile_identity⟩

theorem compiles_latter {t u : Ty} {b : Bindings} :
    Compiles "(x, y) => y" [t, u] b (.latter t u) := by
  have htrim : Text.trim "(x, y) => y" = "(x, y) => y" := by cbv
  have hblank : Text.isBlankText "(x, y) => y" = false := by cbv
  exact ⟨hblank, htrim ▸ Lambda.compile_latter⟩

/-! ### Grouping -/

/-- **Grouping partitions its source, and its four forms agree.**  The groups of any pairs are a
partition.  Where the keys and elements of all items can be computed, the forms without results give
the groups of their pairs.  A form with results gives what its result makes of the groups that the
form without gives, and a function that gives back the items makes no difference to the groups. -/
theorem Query.grouping_forms :
    (∀ pairs, Collection.Partition pairs (Collection.groupPairs pairs)) ∧
    ∀ (q : Query) (key : Lambda) (typeArgs typeArgs' : List Ty) (type type' : Ty),
      (∀ (items : List Value) (k : Value → Value), q.run = .ok (.sequence items) →
        (∀ v ∈ items, key.on [v] = .ok (k v)) →
        run (.call (Grouping.call ⟨key, none, none⟩ q typeArgs type)) =
          .ok (Collection.groupings (Collection.groupPairs (items.map fun v => (k v, v)))) ∧
        ∀ (element : Lambda) (e : Value → Value), (∀ v ∈ items, element.on [v] = .ok (e v)) →
          run (.call (Grouping.call ⟨key, some element, none⟩ q typeArgs type)) =
            .ok (Collection.groupings (Collection.groupPairs (items.map fun v => (k v, e v))))) ∧
      (∀ element result : Lambda,
        run (.call (Grouping.call ⟨key, some element, some result⟩ q typeArgs type)) =
          run (.call (Grouping.call ⟨key, some element, none⟩ q typeArgs' type')) >>=
            result.onGroups) ∧
      (∀ result : Lambda,
        run (.call (Grouping.call ⟨key, none, some result⟩ q typeArgs type)) =
          run (.call (Grouping.call ⟨key, none, none⟩ q typeArgs' type')) >>= result.onGroups) ∧
      ∀ element : Lambda,
        (∀ items, q.run = .ok (.sequence items) → ∀ v ∈ items, element.on [v] = .ok v) →
        run (.call (Grouping.call ⟨key, none, none⟩ q typeArgs type)) =
          run (.call (Grouping.call ⟨key, some element, none⟩ q typeArgs' type')) := by
  refine ⟨Collection.partition_groupPairs, ?_⟩
  intro q key typeArgs typeArgs' type type'
  refine ⟨?_, ?_, ?_, ?_⟩
  · intro items k hq hk
    constructor
    · exact Grouping.run_call_eq_ok _ q typeArgs type hq hk fun v _ => rfl
    · intro element e he
      exact Grouping.run_call_eq_ok _ q typeArgs type hq hk he
  · intro element result
    exact Grouping.run_call_result q typeArgs type key (some element) result typeArgs' type'
  · intro result
    exact Grouping.run_call_result q typeArgs type key none result typeArgs' type'
  · intro element he
    exact Grouping.run_call_identity q typeArgs type key element typeArgs' type' he

/-- The two zeros are one key, and their group stands under the one that is seen first. -/
theorem Query.grouping_forms_zeros :
    let zero := Value.double ⟨0⟩
    let minusZero := Value.double ⟨0x8000000000000000⟩
    let one := Value.double (Double.ofInt 1)
    ∃ s c c', Source.ofValues .double [zero, one, minusZero] = .ok s ∧
      s.expressionCall .groupBy (some "x => x") .empty = .ok c ∧
      s.groupByResultCall "x => x" "(x, y) => y" .empty = .ok c' ∧
      run (.call c) = .ok (.sequence [.grouping zero [zero, minusZero], .grouping one [one]]) ∧
      run (.call c') = .ok (.sequence [.sequence [zero, minusZero], .sequence [one]]) := by
  intro zero minusZero one
  let s : Source := ⟨.double, .root .double [zero, one, minusZero]⟩
  have hkey : s.groupSelector "keySelector" "x => x" .empty = .ok (.identity .double) :=
    compiles_identity.functionOf
  have hresult : s.groupResult "(x, y) => y" .double .double .empty =
      .ok (.latter .double (.sequence .double)) := compiles_latter.functionOf
  have hcall : s.expressionCall .groupBy (some "x => x") .empty =
      .ok (Grouping.call ⟨.identity .double, none, none⟩ s.query [.double, .double]
        (.query (.grouping .double .double))) :=
    bind_eq_ok.mpr ⟨_, hkey, rfl⟩
  have hcall' : s.groupByResultCall "x => x" "(x, y) => y" .empty =
      .ok (Grouping.call ⟨.identity .double, none, some (.latter .double (.sequence .double))⟩
        s.query [.double, .double, .sequence .double] (.query (.sequence .double))) :=
    bind_eq_ok.mpr ⟨_, hkey, bind_eq_ok.mpr ⟨_, hresult, rfl⟩⟩
  have hforms := grouping_forms.2 s.query (.identity .double)
  have hrun := ((hforms [.double, .double] [] (.query (.grouping .double .double)) .null).1
    [zero, one, minusZero] id rfl fun _ _ => rfl).1
  refine ⟨s, _, _, rfl, hcall, hcall', hrun.trans rfl, ?_⟩
  obtain ⟨-, -, hresults, -⟩ := hforms [.double, .double, .sequence .double] [.double, .double]
    (.query (.sequence .double)) (.query (.grouping .double .double))
  rw [hresults, hrun]
  rfl

end LambdaQuery
