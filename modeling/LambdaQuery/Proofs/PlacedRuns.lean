/-
**Operators find their arguments.**  An operator asks for its arguments by their places when it
reaches them, and a wrong place is an error only then.  Over the tree of a source this error never
comes: what `LambdaQuery.Proofs.CallLayout` says of the places of arguments is what the operators
rely on, whatever the values, the functions and the errors that these lead to.

Main definitions:
* `QueryError.isMisplaced` — the errors of an argument that is not where it is looked for, of a type
  argument that is missing, and of an ordering that refines none;
* `Finds` — the result is no such error;
* `Call.FindsLinks` — the chain of orderings of a call is there, and each of its links has its key.

Main results:
* `Call.Placed.onItems`, `Call.Placed.zipItems`, `Call.Placed.joinItems` — each operator finds what
  it reads;
* `Query.Laid.finds` — **a tree that is laid out runs without such errors**, by induction on it;
* `Source.call_tree` — **the trees of sources**: the element type, the invariant of every call, and
  the runs; and every lazy call that is built becomes a source.
-/

import LambdaQuery.Proofs.CallLayout
import LambdaQuery.Proofs.QuerySoundness

namespace LambdaQuery

/-! ### Errors of arguments -/

/-- Is the error that of an argument, or an ordering, that is not where it is looked for? -/
def QueryError.isMisplaced : QueryError → Bool
  | mismatch (.argumentKind ..) | mismatch (.missingTypeArgument ..)
  | mismatch (.notOrdered ..) => true
  | _ => false

/-- The result is no error of an argument that is not where it is looked for. -/
abbrev Finds {α : Type} (r : QueryResult α) : Prop :=
  Within (fun e => e.isMisplaced = false) (fun _ => True) r

theorem QueryError.isMisplaced_ofCollection (e : CollectionError) :
    (ofCollection e).isMisplaced = false := by
  cases e <;> rfl

theorem QueryError.isMisplaced_ofEval (e : EvalError) : (ofEval e).isMisplaced = false := by
  cases e with
  | collection e => exact isMisplaced_ofCollection e
  | _ => rfl

/-- A computation that fails in whatever way. -/
theorem within_any {ε α : Type} (r : Except ε α) :
    Within (fun _ => True) (fun _ => True) r := by
  cases r with
  | ok a => exact .ok trivial
  | error e => exact .error trivial

section Parts

variable {l : Lambda} {c : Call} {index : Nat}

theorem finds_ofCollection {α : Type} (r : Except CollectionError α) : Finds (ofCollection r) :=
  (within_any r).mapError fun e _ => QueryError.isMisplaced_ofCollection e

/-- No function misses an argument of its call. -/
theorem finds_on (args : List Value) : Finds (l.on args) :=
  (within_any _).mapError fun e _ => QueryError.isMisplaced_ofEval e

theorem finds_accepts (v : Value) : Finds (l.accepts v) :=
  (within_any _).mapError fun e _ => QueryError.isMisplaced_ofEval e

theorem finds_innerItems (v : Value) : Finds (Call.innerItems v) := by
  cases v with
  | null => exact .error rfl
  | _ =>
      simp only [Call.innerItems]
      split
      · exact .ok trivial
      · exact .error rfl

theorem finds_asItems (v : Value) : Finds v.asItems := by
  cases v with
  | sequence items => exact .ok trivial
  | _ => exact .error rfl

/-- A list that has been computed, as the value of a call. -/
theorem Within.value {α : Type} {r : QueryResult α} (h : Finds r) {f : α → Value} :
    Finds (r >>= fun a => pure (f a)) :=
  h.bind fun _ _ => .ok trivial

/-- Computations over a list. -/
theorem finds_each {α β : Type} {f : α → QueryResult β} {xs : List α}
    (h : ∀ x ∈ xs, Finds (f x)) : Finds (Each.map f xs) :=
  (Within.each_map h).imp fun _ _ => trivial

/-- The keys of items, each with its item. -/
theorem finds_keyed (items : List Value) :
    Finds (Each.map (fun v => do return (← l.on [v], v)) items) :=
  finds_each fun v _ => (finds_on [v]).bind fun _ _ => .ok trivial

/-- The keys of items, each with a value of its item. -/
theorem finds_pairs {key : Lambda} (items : List Value) :
    Finds (Each.map (fun v => do return (← key.on [v], ← l.on [v])) items) :=
  finds_each fun v _ => (finds_on [v]).bind fun _ _ => (finds_on [v]).bind fun _ _ => .ok trivial

end Parts

namespace Call.Placed

variable {c : Call} {index : Nat}

theorem finds_function (hc : c.Placed) (h : c.shape.kinds[index]? = some .function) :
    Finds (c.function index) := by
  obtain ⟨l, hl⟩ := hc.function h
  rw [hl]
  exact .ok trivial

theorem finds_constant (hc : c.Placed) (h : c.shape.kinds[index]? = some .constant) :
    Finds (c.constant index) := by
  obtain ⟨v, hv⟩ := hc.constant h
  rw [hv]
  exact .ok trivial

theorem finds_typeArg (hc : c.Placed) (hn : c.operator.isNumeric = false) :
    Finds (c.typeArg 0) := by
  obtain ⟨t, ht⟩ := hc.typeArg hn
  rw [ht]
  exact .ok trivial

/-- A number of elements, or a place. -/
theorem finds_index (hc : c.Placed) (h : c.shape.kinds[1]? = some .constant) : Finds c.index := by
  rw [Call.index]
  refine (hc.finds_constant h).bind fun v _ => ?_
  cases v with
  | int n => exact .ok trivial
  | _ => exact .error rfl

theorem finds_count (hc : c.Placed) (h : c.shape.kinds[1]? = some .constant) : Finds c.count :=
  (hc.finds_index h).bind fun _ _ => .ok trivial

theorem finds_second (hc : c.Placed) (h : c.shape.kinds[1]? = some .constant) :
    Finds c.second := by
  rw [Call.second]
  refine (hc.finds_constant h).bind fun v _ => ?_
  split
  · exact .ok trivial
  · exact .error rfl

/-! ### One source -/

theorem finds_choose (hc : c.Placed) (hn : c.operator.isNumeric = false) (items : List Value) :
    Finds (c.choose items) := by
  rw [Call.choose]
  refine (hc.finds_typeArg hn).bind fun t _ => ?_
  cases c.operator with
  | count | first | single | singleOrDefault | last => exact finds_ofCollection _
  | _ => exact .ok trivial

theorem finds_foldItems (hc : c.Placed)
    (hs : c.shape = .unseeded ∨ c.shape = .seeded ∨ c.shape = .seededResult)
    (items : List Value) : Finds (c.foldItems items) := by
  have hstep : ∀ (l : Lambda) (acc : Value) (vs : List Value),
      Finds (Each.fold (fun acc v => l.on [acc, v]) acc vs) := fun l acc vs =>
    .each_fold trivial fun _ _ _ _ => finds_on _
  unfold Call.foldItems
  rcases hs with hs | hs | hs
  · simp only [hs]
    cases items with
    | nil => exact .error rfl
    | cons v vs => exact (hc.finds_function (by rw [hs]; rfl)).bind fun l _ => hstep l v vs
  · simp only [hs]
    refine (hc.finds_constant (by rw [hs]; rfl)).bind fun seed _ => ?_
    refine (hc.finds_function (by rw [hs]; rfl)).bind fun l _ => ?_
    exact (hstep l seed items).bind fun _ _ => .ok trivial
  · simp only [hs]
    refine (hc.finds_constant (by rw [hs]; rfl)).bind fun seed _ => ?_
    refine (hc.finds_function (by rw [hs]; rfl)).bind fun l _ => ?_
    refine (hstep l seed items).bind fun total _ => ?_
    exact (hc.finds_function (by rw [hs]; rfl)).bind fun result _ => finds_on _

theorem finds_groupItems (hc : c.Placed)
    (hs : c.shape = .selector ∨ c.shape = .keyElement ∨ c.shape = .keyResult ∨
      c.shape = .keyElementResult) (items : List Value) : Finds (c.groupItems items) := by
  unfold Call.groupItems
  rcases hs with hs | hs | hs | hs
  · simp only [hs, pure_bind]
    refine (hc.finds_function (by rw [hs]; rfl)).bind fun key _ => ?_
    exact (finds_keyed items).bind fun pairs _ => .ok trivial
  · simp only [hs, pure_bind, bind_map_left]
    refine (hc.finds_function (by rw [hs]; rfl)).bind fun key _ => ?_
    refine (hc.finds_function (by rw [hs]; rfl)).bind fun element _ => ?_
    exact (finds_pairs items).bind fun pairs _ => .ok trivial
  · simp only [hs, pure_bind, bind_map_left]
    refine (hc.finds_function (by rw [hs]; rfl)).bind fun key _ => ?_
    refine (hc.finds_function (by rw [hs]; rfl)).bind fun result _ => ?_
    exact (finds_keyed items).bind fun pairs _ => finds_each fun group _ => finds_on _
  · simp only [hs, bind_map_left]
    refine (hc.finds_function (by rw [hs]; rfl)).bind fun key _ => ?_
    refine (hc.finds_function (by rw [hs]; rfl)).bind fun element _ => ?_
    refine (hc.finds_function (by rw [hs]; rfl)).bind fun result _ => ?_
    exact (finds_pairs items).bind fun pairs _ => finds_each fun group _ => finds_on _

/-- **An operator finds what it reads** on the items of its source. -/
theorem onItems (hc : c.Placed) (items : List Value) : Finds (c.onItems items) := by
  have hshape := hc.accepted
  have hchoose := hc.finds_choose
  rw [Operator.accepts, List.contains_iff_mem] at hshape
  unfold Call.onItems
  cases hop : c.operator <;> rw [hop] at hshape hchoose <;>
    simp only [Operator.shapes, List.mem_cons, List.not_mem_nil, or_false] at hshape
  case filter =>
    refine (hc.finds_function (by rw [hshape]; rfl)).bind fun l _ => ?_
    exact (Within.each_keep fun v _ => finds_accepts v).bind fun _ _ => .ok trivial
  case takeWhile =>
    refine (hc.finds_function (by rw [hshape]; rfl)).bind fun l _ => ?_
    exact (Within.each_takeWhile fun v _ => finds_accepts v).bind fun _ _ => .ok trivial
  case skipWhile =>
    refine (hc.finds_function (by rw [hshape]; rfl)).bind fun l _ => ?_
    exact (Within.each_dropWhile fun v _ => finds_accepts v).bind fun _ _ => .ok trivial
  case select =>
    refine (hc.finds_function (by rw [hshape]; rfl)).bind fun l _ => ?_
    exact Within.value (finds_each fun v _ => finds_on [v])
  case selectMany =>
    refine (hc.finds_function (by rw [hshape]; rfl)).bind fun l _ => ?_
    exact Within.value (finds_each fun v _ => (finds_on [v]).bind fun w _ => finds_innerItems w)
  case groupBy => exact (hc.finds_groupItems hshape items).value
  case take | skip => exact (hc.finds_count (by rw [hshape]; rfl)).value
  case distinct | reverse => exact .ok trivial
  case defaultIfEmpty =>
    cases items with
    | cons v vs => exact .ok trivial
    | nil =>
        rcases hshape with hs | hs <;> simp only [hs]
        · exact (hc.finds_typeArg (by rw [hop]; rfl)).value
        · exact (hc.finds_constant (by rw [hs]; rfl)).value
  case concat | union | intersect | except | sequenceEqual =>
    exact (hc.finds_second (by rw [hshape]; rfl)).value
  case contains => exact (hc.finds_constant (by rw [hshape]; rfl)).value
  case elementAt =>
    exact (hc.finds_index (by rw [hshape]; rfl)).bind fun i _ => finds_ofCollection _
  case elementAtOrDefault =>
    refine (hc.finds_index (by rw [hshape]; rfl)).bind fun i _ => ?_
    exact (hc.finds_typeArg (by rw [hop]; rfl)).value
  case sum | average | min | max =>
    rcases hshape with hs | hs <;> simp only [hs]
    · exact finds_ofCollection _
    · refine (hc.finds_function (by rw [hs]; rfl)).bind fun l _ => ?_
      refine (finds_each fun v _ => finds_on [v]).bind fun values _ => finds_ofCollection _
  case aggregate => exact hc.finds_foldItems hshape items
  case all =>
    simp only [hshape]
    refine (hc.finds_function (by rw [hshape]; rfl)).bind fun l _ => ?_
    exact (Within.each_all fun v _ => finds_accepts v).value
  case count | longCount | any | first | firstOrDefault | single | singleOrDefault | last |
      lastOrDefault =>
    rcases hshape with hs | hs <;> simp only [hs]
    · exact hchoose rfl items
    · refine (hc.finds_function (by rw [hs]; rfl)).bind fun l _ => ?_
      exact (Within.each_keep fun v _ => finds_accepts v).bind fun kept _ => hchoose rfl kept
  all_goals
    simp only [hshape]
    exact hchoose rfl items

/-! ### Two sources -/

theorem zipItems (hc : c.Placed) (hs : c.shape = .zip) (outer inner : List Value) :
    Finds (c.zipItems outer inner) := by
  rw [Call.zipItems]
  exact (hc.finds_function (by rw [hs]; rfl)).bind fun result _ => finds_each fun _ _ => finds_on _

theorem joinItems (hc : c.Placed) (hs : c.shape = .keyed) (outer inner : List Value) :
    Finds (c.joinItems outer inner) := by
  rw [Call.joinItems]
  refine (hc.finds_function (by rw [hs]; rfl)).bind fun outerKey _ => ?_
  refine (hc.finds_function (by rw [hs]; rfl)).bind fun innerKey _ => ?_
  refine (hc.finds_function (by rw [hs]; rfl)).bind fun result _ => ?_
  refine (finds_keyed inner).bind fun keyed _ => ?_
  refine Within.bind (P := fun _ => True) (finds_each fun t _ => ?_) fun _ _ => .ok trivial
  refine (finds_on [t]).bind fun key _ => ?_
  cases c.operator with
  | groupJoin => exact (finds_on _).bind fun _ _ => .ok trivial
  | _ => exact finds_each fun u _ => finds_on _

end Call.Placed

/-! ### Orderings -/

theorem Operator.isOrdering_of_refinesOrdering {operator : Operator}
    (h : operator.refinesOrdering = true) : operator.isOrdering = true := by
  cases operator <;> first | rfl | cases h

/-- The chain of orderings of the call is there with the items that it sorts, and each of its links
has its key. -/
def Call.FindsLinks (c : Call) : Prop :=
  ∃ links items, c.chain = .ok (links, items) ∧ (∀ link ∈ links, ∃ l, link.function 1 = .ok l) ∧
    Finds items

theorem finds_sortItems {links : List Call} (hl : ∀ link ∈ links, ∃ l, link.function 1 = .ok l)
    (items : List Value) : Finds (Call.sortItems links items) := by
  rw [Call.sortItems]
  refine Within.bind (P := fun _ => True) (finds_each fun v _ => ?_) fun rows _ => ?_
  case refine_2 =>
    cases Collection.sortByKeys (links.map fun c => c.operator.isDescending) rows with
    | none => exact .error rfl
    | some sorted => exact .ok trivial
  refine Within.bind (P := fun _ => True) (finds_each fun link hlink => ?_) fun _ _ => .ok trivial
  obtain ⟨l, hl⟩ := hl link hlink
  rw [hl]
  exact finds_on [v]

/-- The items of the query that stands first. -/
theorem Query.finds_items {q : Query} (hq : Finds q.run) {operator : Operator} {index : Nat}
    {rest : List Argument} : Finds (Argument.itemsAt operator index (.query q :: rest) 0) := by
  rw [Argument.itemsAt]
  exact hq.bind fun v _ => finds_asItems v

namespace Call.Placed

variable {c : Call}

/-- A call that orders has its key behind its source. -/
theorem key (hc : c.Placed) (ho : c.operator.isOrdering = true) :
    ∃ l, c.function 1 = .ok l := by
  have hshape := hc.accepted
  rw [Operator.accepts, List.contains_iff_mem] at hshape
  refine hc.function ?_
  cases hop : c.operator <;> rw [hop] at ho hshape <;> cases ho <;>
    rw [List.mem_singleton.mp hshape] <;> rfl

/-- A call that starts an ordering is a chain of one link. -/
theorem findsLinks_of_source (hc : c.Placed) (ho : c.operator.isOrdering = true)
    (hr : c.operator.refinesOrdering = false) (hq : ∀ q, .query q ∈ c.args → Finds q.run) :
    c.FindsLinks := by
  obtain ⟨q, rest, ha⟩ := hc.source
  have hkey := hc.key ho
  obtain ⟨operator, shape, typeArgs, args, type⟩ := c
  cases ha
  have hitems : Finds (Argument.itemsAt operator 0 (.query q :: rest) 0) :=
    Query.finds_items (hq q (List.mem_cons_self ..))
  refine ⟨[⟨operator, shape, typeArgs, .query q :: rest, type⟩], _, ?_,
    List.forall_mem_singleton.mpr hkey, hitems⟩
  have hr : ¬ operator.refinesOrdering = true := by simp [hr]
  rw [Call.chain.eq_def]
  simp only [if_neg hr]
  rfl

/-- A call that refines an ordering is a chain of one more link. -/
theorem findsLinks_of_refines (hc : c.Placed) (ho : c.operator.isOrdering = true)
    (hr : c.operator.refinesOrdering = true) {source : Call} {rest : List Argument}
    (ha : c.args = .query (.call source) :: rest) (hs : source.operator.isOrdering = true)
    (hlinks : source.FindsLinks) : c.FindsLinks := by
  obtain ⟨links, items, hchain, hkeys, hitems⟩ := hlinks
  have hkey := hc.key ho
  obtain ⟨operator, shape, typeArgs, args, type⟩ := c
  cases ha
  refine ⟨links ++ [⟨operator, shape, typeArgs, .query (.call source) :: rest, type⟩], items,
    ?_, ?_, hitems⟩
  · rw [Call.chain, if_pos hr, if_pos hs, hchain]
    rfl
  · exact List.forall_mem_append.mpr ⟨hkeys, List.forall_mem_singleton.mpr hkey⟩

end Call.Placed

/-! ### Runs -/

namespace Call.Placed

variable {c : Call}

/-- The items of the second source. -/
theorem finds_inner (hc : c.Placed) (hs : c.shape.hasInner = true)
    (hq : ∀ q, .query q ∈ c.args → Finds q.run) {operator : Operator} :
    Finds (Argument.itemsAt operator 1 c.args 1) := by
  obtain ⟨q, i, rest, ha⟩ := hc.inner hs
  rw [ha, Argument.itemsAt]
  exact Query.finds_items (hq i (by rw [ha]; simp))

/-- **An operator finds what it reads** over sources that find what they read. -/
theorem runOperator (hc : c.Placed) (hq : ∀ q, .query q ∈ c.args → Finds q.run) :
    Finds c.runOperator := by
  obtain ⟨q, rest, ha⟩ := hc.source
  have houter : Finds (Argument.itemsAt c.operator 0 c.args 0) := by
    rw [ha]
    exact Query.finds_items (hq q (by rw [ha]; exact List.mem_cons_self ..))
  have hshape := hc.accepted
  rw [Operator.accepts, List.contains_iff_mem] at hshape
  have hinner : ∀ operator : Operator, c.shape.hasInner = true →
      Finds (Argument.itemsAt operator 1 c.args 1) := fun operator hs => hc.finds_inner hs hq
  have hzip := hc.zipItems
  have hjoin := hc.joinItems
  have hitems := hc.onItems
  obtain ⟨operator, shape, typeArgs, args, type⟩ := c
  rw [Call.runOperator]
  refine houter.bind fun outer _ => ?_
  cases operator with
  | zip =>
      obtain rfl := List.mem_singleton.mp hshape
      exact (hinner _ rfl).bind fun inner _ => (hzip rfl outer inner).value
  | join | groupJoin =>
      obtain rfl := List.mem_singleton.mp hshape
      exact (hinner _ rfl).bind fun inner _ => (hjoin rfl outer inner).value
  | _ => exact hitems outer

end Call.Placed

/-- The run of the tree finds what it reads, and so does its chain if it orders. -/
structure Query.Found (q : Query) : Prop where
  run : Finds q.run
  links : ∀ c, q = .call c → c.operator.isOrdering = true → c.FindsLinks

theorem Call.FindsLinks.found {c : Call} (h : c.FindsLinks) (ho : c.operator.isOrdering = true) :
    Query.Found (.call c) := by
  refine ⟨?_, ?_⟩
  · obtain ⟨links, items, hchain, hkeys, hitems⟩ := h
    rw [Query.run, if_pos ho, hchain]
    exact hitems.bind fun vs _ => (finds_sortItems hkeys vs).value
  · rintro c' ⟨⟩ -
    exact h

/-- **A placed call over trees that find what they read** finds what it reads. -/
theorem Call.Placed.found {c : Call} (hc : c.Placed)
    (hr : c.operator.refinesOrdering = true →
      ∃ source rest, c.args = .query (.call source) :: rest ∧ source.operator.isOrdering = true)
    (hq : ∀ q, .query q ∈ c.args → q.Found) : Query.Found (.call c) := by
  cases ho : c.operator.isOrdering with
  | false =>
      refine ⟨?_, ?_⟩
      · rw [Query.run_of_not_isOrdering ho]
        exact hc.runOperator fun q h => (hq q h).run
      · rintro c' ⟨⟩ ho'
        cases ho.symm.trans ho'
  | true =>
      cases hrefines : c.operator.refinesOrdering with
      | false =>
          have hlinks := hc.findsLinks_of_source ho hrefines fun q h => (hq q h).run
          exact hlinks.found ho
      | true =>
          obtain ⟨source, rest, ha, hs⟩ := hr hrefines
          have hsource := hq (.call source) (by rw [ha]; exact List.mem_cons_self ..)
          have hlinks := hc.findsLinks_of_refines ho hrefines ha hs (hsource.links source rfl hs)
          exact hlinks.found ho

/-- **A tree that is laid out finds what it reads.**  The induction is on the tree, and says of
orderings that their chains are there as well, for the orderings that refine them. -/
theorem Query.Laid.found {q : Query} (h : q.Laid) : q.Found := by
  induction h with
  | root =>
      refine ⟨.ok trivial, ?_⟩
      intro c hc
      cases hc
  | call hc _ hq ih => exact hc.found (fun hr => hc.refines hr hq) ih

/-- So does every call that is built, over the trees of its sources. -/
theorem Call.Assembled.finds {c : Call} (h : c.Assembled) : Finds (Query.run (.call c)) := by
  obtain ⟨hc, hq⟩ := h.laid
  exact (hc.found (fun hr => hc.refines hr hq) fun q hmem => (hq q hmem).found).run

/-! ### Sources -/

namespace Source

variable {s : Source}

theorem Obtained.declared (hs : s.Obtained) : s.Declared := by
  cases hs with
  | ofValues h => exact ofValues_declared h
  | ofJsonText h => exact ofJsonText_declared h
  | derived _ h => exact deriveCall_declared h

/-- The element type of a source is that of its tree. -/
theorem Declared.type_eq (hs : s.Declared) :
    s.type = .query s.element ∨ s.type = .orderedQuery s.element := by
  obtain ⟨hy, -⟩ := declare_eq_ok hs
  rw [type]
  cases ht : s.query.type <;> rw [ht] at hy <;> cases hy
  case query => exact .inl rfl
  case orderedQuery => exact .inr rfl

/-- A placed call of a lazy operator has a source. -/
theorem ofQuery_of_placed {c : Call} (hc : c.Placed) (hl : c.operator.isLazy = true) :
    ∃ t, ofQuery (.call c) = .ok ⟨t, .call c⟩ := by
  obtain ⟨t, ht⟩ := hc.type_of_lazy hl
  refine ⟨t, ?_⟩
  cases ho : c.operator.isOrdering <;> rw [ho] at ht <;>
    simp [ofQuery, declare, Query.type, ht, Ty.element?, Ty.yields?]

/-- **The trees of sources.**  The element type of a source is that of its tree.  Every call of the
tree is placed, is an ordered query exactly when its operator orders, refines a call that orders if
it refines any, and finds what it reads when it runs.  So does every call that is built, and one of
a lazy operator becomes a source. -/
theorem call_tree :
    (∀ s : Source, s.Obtained →
      (s.type = .query s.element ∨ s.type = .orderedQuery s.element) ∧
        ∀ c : Call, c.OccursIn s.query →
          c.Placed ∧ ((∃ t, c.type = .orderedQuery t) ↔ c.operator.isOrdering = true) ∧
            (c.operator.refinesOrdering = true → ∃ source rest,
              c.args = .query (.call source) :: rest ∧ source.operator.isOrdering = true) ∧
            Finds (Query.run (.call c))) ∧
      ∀ c : Call, c.Assembled →
        Finds (Query.run (.call c)) ∧
          (c.operator.isLazy = true → ∃ t, ofQuery (.call c) = .ok ⟨t, .call c⟩) := by
  refine ⟨fun s hs => ⟨hs.declared.type_eq, fun c ho => ?_⟩, fun c hc => ⟨hc.finds, ?_⟩⟩
  · have hlaid := hs.laid.of_occursIn ho
    have hfound := hlaid.found
    cases hlaid with
    | call hc hl hq => exact ⟨hc, hc.ordered_iff hl, fun hr => hc.refines hr hq, hfound.run⟩
  · exact ofQuery_of_placed hc.laid.1

/-- Words by their length and then by themselves. -/
theorem call_tree_words :
    ∃ s c, Obtained s ∧ Call.Assembled c ∧ s.query = .call c ∧ c.Placed ∧
      c.operator.refinesOrdering = true ∧
      (∃ source rest, c.args = .query (.call source) :: rest ∧
        source.operator.isOrdering = true) ∧
      Finds s.query.run ∧ (∃ t, s.type = .orderedQuery t) ∧
      ∃ t, ofQuery (.call c) = .ok ⟨t, .call c⟩ := by
  let words : Source := ⟨.string, .root .string [.string "ba", .string "c", .string "a"]⟩
  have hok : (do
      let length ← words.expressionCall .orderBy (some "Length") .empty
      let ordered ← deriveCall length
      let word ← ordered.expressionCall .thenBy (some "it") .empty
      if word.operator.refinesOrdering then deriveCall word else throw .missingSource :
        QueryResult Source).isOk = true := by cbv
  have hwords : words.Obtained :=
    @Obtained.ofValues .string [.string "ba", .string "c", .string "a"] _ rfl
  obtain ⟨s, h⟩ := isOk_iff.mp hok
  obtain ⟨length, hlength, h⟩ := bind_eq_ok.mp h
  obtain ⟨ordered, hordered, h⟩ := bind_eq_ok.mp h
  obtain ⟨word, hword, h⟩ := bind_eq_ok.mp h
  split at h
  · rename_i hrefines
    have hfirst : ordered.Obtained := .derived (.expression hwords hlength) hordered
    have hc : Call.Assembled word := .expression hfirst hword
    have hs : s.Obtained := .derived hc h
    obtain ⟨hl, hquery⟩ := deriveCall_eq_ok h
    have hoccurs : word.OccursIn s.query := hquery ▸ .top
    obtain ⟨hplaced, hiff, hsource, hfinds⟩ := (call_tree.1 s hs).2 word hoccurs
    have hordering := Operator.isOrdering_of_refinesOrdering hrefines
    have htype : s.type = word.type := by rw [type, hquery, Query.type]
    exact ⟨s, word, hs, hc, hquery, hplaced, hrefines, hsource hrefines, hquery ▸ hfinds,
      htype ▸ hiff.mpr hordering, (call_tree.2 word hc).2 hl⟩
  · cases h

end Source

end LambdaQuery
