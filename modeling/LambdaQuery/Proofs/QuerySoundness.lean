/-
**Soundness of typing for queries.**  The run of a typed tree meets no value of an unexpected kind:
a list of elements of a type gives such elements, a call of an eager operator gives a value of its
type, and what fails does so because of the data.

One failure is worse than the others: a sort may give up, and this ends the whole run.  It takes an
ordering in the tree with three numbers in one column of its keys that collide, so that the keys are
in no order; a pipeline without such keys is sound, and one with them may halt.

Main definitions:
* `QueryError.isOrdinary`, `Ordinary` — too few or too many elements, a place out of range, and the
  errors of expressions that data can cause; results that fail in no other way;
* `Call.SortsColliding`, `Query.CanFail` — an ordering whose keys collide; the errors of a tree: the
  ordinary ones, and that such an ordering in it has halted;
* `Query.Sound` — what comes of a tree is ordinary unless the run has halted;
* `Query.Runs`, `Call.Chains` — the run of a tree gives elements of a type; a call is a chain of
  orderings over such elements.

Main results:
* `Lambda.HasType.on`, `Lambda.HasType.accepts` — a function of a call on arguments of its types;
* `filtering_ordinary`, `group_ordinary`, `total_ordinary`, `joinItems_ordinary`, … — what each form
  of an operator does with items of its source;
* `Query.Lists.runs` — **a typed tree gives elements of its type**, by induction on the rules;
* `Call.Gives.run` — **a typed call of an eager operator gives a value of its type**;
* `Source.reachable_sound` — **both for all sources and calls that can be reached**;
* `Source.reachable_halts` — a source that can be reached, and halts.
-/

import LambdaQuery.Proofs.CallLayout
import LambdaQuery.Proofs.KeySorting

namespace LambdaQuery

open Value (AllBelong)

/-! ### Ordinary errors -/

/-- Is the error one of those that data can cause? -/
def QueryError.isOrdinary : QueryError → Bool
  | empty | ambiguous | indexOutOfRange _ => true
  | evaluation .divideByZero | evaluation .nullValue | evaluation (.nullReference _)
  | evaluation (.collection .overflow) => true
  | _ => false

/-- An ordinary error of an expression is one of the query. -/
theorem QueryError.isOrdinary_ofEval {e : EvalError} (h : e.isOrdinary = true) :
    (ofEval e).isOrdinary = true := by
  cases e with
  | collection e => cases e <;> first | rfl | cases h
  | _ => first | rfl | cases h

/-- The result is ordinary: one with a property, or an ordinary error. -/
abbrev Ordinary {α : Type} (P : α → Prop) (r : QueryResult α) : Prop :=
  Within (fun e => e.isOrdinary = true) P r

/-- The errors of a collection that are ordinary in a query. -/
theorem ordinary_ofCollection {α : Type} {P : α → Prop} {allowed : CollectionError → Prop}
    {r : Except CollectionError α} (h : Within allowed P r)
    (he : ∀ e, allowed e → (QueryError.ofCollection e).isOrdinary = true) :
    Ordinary P (ofCollection r) :=
  h.mapError he

namespace Lambda.HasType

variable {l : Lambda} {params : List Ty} {t r : Ty}

/-- A function gives a value of its type on arguments of the types of its parameters. -/
theorem on (h : l.HasType params r) {args : List Value} (ha : Environment params args) :
    Ordinary (·.Belongs r) (l.on args) := by
  obtain ⟨ht, rfl, rfl⟩ := h
  have hd : Denotes [] (l.invoke args) (l.value [] args) := ht.denotes rfl
  obtain ⟨frame, hrun, -⟩ := hd [] List.nil_prefix
  unfold Lambda.on Lambda.call
  rw [hrun]
  exact (ht.sound .nil ha).mapError fun _ he => QueryError.isOrdinary_ofEval he

/-- A condition of a call holds for a value of the type of its parameter or not. -/
theorem accepts (h : l.HasType [t] .bool) {v : Value} (hv : v.Belongs t) :
    Ordinary (fun _ => True) (l.accepts v) := by
  obtain ⟨ht, hp, hr⟩ := h
  have hd : Denotes [] (l.test v) (l.value [] [v] >>= Value.asCondition) :=
    (ht.denotes rfl).bind_lift
  obtain ⟨frame, hrun, -⟩ := hd [] List.nil_prefix
  unfold Lambda.accepts Lambda.holds
  rw [hrun]
  refine Within.mapError (Within.bind (ht.sound .nil (hp ▸ .cons hv .nil)) fun b hb => ?_)
    fun _ he => QueryError.isOrdinary_ofEval he
  rw [hr] at hb
  rcases (Value.conforms_bool_iff rfl).mp hb.conforms with ⟨-, hn⟩ | ⟨b, rfl⟩
  · cases hn
  · exact .ok trivial

/-- A function of a call on each of many elements. -/
theorem onEach (h : l.HasType [t] r) {items : List Value} (hi : AllBelong items t) :
    Ordinary (AllBelong · r) (Each.map (fun v => l.on [v]) items) :=
  .each_map fun v hv => h.on (.cons (hi v hv) .nil)

end Lambda.HasType

/-! ### Sorts that halt -/

/-- The call is an ordering, and numbers in one column of its keys collide. -/
def Call.SortsColliding (c : Call) : Prop :=
  c.operator.isOrdering = true ∧ ∃ links items rows, c.chain = .ok (links, .ok items) ∧
    Call.keyRows links items = .ok rows ∧ Collection.KeysCollide rows

/-- An error of a tree that data can cause: an ordinary one, or that an ordering in the tree whose
keys collide has halted. -/
def Query.CanFail (q : Query) (e : QueryError) : Prop :=
  e.isOrdinary = true ∨ e = .halted ∧ ∃ c : Call, c.OccursIn q ∧ c.SortsColliding

namespace Query.CanFail

variable {q : Query} {c : Call} {e : QueryError}

theorem of_ordinary (h : e.isOrdinary = true) : q.CanFail e := .inl h

/-- What a source of a call can fail with, the call can. -/
theorem of_argument (ha : .query q ∈ c.args) (h : q.CanFail e) : (Query.call c).CanFail e := by
  rcases h with h | ⟨rfl, d, ho, hd⟩
  · exact .inl h
  · exact .inr ⟨rfl, d, .inside ha ho, hd⟩

end Query.CanFail

/-- What comes of a tree is ordinary, exactly if the run does not halt; and the run does not halt if
no ordering in the tree has keys that collide. -/
structure Query.Sound {α : Type} (q : Query) (P : α → Prop) (r : QueryResult α) : Prop where
  ordinary_iff : Ordinary P r ↔ r ≠ .error .halted
  ordinary : (∀ c : Call, c.OccursIn q → ¬ c.SortsColliding) → Ordinary P r

/-- What fails with errors of the tree alone is sound. -/
theorem Within.sound {α : Type} {q : Query} {P : α → Prop} {r : QueryResult α}
    (h : Within q.CanFail P r) : q.Sound P r := by
  constructor
  case ordinary_iff =>
    cases h with
    | ok hP => exact ⟨fun _ => nofun, fun _ => .ok hP⟩
    | @error e he =>
        constructor
        · rintro (_ | hordinary) ⟨⟩
          cases hordinary
        · intro hhalted
          rcases he with he | ⟨rfl, -⟩
          · exact .error he
          · exact absurd rfl hhalted
  case ordinary =>
    intro hnone
    refine h.mono (fun e he => ?_) fun _ hP => hP
    rcases he with he | ⟨-, c, hoccurs, hcollide⟩
    · exact he
    · exact absurd hcollide (hnone c hoccurs)

/-! ### Items -/

/-- The value is a sequence of values of the type. -/
def Value.ListOf (t : Ty) (v : Value) : Prop := ∃ items, v = sequence items ∧ AllBelong items t

/-- The run of the tree gives elements of the type, or an error that data can cause. -/
def Query.Runs (t : Ty) (q : Query) : Prop := Within q.CanFail (Value.ListOf t) q.run

/-- The items of a source, for a call that has it. -/
theorem Query.Runs.items {t : Ty} {q : Query} {c : Call} (h : q.Runs t) (ha : .query q ∈ c.args)
    {operator : Operator} {index : Nat} {rest : List Argument} :
    Within (Query.call c).CanFail (AllBelong · t)
      (Argument.itemsAt operator index (.query q :: rest) 0) := by
  rw [Argument.itemsAt]
  refine Within.bind (h.mono (fun _ => .of_argument ha) fun _ hv => hv) ?_
  rintro v ⟨items, rfl, hi⟩
  exact .ok hi

/-- A computed list of elements as the value of a call. -/
theorem Within.asSequence {t : Ty} {allowed : QueryError → Prop} {r : QueryResult (List Value)}
    (h : Within allowed (AllBelong · t) r) :
    Within allowed (Value.ListOf t) (r >>= fun items => pure (Value.sequence items)) :=
  h.bind fun items hi => .ok ⟨items, rfl, hi⟩

/-- Does the operator work on the items of one source, one operator at a time? -/
def Operator.isSingle : Operator → Bool
  | zip | join | groupJoin | orderBy | orderByDescending | thenBy | thenByDescending => false
  | _ => true

theorem Operator.isOrdering_of_isSingle {operator : Operator} (h : operator.isSingle = true) :
    operator.isOrdering = false := by
  cases operator <;> first | rfl | cases h

theorem Query.run_of_not_isOrdering {c : Call} (h : c.operator.isOrdering = false) :
    Query.run (.call c) = c.runOperator := by
  rw [Query.run, if_neg (by simp [h])]

/-- An operator with one source works on the items of the source. -/
theorem Query.run_onItems {operator : Operator} {shape : Shape} {typeArgs : List Ty} {q : Query}
    {rest : List Argument} {type : Ty} (hop : operator.isSingle = true) :
    Query.run (.call ⟨operator, shape, typeArgs, .query q :: rest, type⟩) =
      Argument.itemsAt operator 0 (.query q :: rest) 0 >>=
        Call.onItems ⟨operator, shape, typeArgs, .query q :: rest, type⟩ := by
  rw [run_of_not_isOrdering (Operator.isOrdering_of_isSingle hop), Call.runOperator]
  cases operator <;> first | rfl | cases hop

/-- Over a tree that gives items it works on these. -/
theorem Query.run_of_items {operator : Operator} {shape : Shape} {typeArgs : List Ty} {q : Query}
    {rest : List Argument} {type : Ty} {items : List Value} (hop : operator.isSingle = true)
    (hq : q.run = .ok (.sequence items)) :
    Query.run (.call ⟨operator, shape, typeArgs, .query q :: rest, type⟩) =
      Call.onItems ⟨operator, shape, typeArgs, .query q :: rest, type⟩ items := by
  rw [run_onItems hop, Argument.itemsAt, hq]
  rfl

theorem Query.run_root (t : Ty) (values : List Value) :
    (Query.root t values).run = .ok (.sequence values) := by
  rw [Query.run]

/-! ### Groups of pairs -/

/-- The groups of pairs as groupings. -/
theorem groupings_belong {k e : Ty} {pairs : List (Value × Value)}
    (hp : ∀ pair ∈ pairs, Value.Belongs pair.1 k ∧ Value.Belongs pair.2 e) :
    AllBelong ((Collection.groupPairs pairs).map fun (key, vs) => .grouping key vs)
      (.grouping k e) := by
  intro v hv
  obtain ⟨g, hg, rfl⟩ := List.mem_map.mp hv
  obtain ⟨hkey, hall⟩ := Collection.groupPairs_all (P := (·.Belongs k)) (Q := (·.Belongs e)) hp g hg
  exact .grouping hkey hall

/-- The groups of pairs as results computed from them. -/
theorem groupResults_ordinary {k e u : Ty} {result : Lambda}
    (hr : result.HasType [k, .sequence e] u)
    {pairs : List (Value × Value)}
    (hp : ∀ pair ∈ pairs, Value.Belongs pair.1 k ∧ Value.Belongs pair.2 e) :
    Ordinary (AllBelong · u)
      (Each.map (fun (key, vs) => result.on [key, .sequence vs]) (Collection.groupPairs pairs)) :=
  .each_map fun g hg => by
    obtain ⟨hkey, hall⟩ :=
      Collection.groupPairs_all (P := (·.Belongs k)) (Q := (·.Belongs e)) hp g hg
    exact hr.on (.cons hkey (.cons (.sequence hall) .nil))

/-! ### One source -/

section OneSource

variable {operator : Operator} {shape : Shape} {typeArgs : List Ty} {q : Query} {type t u k e : Ty}
  {l : Lambda} {items values : List Value} {v : Value} (hi : AllBelong items t)

include hi

theorem filtering_ordinary
    (hop : operator = .filter ∨ operator = .takeWhile ∨ operator = .skipWhile)
    (hl : l.HasType [t] .bool) :
    Ordinary (Value.ListOf t)
      (Call.onItems ⟨operator, .predicate, typeArgs, [.query q, .function l], type⟩ items) := by
  have htest : ∀ v ∈ items, Ordinary (fun _ => True) (l.accepts v) :=
    fun v hv => hl.accepts (hi v hv)
  have hkept : ∀ kept : List Value, (∀ v ∈ kept, v ∈ items) → AllBelong kept t :=
    fun kept hk v hv => hi v (hk v hv)
  rcases hop with rfl | rfl | rfl
  · exact ((Within.each_keep htest).imp hkept).asSequence
  · exact ((Within.each_takeWhile htest).imp hkept).asSequence
  · exact ((Within.each_dropWhile htest).imp hkept).asSequence

theorem counting_ordinary (hop : operator = .take ∨ operator = .skip) {n : Int32} :
    Ordinary (Value.ListOf t)
      (Call.onItems ⟨operator, .count, typeArgs, [.query q, .constant (.int n) .int], type⟩
        items) := by
  rcases hop with rfl | rfl
  · exact .ok ⟨_, rfl, fun v hv => hi v (List.mem_of_mem_take hv)⟩
  · exact .ok ⟨_, rfl, fun v hv => hi v (List.mem_of_mem_drop hv)⟩

theorem bare_ordinary
    (hop : operator = .distinct ∨ operator = .reverse ∨ operator = .defaultIfEmpty) :
    Ordinary (Value.ListOf t)
      (Call.onItems ⟨operator, .none, [t], [.query q], type⟩ items) := by
  rcases hop with rfl | rfl | rfl
  · exact .ok ⟨_, rfl, fun v hv => hi v (Collection.mem_of_mem_distinct hv)⟩
  · exact .ok ⟨_, rfl, fun v hv => hi v (List.mem_reverse.mp hv)⟩
  · cases items with
    | nil => exact .ok ⟨_, rfl, by simpa [AllBelong] using t.default_belongs⟩
    | cons w ws => exact .ok ⟨_, rfl, hi⟩

theorem orElse_ordinary (hv : v.Belongs t) :
    Ordinary (Value.ListOf t)
      (Call.onItems ⟨.defaultIfEmpty, .element, typeArgs, [.query q, .constant v u], type⟩
        items) := by
  cases items with
  | nil => exact .ok ⟨_, rfl, by simpa [AllBelong] using hv⟩
  | cons w ws => exact .ok ⟨_, rfl, hi⟩

theorem listing_ordinary
    (hop : operator = .concat ∨ operator = .union ∨ operator = .intersect ∨ operator = .except)
    (hvs : AllBelong values t) :
    Ordinary (Value.ListOf t)
      (Call.onItems ⟨operator, .sequence, typeArgs,
        [.query q, .constant (.sequence values) u], type⟩ items) := by
  have hall : AllBelong (items ++ values) t := List.forall_mem_append.mpr ⟨hi, hvs⟩
  have hsome : ∀ p : Value → Bool, AllBelong (Collection.distinct (items.filter p)) t :=
    fun p v hv => hi v (List.mem_of_mem_filter (Collection.mem_of_mem_distinct hv))
  rcases hop with rfl | rfl | rfl | rfl
  · exact .ok ⟨_, rfl, hall⟩
  · exact .ok ⟨_, rfl, fun v hv => hall v (Collection.mem_of_mem_distinct hv)⟩
  · exact .ok ⟨_, rfl, hsome _⟩
  · exact .ok ⟨_, rfl, hsome _⟩

theorem select_ordinary (hl : l.HasType [t] u) :
    Ordinary (Value.ListOf u)
      (Call.onItems ⟨.select, .selector, typeArgs, [.query q, .function l], type⟩ items) :=
  (hl.onEach hi).asSequence

theorem selectMany_ordinary (hl : l.HasType [t] (.sequence u)) :
    Ordinary (Value.ListOf u)
      (Call.onItems ⟨.selectMany, .selector, typeArgs, [.query q, .function l], type⟩ items) := by
  have hinner : ∀ v ∈ items, Ordinary (AllBelong · u) (l.on [v] >>= Call.innerItems) := by
    intro v hv
    refine (hl.on (.cons (hi v hv) .nil)).bind fun w hw => ?_
    rcases hw.elements rfl with rfl | ⟨inner, hinner, hall⟩
    · exact .error rfl
    · cases w with
      | null => exact .error rfl
      | _ =>
          simp only [Call.innerItems, hinner]
          exact .ok hall
  refine (Within.each_map hinner).bind fun lists hlists => .ok ⟨_, rfl, ?_⟩
  intro v hv
  obtain ⟨inner, hm, hv⟩ := List.mem_flatten.mp hv
  exact hlists inner hm v hv

/-! ### Groups -/

/-- The keys of the items, each with a value of the item. -/
theorem pairs_ordinary {key : Lambda} (hk : key.HasType [t] k) {f : Value → QueryResult Value}
    (hf : ∀ v ∈ items, Ordinary (·.Belongs e) (f v)) :
    Ordinary (fun pairs => ∀ pair ∈ pairs, Value.Belongs pair.1 k ∧ Value.Belongs pair.2 e)
      (Each.map (fun v => do let key ← key.on [v]; return (key, ← f v)) items) :=
  .each_map fun v hv => (hk.on (.cons (hi v hv) .nil)).bind fun _ hkey =>
    (hf v hv).bind fun _ he => .ok ⟨hkey, he⟩

theorem group_ordinary {key : Lambda} (hk : key.HasType [t] k) :
    Ordinary (Value.ListOf (.grouping k t))
      (Call.onItems ⟨.groupBy, .selector, typeArgs, [.query q, .function key], type⟩ items) :=
  Within.asSequence <| (pairs_ordinary hi hk (f := pure) fun v hv => .ok (hi v hv)).bind
    fun _ hp => .ok (groupings_belong hp)

theorem groupElement_ordinary {key element : Lambda} (hk : key.HasType [t] k)
    (he : element.HasType [t] e) :
    Ordinary (Value.ListOf (.grouping k e))
      (Call.onItems ⟨.groupBy, .keyElement, typeArgs,
        [.query q, .function key, .function element], type⟩ items) :=
  Within.asSequence <|
    (pairs_ordinary hi hk fun v hv => he.on (.cons (hi v hv) .nil)).bind
      fun _ hp => .ok (groupings_belong hp)

theorem groupResult_ordinary {key result : Lambda} (hk : key.HasType [t] k)
    (hr : result.HasType [k, .sequence t] u) :
    Ordinary (Value.ListOf u)
      (Call.onItems ⟨.groupBy, .keyResult, typeArgs,
        [.query q, .function key, .function result], type⟩ items) :=
  Within.asSequence <| (pairs_ordinary hi hk (f := pure) fun v hv => .ok (hi v hv)).bind
    fun _ hp => groupResults_ordinary hr hp

theorem groupElementResult_ordinary {key element result : Lambda} (hk : key.HasType [t] k)
    (he : element.HasType [t] e) (hr : result.HasType [k, .sequence e] u) :
    Ordinary (Value.ListOf u)
      (Call.onItems ⟨.groupBy, .keyElementResult, typeArgs,
        [.query q, .function key, .function element, .function result], type⟩ items) :=
  Within.asSequence <|
    (pairs_ordinary hi hk fun v hv => he.on (.cons (hi v hv) .nil)).bind
      fun _ hp => groupResults_ordinary hr hp

/-! ### Values -/

/-- What an operator gives of elements that have been chosen. -/
theorem choose_ordinary {args : List Argument} {r : Ty}
    (hop : operator.chosenType t = some r) :
    Ordinary (·.Belongs r) (Call.choose ⟨operator, shape, [t], args, type⟩ items) := by
  cases operator <;> cases hop
  case count =>
    -- taken apart by hand, for the bound of a count is too great to compute with
    rw [Call.choose]
    refine Within.bind (P := fun _ => True) (.ok trivial) fun _ _ => ?_
    exact ordinary_ofCollection (Collection.count_within items.length) fun e he => he ▸ rfl
  case longCount => exact .ok (.long (Int64.ofNat items.length))
  case any => exact .ok (.bool _)
  case first => exact ordinary_ofCollection (Collection.first_within hi) fun e he => he ▸ rfl
  case firstOrDefault => exact .ok (Collection.firstOrDefault_belongs hi)
  case single =>
    refine ordinary_ofCollection (Collection.single_within hi) ?_
    rintro e (rfl | rfl) <;> rfl
  case singleOrDefault =>
    exact ordinary_ofCollection (Collection.singleOrDefault_within hi) fun e he => he ▸ rfl
  case last => exact ordinary_ofCollection (Collection.last_within hi) fun e he => he ▸ rfl
  case lastOrDefault => exact .ok (Collection.lastOrDefault_belongs hi)

theorem chosen_ordinary {r : Ty} (hop : operator.chosenType t = some r) :
    Ordinary (·.Belongs r) (Call.onItems ⟨operator, .none, [t], [.query q], type⟩ items) := by
  have h : Ordinary (·.Belongs r) (Call.choose ⟨operator, .none, [t], [.query q], type⟩ items) :=
    choose_ordinary hi hop
  cases operator <;> first | exact h | cases hop

theorem chosenWhere_ordinary {r : Ty} (hop : operator.chosenType t = some r)
    (hl : l.HasType [t] .bool) :
    Ordinary (·.Belongs r)
      (Call.onItems ⟨operator, .predicate, [t], [.query q, .function l], type⟩ items) := by
  have htest : ∀ v ∈ items, Ordinary (fun _ => True) (l.accepts v) :=
    fun v hv => hl.accepts (hi v hv)
  have h : Ordinary (·.Belongs r) (Each.keep l.accepts items >>= fun kept =>
      Call.choose ⟨operator, .predicate, [t], [.query q, .function l], type⟩ kept) :=
    (Within.each_keep htest).bind fun kept hk => choose_ordinary (fun v hv => hi v (hk v hv)) hop
  cases operator <;> first | exact h | cases hop

theorem all_ordinary (hl : l.HasType [t] .bool) :
    Ordinary (·.Belongs .bool)
      (Call.onItems ⟨.all, .predicate, typeArgs, [.query q, .function l], type⟩ items) :=
  (Within.each_all fun v hv => hl.accepts (hi v hv)).bind fun b _ => .ok (.bool b)

theorem place_ordinary (hop : operator = .elementAt ∨ operator = .elementAtOrDefault) {n : Int32} :
    Ordinary (·.Belongs t)
      (Call.onItems ⟨operator, .count, [t], [.query q, .constant (.int n) .int], type⟩ items) := by
  rcases hop with rfl | rfl
  · exact ordinary_ofCollection (Collection.elementAt_within hi n.toInt) fun e he => he ▸ rfl
  · exact .ok (Collection.elementAtOrDefault_belongs hi n.toInt)

theorem total_ordinary {n r : Ty} (hop : operator.totalType n = some r) (hn : n.isNumeric = true)
    (ht : ∀ v : Value, v.Belongs t → v.Belongs n) :
    Ordinary (·.Belongs r) (Call.onItems ⟨operator, .none, typeArgs, [.query q], r⟩ items) := by
  have hall : AllBelong items n := fun v hv => ht v (hi v hv)
  cases operator <;> cases hop
  case sum => exact ordinary_ofCollection (Collection.sum_within hall hn) fun e he => he ▸ rfl
  case average =>
    exact ordinary_ofCollection (Collection.average_within hall hn) fun e he => he ▸ rfl

theorem totalOf_ordinary {n r : Ty} (hop : operator.totalType n = some r)
    (hn : n.isNumeric = true) (hl : l.HasType [t] n) :
    Ordinary (·.Belongs r)
      (Call.onItems ⟨operator, .selector, typeArgs, [.query q, .function l], r⟩ items) := by
  cases operator <;> cases hop
  case sum =>
    exact (hl.onEach hi).bind fun values hall =>
      ordinary_ofCollection (Collection.sum_within hall hn) fun e he => he ▸ rfl
  case average =>
    exact (hl.onEach hi).bind fun values hall =>
      ordinary_ofCollection (Collection.average_within hall hn) fun e he => he ▸ rfl

theorem extreme_ordinary (hop : operator = .min ∨ operator = .max) :
    Ordinary (·.Belongs t) (Call.onItems ⟨operator, .none, typeArgs, [.query q], t⟩ items) := by
  rcases hop with rfl | rfl <;>
    exact ordinary_ofCollection (Collection.extreme_within _ hi) fun e he => he ▸ rfl

theorem extremeOf_ordinary (hop : operator = .min ∨ operator = .max) (hl : l.HasType [t] u) :
    Ordinary (·.Belongs u)
      (Call.onItems ⟨operator, .selector, typeArgs, [.query q, .function l], u⟩ items) := by
  rcases hop with rfl | rfl <;>
    exact (hl.onEach hi).bind fun values hall =>
      ordinary_ofCollection (Collection.extreme_within _ hall) fun e he => he ▸ rfl

/-! ### Folds -/

theorem fold_ordinary (hl : l.HasType [t, t] t) :
    Ordinary (·.Belongs t)
      (Call.onItems ⟨.aggregate, .unseeded, typeArgs, [.query q, .function l], type⟩ items) := by
  cases items with
  | nil => exact .error rfl
  | cons v vs =>
      obtain ⟨hv, hvs⟩ := List.forall_mem_cons.mp hi
      exact Within.each_fold hv fun acc ha w hw => hl.on (.cons ha (.cons (hvs w hw) .nil))

theorem foldFrom_ordinary (hv : v.Belongs u) (hl : l.HasType [u, t] u) :
    Ordinary (·.Belongs u)
      (Call.onItems ⟨.aggregate, .seeded, typeArgs, [.query q, .constant v u, .function l], type⟩
        items) := by
  have hstep : ∀ acc : Value, acc.Belongs u → ∀ w ∈ items, Ordinary (·.Belongs u) (l.on [acc, w]) :=
    fun acc ha w hw => hl.on (.cons ha (.cons (hi w hw) .nil))
  exact (Within.each_fold (Q := (·.Belongs u)) hv hstep).bind fun total ht => .ok ht

theorem foldInto_ordinary {w : Ty} {result : Lambda} (hv : v.Belongs u) (hl : l.HasType [u, t] u)
    (hr : result.HasType [u] w) :
    Ordinary (·.Belongs w)
      (Call.onItems ⟨.aggregate, .seededResult, typeArgs,
        [.query q, .constant v u, .function l, .function result], type⟩ items) := by
  have hstep : ∀ acc : Value, acc.Belongs u → ∀ w ∈ items, Ordinary (·.Belongs u) (l.on [acc, w]) :=
    fun acc ha w hw => hl.on (.cons ha (.cons (hi w hw) .nil))
  exact (Within.each_fold (Q := (·.Belongs u)) hv hstep).bind fun total ht =>
    hr.on (.cons ht .nil)

end OneSource

/-! ### Two sources -/

section TwoSources

variable {typeArgs : List Ty} {type t s k u : Ty} {q i : Query} {result : Lambda}
  {operator : Operator} {args : List Argument}

/-- A pair of items at the same places, as far as both lists go. -/
theorem zipItems_ordinary {outer inner : List Value} (ho : AllBelong outer t)
    (hi : AllBelong inner s) (hr : result.HasType [t, s] u) :
    Ordinary (AllBelong · u)
      (Call.zipItems ⟨.zip, .zip, typeArgs, [.query q, .query i, .function result], type⟩
        outer inner) :=
  Within.each_map fun pair hp => by
    obtain ⟨hp, hp'⟩ := List.of_mem_zip hp
    exact hr.on (.cons (ho _ hp) (.cons (hi _ hp') .nil))

/-- The inner items by their keys, as a join looks them up. -/
theorem keyed_ordinary {innerKey : Lambda} {inner : List Value} (hi : AllBelong inner s)
    (hn : innerKey.HasType [s] k) :
    Ordinary (fun pairs => ∀ pair ∈ pairs, Value.Belongs pair.2 s)
      (Each.map (fun u => do return (← innerKey.on [u], u)) inner) :=
  Within.each_map fun v hv => (hn.on (.cons (hi v hv) .nil)).bind fun _ _ => .ok (hi v hv)

/-- What a join looks up for a key. -/
theorem matches_belong {pairs : List (Value × Value)} (hp : ∀ pair ∈ pairs, Value.Belongs pair.2 s)
    (key : Value) :
    AllBelong (if key.isNull then [] else Collection.matching (Collection.lookup pairs) key) s := by
  split
  · intro v hv
    cases hv
  · exact Collection.matching_lookup_all (Q := (·.Belongs s)) hp

theorem joinItems_ordinary {outerKey innerKey : Lambda} {outer inner : List Value}
    (ho : AllBelong outer t) (hi : AllBelong inner s) (hk : outerKey.HasType [t] k)
    (hn : innerKey.HasType [s] k) (hr : result.HasType [t, s] u) :
    Ordinary (AllBelong · u)
      (Call.joinItems ⟨.join, .keyed, typeArgs, [.query q, .query i, .function outerKey,
        .function innerKey, .function result], type⟩ outer inner) := by
  refine (keyed_ordinary hi hn).bind fun pairs hp => ?_
  refine (Within.each_map (Q := (AllBelong · u)) fun v hv => ?_).bind fun lists hl => .ok ?_
  · refine (hk.on (.cons (ho v hv) .nil)).bind fun key _ => ?_
    exact Within.each_map fun w hw =>
      hr.on (.cons (ho v hv) (.cons (matches_belong hp key w hw) .nil))
  · intro v hv
    obtain ⟨list, hm, hv⟩ := List.mem_flatten.mp hv
    exact hl list hm v hv

theorem groupJoinItems_ordinary {outerKey innerKey : Lambda} {outer inner : List Value}
    (ho : AllBelong outer t) (hi : AllBelong inner s) (hk : outerKey.HasType [t] k)
    (hn : innerKey.HasType [s] k) (hr : result.HasType [t, .sequence s] u) :
    Ordinary (AllBelong · u)
      (Call.joinItems ⟨.groupJoin, .keyed, typeArgs, [.query q, .query i, .function outerKey,
        .function innerKey, .function result], type⟩ outer inner) := by
  refine (keyed_ordinary hi hn).bind fun pairs hp => ?_
  refine (Within.each_map (Q := (AllBelong · u)) fun v hv => ?_).bind fun lists hl => .ok ?_
  · refine (hk.on (.cons (ho v hv) .nil)).bind fun key _ => ?_
    refine (hr.on (.cons (ho v hv) (.cons (.sequence (matches_belong hp key)) .nil))).bind ?_
    intro r hr
    exact .ok (List.forall_mem_singleton.mpr hr)
  · intro v hv
    obtain ⟨list, hm, hv⟩ := List.mem_flatten.mp hv
    exact hl list hm v hv

end TwoSources

/-! ### Orderings -/

/-- The call is a chain of orderings over items of the type: each link has a key of the items. -/
def Call.Chains (t : Ty) (c : Call) : Prop :=
  ∃ links items, c.chain = .ok (links, items) ∧
    (∀ link ∈ links, ∃ l u, link.function 1 = .ok l ∧ l.HasType [t] u) ∧
    Within (Query.call c).CanFail (AllBelong · t) items

/-- Each item gets a row with a key for each link. -/
theorem keyRows_ordinary {t : Ty} {links : List Call}
    (hlinks : ∀ link ∈ links, ∃ l u, link.function 1 = .ok l ∧ l.HasType [t] u)
    {items : List Value} (hi : AllBelong items t) :
    Ordinary (fun rows => ∀ row ∈ rows, row.1.length = links.length ∧ Value.Belongs row.2 t)
      (Call.keyRows links items) := by
  refine Within.each_map fun v hv => ?_
  have hlink : ∀ c ∈ links, Ordinary (fun _ => True) (do (← c.function 1).on [v]) := by
    intro c hc
    obtain ⟨l, u, hl, ht⟩ := hlinks c hc
    rw [hl]
    exact (ht.on (.cons (hi v hv) .nil)).imp fun _ _ => trivial
  exact (Within.each_map_length hlink).bind fun keys hkeys => .ok ⟨hkeys, hi v hv⟩

/-- Sorting keeps the items: their keys are computed, and their rows change places.  It halts only
if the keys collide. -/
theorem sortItems_within {t : Ty} {links : List Call}
    (hlinks : ∀ link ∈ links, ∃ l u, link.function 1 = .ok l ∧ l.HasType [t] u)
    {items : List Value} (hi : AllBelong items t) :
    Within (fun e => e.isOrdinary = true ∨ e = .halted ∧
        ∃ rows, Call.keyRows links items = .ok rows ∧ Collection.KeysCollide rows)
      (AllBelong · t) (Call.sortItems links items) := by
  have hkeys := keyRows_ordinary hlinks hi
  cases hrows : Call.keyRows links items with
  | error e =>
      rw [Call.sortItems, hrows]
      rw [hrows] at hkeys
      cases hkeys with
      | error he => exact .error (.inl he)
  | ok rows =>
      rw [hrows] at hkeys
      cases hkeys with
      | ok hkeys =>
          cases hsorted :
              Collection.sortByKeys (links.map fun c => c.operator.isDescending) rows with
          | some sorted =>
              rw [Call.sortItems_of_some hrows hsorted]
              refine .ok fun v hv => ?_
              obtain ⟨row, hrow, rfl⟩ :=
                List.mem_map.mp ((Collection.sortByKeys_perm hsorted).mem_iff.mp hv)
              exact (hkeys row hrow).2
          | none =>
              rw [Call.sortItems_of_none hrows hsorted]
              exact .error (.inr ⟨rfl, rows, rfl, Collection.keysCollide_of_sortByKeys
                (fun row hrow => (hkeys row hrow).1) hsorted⟩)

theorem Call.Chains.run {t : Ty} {c : Call} (h : c.Chains t) (ho : c.operator.isOrdering = true) :
    Query.Runs t (.call c) := by
  obtain ⟨links, items, hc, hlinks, hitems⟩ := h
  rw [Query.Runs]
  rw [Query.run, if_pos ho, hc]
  change Within _ _ (items >>= fun vs => Call.sortItems links vs >>= fun sorted =>
    pure (Value.sequence sorted))
  cases hitems with
  | error he => exact .error he
  | @ok vs hvs =>
      refine ((sortItems_within hlinks hvs).mono ?_ fun _ h => h).asSequence
      rintro e (he | ⟨rfl, rows, hrows, hcollide⟩)
      · exact .of_ordinary he
      · exact .inr ⟨rfl, c, .top, ho, links, vs, rows, hc, hrows, hcollide⟩

/-- A call that starts an ordering is a chain of one link. -/
theorem Call.chains_of_ordering {t u : Ty} {q : Query} {operator : Operator} {l : Lambda}
    {typeArgs : List Ty} {type : Ty} (hop : operator = .orderBy ∨ operator = .orderByDescending)
    (hq : q.Runs t) (hl : l.HasType [t] u) :
    Call.Chains t ⟨operator, .selector, typeArgs, [.query q, .function l], type⟩ := by
  refine ⟨[⟨operator, .selector, typeArgs, [.query q, .function l], type⟩],
    Argument.itemsAt operator 0 [.query q, .function l] 0, ?_, ?_,
    hq.items (List.mem_cons_self ..)⟩
  · rw [Call.chain.eq_def]
    rcases hop with rfl | rfl <;> rfl
  · exact List.forall_mem_singleton.mpr ⟨l, u, rfl, hl⟩

/-- A call that refines a chain is a chain of one more link. -/
theorem Call.chains_of_refining {t u : Ty} {c : Call} {operator : Operator} {l : Lambda}
    {typeArgs : List Ty} {type : Ty} (hop : operator = .thenBy ∨ operator = .thenByDescending)
    (ho : c.operator.isOrdering = true) (hc : c.Chains t) (hl : l.HasType [t] u) :
    Call.Chains t ⟨operator, .selector, typeArgs, [.query (.call c), .function l], type⟩ := by
  obtain ⟨links, items, hchain, hlinks, hitems⟩ := hc
  refine ⟨links ++ [⟨operator, .selector, typeArgs, [.query (.call c), .function l], type⟩], items,
    ?_, ?_, hitems.mono (fun _ => .of_argument (List.mem_cons_self ..)) fun _ hv => hv⟩
  · rw [Call.chain, if_pos (by rcases hop with rfl | rfl <;> rfl), if_pos ho, hchain]
    rfl
  · exact List.forall_mem_append.mpr ⟨hlinks, List.forall_mem_singleton.mpr ⟨l, u, rfl, hl⟩⟩

/-! ### Runs of typed trees -/

namespace Query

variable {t s u k : Ty} {q i : Query} {operator : Operator} {shape : Shape} {typeArgs : List Ty}
  {rest : List Argument} {type : Ty}

/-- The chain of a tree is there when the tree is a call that orders. -/
def Chained (t : Ty) (q : Query) : Prop :=
  ∀ c, q = .call c → c.operator.isOrdering = true → c.Chains t

theorem chained_of_not_isOrdering {c : Call} (h : c.operator.isOrdering = false) :
    Chained t (.call c) := by
  rintro c' ⟨⟩ ho
  rw [h] at ho
  cases ho

theorem ordered_of_chains {c : Call} (h : c.Chains t) (ho : c.operator.isOrdering = true) :
    Runs t (.call c) ∧ Chained t (.call c) := by
  refine ⟨h.run ho, ?_⟩
  rintro c' ⟨⟩ -
  exact h

/-- An operator with one source, run after its source. -/
theorem Runs.onItems {P : Value → Prop} (h : q.Runs t) (hop : operator.isSingle = true)
    (hi : ∀ items, AllBelong items t →
      Ordinary P (Call.onItems ⟨operator, shape, typeArgs, .query q :: rest, type⟩ items)) :
    Within (Query.call ⟨operator, shape, typeArgs, .query q :: rest, type⟩).CanFail P
      (run (.call ⟨operator, shape, typeArgs, .query q :: rest, type⟩)) := by
  rw [run_onItems hop]
  exact (h.items (List.mem_cons_self ..)).bind fun items hitems =>
    (hi items hitems).mono (fun _ => .of_ordinary) fun _ hv => hv

theorem Runs.single (h : q.Runs t) (hop : operator.isSingle = true)
    (hi : ∀ items, AllBelong items t → Ordinary (Value.ListOf u)
      (Call.onItems ⟨operator, shape, typeArgs, .query q :: rest, type⟩ items)) :
    Runs u (.call ⟨operator, shape, typeArgs, .query q :: rest, type⟩) ∧
      Chained u (.call ⟨operator, shape, typeArgs, .query q :: rest, type⟩) :=
  ⟨h.onItems hop hi, chained_of_not_isOrdering (Operator.isOrdering_of_isSingle hop)⟩

/-- An operator with two sources, run after both. -/
theorem Runs.double {f : List Value → List Value → QueryResult (List Value)} {c : Call}
    (hq : q.Runs t) (hi : i.Runs s) (hc : c.operator.isOrdering = false)
    (hargs : c.args = .query q :: .query i :: rest)
    (hrun : c.runOperator = Argument.itemsAt c.operator 0 (.query q :: .query i :: rest) 0 >>=
      fun outer => Argument.itemsAt c.operator 1 (.query q :: .query i :: rest) 1 >>=
        fun inner => f outer inner >>= fun items => pure (Value.sequence items))
    (hf : ∀ outer inner, AllBelong outer t → AllBelong inner s →
      Ordinary (AllBelong · u) (f outer inner)) :
    Runs u (.call c) ∧ Chained u (.call c) := by
  refine ⟨?_, chained_of_not_isOrdering hc⟩
  rw [Runs]
  rw [run_of_not_isOrdering hc, hrun]
  refine (hq.items (by simp [hargs])).bind fun outer ho => ?_
  rw [Argument.itemsAt]
  refine (hi.items (by simp [hargs])).bind fun inner hn => ?_
  exact ((hf outer inner ho hn).mono (fun _ => .of_ordinary) fun _ hv => hv).asSequence

/-- **A typed tree gives elements of its type.**  The induction is on the rules, and says of
orderings that their chains are there as well, for the orderings that refine them. -/
theorem Lists.runs_and_chained (h : q.Lists t) : q.Runs t ∧ q.Chained t := by
  induction h with
  | root h =>
      -- values are no call, so there is no chain to speak of
      refine ⟨.ok ⟨_, rfl, h⟩, ?_⟩
      intro c hc
      cases hc
  | filtering hop _ hl ih =>
      exact ih.1.single (by rcases hop with rfl | rfl | rfl <;> rfl) fun items hi =>
        filtering_ordinary hi hop hl
  | counting hop _ ih =>
      exact ih.1.single (by rcases hop with rfl | rfl <;> rfl) fun items hi =>
        counting_ordinary hi hop
  | bare hop _ ih =>
      exact ih.1.single (by rcases hop with rfl | rfl | rfl <;> rfl) fun items hi =>
        bare_ordinary hi hop
  | orElse _ hv ih => exact ih.1.single rfl fun items hi => orElse_ordinary hi hv
  | listing hop _ hvs ih =>
      exact ih.1.single (by rcases hop with rfl | rfl | rfl | rfl <;> rfl) fun items hi =>
        listing_ordinary hi hop hvs
  | select _ hl ih => exact ih.1.single rfl fun items hi => select_ordinary hi hl
  | selectMany _ hl ih => exact ih.1.single rfl fun items hi => selectMany_ordinary hi hl
  | ordering hop _ hl ih =>
      exact ordered_of_chains (Call.chains_of_ordering hop ih.1 hl)
        (by rcases hop with rfl | rfl <;> rfl)
  | refining hop ho _ hl ih =>
      -- a refinement has a chain because the ordering under it has one
      exact ordered_of_chains (Call.chains_of_refining hop ho (ih.2 _ rfl ho) hl)
        (by rcases hop with rfl | rfl <;> rfl)
  | group _ hk ih => exact ih.1.single rfl fun items hi => group_ordinary hi hk
  | groupElement _ hk he ih =>
      exact ih.1.single rfl fun items hi => groupElement_ordinary hi hk he
  | groupResult _ hk hr ih =>
      exact ih.1.single rfl fun items hi => groupResult_ordinary hi hk hr
  | groupElementResult _ hk he hr ih =>
      exact ih.1.single rfl fun items hi => groupElementResult_ordinary hi hk he hr
  | join _ _ ho hn hr ihq ihi =>
      exact ihq.1.double ihi.1 rfl rfl (by rw [Call.runOperator]) fun outer inner hto hti =>
        joinItems_ordinary hto hti ho hn hr
  | groupJoin _ _ ho hn hr ihq ihi =>
      exact ihq.1.double ihi.1 rfl rfl (by rw [Call.runOperator]) fun outer inner hto hti =>
        groupJoinItems_ordinary hto hti ho hn hr
  | zip _ _ hr ihq ihi =>
      exact ihq.1.double ihi.1 rfl rfl (by rw [Call.runOperator]) fun outer inner hto hti =>
        zipItems_ordinary hto hti hr

theorem Lists.runs (h : q.Lists t) : q.Runs t := h.runs_and_chained.1

end Query

/-- **A typed call of an eager operator gives a value of its type.** -/
theorem Call.Gives.run {r : Ty} {c : Call} (h : c.Gives r) :
    Within (Query.call c).CanFail (·.Belongs r) (Query.run (.call c)) := by
  cases h with
  | @chosen _ _ _ operator hop hq =>
      refine hq.runs.onItems ?_ fun items hi => chosen_ordinary hi hop
      cases operator <;> first | rfl | cases hop
  | @chosenWhere _ _ _ operator _ hop hq hl =>
      refine hq.runs.onItems ?_ fun items hi => chosenWhere_ordinary hi hop hl
      cases operator <;> first | rfl | cases hop
  | all hq hl => exact hq.runs.onItems rfl fun items hi => all_ordinary hi hl
  | place hop hq =>
      exact hq.runs.onItems (by rcases hop with rfl | rfl <;> rfl) fun items hi =>
        place_ordinary hi hop
  | contains hq => exact hq.runs.onItems rfl fun items hi => .ok (.bool _)
  | sequenceEqual hq => exact hq.runs.onItems rfl fun items hi => .ok (.bool _)
  | @total _ _ _ _ operator hop hn hq ht =>
      refine hq.runs.onItems ?_ fun items hi => total_ordinary hi hop hn ht
      cases operator <;> first | rfl | cases hop
  | @totalOf _ _ _ _ operator _ hop hn hq hl =>
      refine hq.runs.onItems ?_ fun items hi => totalOf_ordinary hi hop hn hl
      cases operator <;> first | rfl | cases hop
  | extreme hop hq =>
      exact hq.runs.onItems (by rcases hop with rfl | rfl <;> rfl) fun items hi =>
        extreme_ordinary hi hop
  | extremeOf hop hq hl =>
      exact hq.runs.onItems (by rcases hop with rfl | rfl <;> rfl) fun items hi =>
        extremeOf_ordinary hi hop hl
  | fold hq hl => exact hq.runs.onItems rfl fun items hi => fold_ordinary hi hl
  | foldFrom hq hv hl => exact hq.runs.onItems rfl fun items hi => foldFrom_ordinary hi hv hl
  | foldInto hq hv hl hr =>
      exact hq.runs.onItems rfl fun items hi => foldInto_ordinary hi hv hl hr

/-! ### Reachable sources and built calls -/

theorem Source.toList_within {s : Source} (h : s.query.Runs s.element) :
    Within s.query.CanFail (AllBelong · s.element) s.toList := by
  rw [Source.toList]
  refine Within.bind h ?_
  rintro v ⟨items, rfl, hi⟩
  exact .ok hi

/-- **Pipelines are sound, but for sorts that halt.**  A source that can be reached lists values of
its element type, and a built call of an eager operator gives a value of the type of the call; what
fails, fails with an ordinary error.  All this holds exactly where the run does not halt, and so
wherever no ordering in the tree has keys that collide. -/
theorem Source.reachable_sound (s : Source) (c : Call) :
    (s.Reachable → s.query.Sound (AllBelong · s.element) s.toList) ∧
      (c.Built → c.operator.execution = .eager →
        (Query.call c).Sound (·.Belongs c.type) (computeCall c)) := by
  refine ⟨fun hs => (toList_within hs.typed.runs).sound, ?_⟩
  intro hc he
  have hexpect : c.operator.expect .eager = .ok () := if_pos he
  rw [computeCall]
  rw [hexpect]
  rcases hc.typed with ⟨t, hl⟩ | hg
  · rw [hl.lazy] at he
    cases he
  · exact Within.sound hg.run

/-- The numbers other than a bound one, and their sum: nothing in the tree is an ordering. -/
theorem Source.reachable_sound_others :
    ∃ s c, Reachable s ∧ Call.Built c ∧ c.operator.execution = .eager ∧
      (∀ d : Call, d.OccursIn (.call c) → ¬ d.SortsColliding) ∧
      Ordinary (AllBelong · s.element) s.toList ∧ Ordinary (·.Belongs c.type) (computeCall c) := by
  let b : Bindings := { Bindings.empty with values := [.int 2] }
  let other : Lambda :=
    .ofBody 0 [("it", .int)] (.binary .notEqual (.parameter 0 .int) (.constant (.int 2) .int) .bool)
  let root : Source := ⟨.int, .root .int [.int 6, .int 2, .int 4]⟩
  let filtering : Call := ⟨.filter, .predicate, [.int], [.query root.query, .function other],
    .query .int⟩
  let kept : Source := ⟨.int, .call filtering⟩
  let total : Call := ⟨.sum, .none, [], [.query kept.query], .int⟩
  have hb : b.All fun v => v.Belongs v.typeOf := by
    refine ⟨fun v hv => ?_, fun entry he => by cases he⟩
    rw [List.mem_singleton.mp hv]
    exact .int 2
  have hfilter : root.expressionCall .filter (some "it != @0") b = .ok filtering := by
    have htrim : Text.trim "it != @0" = "it != @0" := by cbv
    have hblank : Text.isBlankText "it != @0" = false := by cbv
    have hcompile : Lambda.compile "it != @0" [.int] b = .ok other := by cbv
    refine bind_eq_ok.mpr ⟨other, ?_, rfl⟩
    rw [Source.functionOf_of_text hblank, htrim]
    show (Lambda.compile "it != @0" [.int] b).mapError QueryError.compile = _
    rw [hcompile]
    rfl
  have hroot : root.Reachable :=
    @Reachable.ofValues .int [.int 6, .int 2, .int 4] _ (by decide) rfl
  have hkept : kept.Reachable := .derived (.expression hroot hb hfilter) rfl
  have htotal : Call.Built total :=
    .expression hkept hb (rfl : kept.expressionCall .sum none b = .ok total)
  have hplain : ∀ d : Call, d.OccursIn (.call total) → ¬ d.SortsColliding := by
    rintro d hd ⟨hordering, -⟩
    cases hd with
    | top => cases hordering
    | inside ha hd =>
        obtain rfl := Argument.query.inj (List.mem_singleton.mp ha)
        cases hd with
        | top => cases hordering
        | inside ha hd =>
            rcases List.mem_pair.mp ha with h | h
            · obtain rfl := Argument.query.inj h
              cases hd
            · cases h
  exact ⟨kept, total, hkept, htotal, rfl, hplain,
    ((reachable_sound kept total).1 hkept).ordinary fun d hd =>
      hplain d (.inside (List.mem_singleton.mpr rfl) hd),
    ((reachable_sound kept total).2 htotal rfl).ordinary hplain⟩

/-- A list of numbers that collide, sorted by themselves: the run halts. -/
theorem Source.reachable_halts :
    let a := Value.long 9007199254740993
    let b := Value.long 9007199254740992
    let x := Value.double (Double.ofInt 9007199254740992)
    ∃ root c s,
      ofValues .object [b, a, b, a, x, a, a, a, b, b, a, x, b, a, x, b, a, b, a, x, x] = .ok root ∧
      root.expressionCall .orderBy (some "it") .empty = .ok c ∧ deriveCall c = .ok s ∧
      s.Reachable ∧ s.toList = .error .halted ∧ ¬ Ordinary (AllBelong · s.element) s.toList := by
  intro a b x
  let values : List Value := [b, a, b, a, x, a, a, a, b, b, a, x, b, a, x, b, a, b, a, x, x]
  let it : Lambda := .ofBody 0 [("it", .object)] (.parameter 0 .object)
  let root : Source := ⟨.object, .root .object values⟩
  let c : Call := ⟨.orderBy, .selector, [.object, .object], [.query root.query, .function it],
    .orderedQuery .object⟩
  let s : Source := ⟨.object, .call c⟩
  have hvalues : ofValues .object values = .ok root := rfl
  have hcall : root.expressionCall .orderBy (some "it") .empty = .ok c := by
    have htrim : Text.trim "it" = "it" := by cbv
    have hblank : Text.isBlankText "it" = false := by cbv
    have hcompile : Lambda.compile "it" [.object] .empty = .ok it := by cbv
    refine bind_eq_ok.mpr ⟨it, ?_, rfl⟩
    rw [Source.functionOf_of_text hblank, htrim]
    show (Lambda.compile "it" [.object] .empty).mapError QueryError.compile = _
    rw [hcompile]
    rfl
  have hderive : deriveCall c = .ok s := rfl
  have hroot : root.Reachable := .ofValues (by decide) hvalues
  have hs : s.Reachable := by
    have hb : Bindings.empty.All fun v => v.Belongs v.typeOf :=
      ⟨fun _ hv => absurd hv List.not_mem_nil, fun _ he => absurd he List.not_mem_nil⟩
    exact .derived (.expression hroot hb hcall) hderive
  have hrows : Call.keyRows [c] values = .ok (values.map fun v => ([v], v)) := rfl
  have hsort : Collection.sortByKeys [false] (values.map fun v => ([v], v)) = none := by
    rw [← Option.isNone_iff_eq_none]
    decide +kernel
  have hchain : c.chain = .ok ([c], .ok values) := by
    rw [Call.chain.eq_def]
    rfl
  have hhalts : Call.sortItems [c] values = .error .halted := Call.sortItems_of_none hrows hsort
  have hrun : s.query.run = .error .halted := by
    have ho : c.operator.isOrdering = true := rfl
    show Query.run (.call c) = _
    rw [Query.run, if_pos ho, hchain]
    show Call.sortItems [c] values >>= (fun sorted => pure (Value.sequence sorted)) = _
    rw [hhalts]
    rfl
  have hlist : s.toList = .error .halted := by
    rw [toList, hrun]
    rfl
  refine ⟨root, c, s, hvalues, hcall, hderive, hs, hlist, ?_⟩
  rw [hlist]
  rintro (_ | h)
  cases h

end LambdaQuery
