/-
**Lists as sets.**  The operators on sets go through their lists in order and keep of all values
that equal each other the one that comes first.  As the equality is an equivalence, what they keep
can be said without going through the lists: `Collection.distinct` keeps the values that equal none
before them, and the other operators keep those of them that occur, or do not occur, in the second
list.

The laws are proved for a list with one more value at its end: whether that value counts depends on
the list before it, and nothing before it changes.

Main definitions:
* `Collection.firsts` — the values of a list that equal none before them;
* `Collection.Respects` — a condition that does not tell equal values apart;
* `Collection.SetLaws` — what the operators keep of two lists;
* `Query.onList` — a call of one of the operators on a tree and a list.

Main results:
* `Collection.distinct_snoc` — what one more value adds;
* `Collection.distinct_eq_firsts` — **the values that are kept are the first of their kind**;
* `Collection.contains_distinct`, `Collection.pairwise_distinct`, `Collection.distinct_in_order` —
  each value that occurs is kept once, where it first occurs;
* `Collection.distinct_filter`, `Collection.distinct_append` — the values kept of a filtered list
  and of two lists one after the other;
* `Collection.setLaws` — **the laws of the operators**;
* `Query.set_operators` — the same for the operators of a query.
-/

import LambdaQuery.Proofs.SameValues

namespace LambdaQuery

namespace Collection

/-! ### Each value once -/

section Distinct

variable {v x : Value} {xs : List Value}

theorem contains_eq_true : contains xs v = true ↔ ∃ x ∈ xs, x.same v = true := List.any_eq_true

theorem contains_append (xs ys : List Value) (v : Value) :
    contains (xs ++ ys) v = (contains xs v || contains ys v) := List.any_append

/-- What equals a value that occurs occurs as well. -/
theorem contains_of_same (h : v.same x = true) (hv : contains xs v = true) :
    contains xs x = true := by
  obtain ⟨u, hu, huv⟩ := contains_eq_true.mp hv
  exact contains_eq_true.mpr ⟨u, hu, Value.same_trans huv h⟩

/-- A last value counts if neither those seen nor those before it equal it. -/
theorem distinctAfter_snoc (x : Value) : ∀ (xs seen : List Value),
    distinctAfter seen (xs ++ [x]) =
      distinctAfter seen xs ++ if contains seen x || contains xs x then [] else [x] := by
  intro xs
  induction xs with
  | nil =>
      intro seen
      simp [distinctAfter, contains]
  | cons v vs ih =>
      intro seen
      rw [List.cons_append, distinctAfter, distinctAfter]
      have hcons : ∀ ys, contains (v :: ys) x = (v.same x || contains ys x) := fun _ => rfl
      by_cases hv : contains seen v = true
      · -- a value equal to `v` is among those seen already
        rw [if_pos hv, if_pos hv, ih, hcons]
        by_cases hx : v.same x = true
        · rw [contains_of_same hx hv]
          rfl
        · rw [Bool.not_eq_true] at hx
          rw [hx, Bool.false_or]
      · rw [if_neg hv, if_neg hv, ih, hcons, hcons, List.cons_append, Bool.or_comm (v.same x),
          Bool.or_assoc]

theorem distinct_snoc (xs : List Value) (x : Value) :
    distinct (xs ++ [x]) = distinct xs ++ if contains xs x then [] else [x] :=
  distinctAfter_snoc x xs []

/-- The values that occur are those that occur once. -/
theorem contains_distinct (xs : List Value) (v : Value) :
    contains (distinct xs) v = contains xs v := by
  induction xs using List.reverseRecOn with
  | nil => rfl
  | append_singleton xs x ih =>
      rw [distinct_snoc, contains_append, contains_append, ih]
      by_cases hx : contains xs x = true
      · rw [if_pos hx]
        by_cases hv : x.same v = true
        · rw [contains_of_same hv hx]
          rfl
        · simp [contains, hv]
      · rw [if_neg hx]

/-- No two of the values that are left are equal. -/
theorem pairwise_distinct (xs : List Value) :
    (distinct xs).Pairwise fun u v => u.same v = false := by
  induction xs using List.reverseRecOn with
  | nil => exact .nil
  | append_singleton xs x ih =>
      rw [distinct_snoc]
      by_cases hx : contains xs x = true
      · rw [if_pos hx, List.append_nil]
        exact ih
      · rw [if_neg hx]
        refine List.pairwise_append.mpr ⟨ih, List.pairwise_singleton .., ?_⟩
        intro u hu v hv
        rw [List.mem_singleton.mp hv, ← Bool.not_eq_true]
        intro hux
        exact hx (contains_eq_true.mpr ⟨u, mem_of_mem_distinct hu, hux⟩)

/-- A value that is left is the first that equals it. -/
theorem find?_of_mem_distinct (h : v ∈ distinct xs) : xs.find? (·.same v) = some v := by
  induction xs using List.reverseRecOn with
  | nil => cases h
  | append_singleton xs x ih =>
      rw [distinct_snoc] at h
      rw [List.find?_append]
      rcases List.mem_append.mp h with h | h
      · rw [ih h]
        rfl
      · split at h
        · cases h
        · rename_i hx
          rw [List.mem_singleton.mp h]
          have hnone : xs.find? (·.same x) = none := by
            rw [List.find?_eq_none]
            intro u hu hux
            exact hx (contains_eq_true.mpr ⟨u, hu, hux⟩)
          rw [hnone, Option.none_or]
          exact List.find?_cons_of_pos (Value.same_self x)

/-- The place of a value: of the first that equals it. -/
def place (xs : List Value) (v : Value) : Nat := xs.findIdx (·.same v)

theorem place_lt_length (h : contains xs v = true) : place xs v < xs.length :=
  List.findIdx_lt_length.mpr (contains_eq_true.mp h)

theorem place_append_of_contains (h : contains xs v = true) (ys : List Value) :
    place (xs ++ ys) v = place xs v := by
  rw [place, List.findIdx_append]
  exact if_pos (place_lt_length h)

theorem place_snoc (h : contains xs x = false) : place (xs ++ [x]) x = xs.length := by
  have hnot : ¬ xs.findIdx (·.same x) < xs.length := by
    rw [List.findIdx_lt_length, ← contains_eq_true, h]
    exact Bool.false_ne_true
  rw [place, List.findIdx_append, if_neg hnot, List.findIdx_cons, Value.same_self x]
  exact Nat.zero_add _

/-- The values that are left stand in the order of their places. -/
theorem distinct_in_order (xs : List Value) :
    (distinct xs).Pairwise fun u v => place xs u < place xs v := by
  induction xs using List.reverseRecOn with
  | nil => exact .nil
  | append_singleton xs x ih =>
      have hcontains : ∀ u ∈ distinct xs, contains xs u = true := fun u hu =>
        contains_eq_true.mpr ⟨u, mem_of_mem_distinct hu, Value.same_self u⟩
      have hold : (distinct xs).Pairwise fun u v => place (xs ++ [x]) u < place (xs ++ [x]) v := by
        refine ih.imp_of_mem ?_
        intro u v hu hv huv
        rw [place_append_of_contains (hcontains u hu), place_append_of_contains (hcontains v hv)]
        exact huv
      rw [distinct_snoc]
      by_cases hx : contains xs x = true
      · rw [if_pos hx, List.append_nil]
        exact hold
      · rw [if_neg hx]
        refine List.pairwise_append.mpr ⟨hold, List.pairwise_singleton .., ?_⟩
        intro u hu v hv
        rw [List.mem_singleton.mp hv, place_append_of_contains (hcontains u hu),
          place_snoc (Bool.not_eq_true _ ▸ hx)]
        exact place_lt_length (hcontains u hu)

end Distinct

/-! ### Conditions on values -/

section Respects

variable {p : Value → Bool} {u v : Value} {xs ys : List Value}

/-- The condition does not tell equal values apart. -/
def Respects (p : Value → Bool) : Prop := ∀ ⦃u v : Value⦄, u.same v = true → p u = p v

theorem contains_congr (xs : List Value) (h : u.same v = true) : contains xs u = contains xs v := by
  rw [Bool.eq_iff_iff]
  exact ⟨contains_of_same h, contains_of_same (Value.same_comm u v ▸ h)⟩

/-- Whether a list has a value does not tell equal values apart. -/
theorem respects_contains (xs : List Value) : Respects (contains xs) :=
  fun _ _ h => contains_congr xs h

theorem Respects.not (hp : Respects p) : Respects fun v => !p v :=
  fun _ _ h => congrArg (!·) (hp h)

/-- A value that meets the condition occurs among those that meet it if it occurs at all. -/
theorem contains_filter (hp : Respects p) (hv : p v = true) :
    contains (xs.filter p) v = contains xs v := by
  rw [contains, List.any_filter, contains]
  refine congrArg (List.any xs) (funext fun u => ?_)
  cases hsame : u.same v with
  | true => rw [hp hsame, hv, Bool.true_and]
  | false => rw [Bool.and_false]

/-- What does not meet the condition does not occur among the values that meet it. -/
theorem contains_filter_of_not (hp : Respects p) (hv : p v = false) :
    contains (xs.filter p) v = false := by
  rw [← Bool.not_eq_true, contains_eq_true]
  rintro ⟨u, hu, hsame⟩
  have hpu := (List.mem_filter.mp hu).2
  rw [hp hsame, hv] at hpu
  cases hpu

/-- **What is kept of a filtered list** is what is kept of the list, filtered. -/
theorem distinct_filter (hp : Respects p) (xs : List Value) :
    distinct (xs.filter p) = (distinct xs).filter p := by
  induction xs using List.reverseRecOn with
  | nil => rfl
  | append_singleton xs x ih =>
      rw [List.filter_append, distinct_snoc, List.filter_append, ← ih, List.filter_singleton]
      cases hx : p x with
      | true =>
          have hlast := distinct_snoc (xs.filter p) x
          rw [contains_filter hp hx] at hlast
          cases hc : contains xs x <;> simpa [hx, hc] using hlast
      | false => cases contains xs x <;> simp [hx]

/-- **What is kept of two lists** is what is kept of the first, then what is kept of those values of
the second that do not occur in the first. -/
theorem distinct_append (xs ys : List Value) :
    distinct (xs ++ ys) = distinct xs ++ distinct (ys.filter fun y => !contains xs y) := by
  have hnew : Respects fun y => !contains xs y := (respects_contains xs).not
  induction ys using List.reverseRecOn with
  | nil => rw [List.append_nil, List.filter_nil]; exact (List.append_nil _).symm
  | append_singleton ys y ih =>
      rw [← List.append_assoc, distinct_snoc, ih, List.filter_append, List.filter_singleton,
        contains_append, List.append_assoc]
      congr 1
      cases hy : contains xs y with
      | true => exact (List.append_nil _).trans (congrArg distinct (List.append_nil _).symm)
      | false =>
          have hmeets : (!contains xs y) = true := by rw [hy]; rfl
          refine Eq.trans ?_ (distinct_snoc _ y).symm
          rw [contains_filter hnew hmeets, Bool.false_or]

/-- Values that are all different are all kept. -/
theorem distinct_of_pairwise (h : xs.Pairwise fun u v => u.same v = false) : distinct xs = xs := by
  induction xs using List.reverseRecOn with
  | nil => rfl
  | append_singleton xs x ih =>
      obtain ⟨hxs, -, hlast⟩ := List.pairwise_append.mp h
      have hx : contains xs x = false := by
        rw [← Bool.not_eq_true, contains_eq_true]
        rintro ⟨u, hu, hsame⟩
        rw [hlast u hu x (List.mem_singleton_self x)] at hsame
        cases hsame
      rw [distinct_snoc, ih hxs, hx, if_neg Bool.false_ne_true]

end Respects

/-! ### First occurrences -/

/-- The values of a list that equal none before them. -/
def firsts (xs : List Value) : List Value :=
  (xs.zipIdx.filter fun entry => !contains (xs.take entry.2) entry.1).map (·.1)

theorem firsts_snoc (xs : List Value) (x : Value) :
    firsts (xs ++ [x]) = firsts xs ++ if contains xs x then [] else [x] := by
  have hold : ∀ entry ∈ xs.zipIdx,
      (!contains ((xs ++ [x]).take entry.2) entry.1) = !contains (xs.take entry.2) entry.1 := by
    intro entry hentry
    have hlt : entry.2 < xs.length := by simpa using List.snd_lt_of_mem_zipIdx hentry
    rw [List.take_append_of_le_length hlt.le]
  have hlast : (xs ++ [x]).take xs.length = xs := List.take_left
  rw [firsts, List.zipIdx_append, List.filter_append, List.map_append, List.filter_congr hold]
  congr 1
  cases hx : contains xs x <;> simp [hlast, hx]

/-- **The values that are kept are the first of their kind.** -/
theorem distinct_eq_firsts (xs : List Value) : distinct xs = firsts xs := by
  induction xs using List.reverseRecOn with
  | nil => rfl
  | append_singleton xs x ih => rw [distinct_snoc, firsts_snoc, ih]

theorem distinct_sublist (xs : List Value) : (distinct xs).Sublist xs := by
  induction xs using List.reverseRecOn with
  | nil => exact .slnil
  | append_singleton xs x ih =>
      rw [distinct_snoc]
      refine ih.append ?_
      split
      · exact List.nil_sublist _
      · exact .refl _

/-- The first of the values that equal one of the list is kept. -/
theorem exists_first_kept {v : Value} {xs : List Value} (hv : v ∈ xs) :
    ∃ u ∈ distinct xs, xs.find? (·.same v) = some u := by
  have hcontains : contains (distinct xs) v = true := by
    rw [contains_distinct]
    exact contains_eq_true.mpr ⟨v, hv, Value.same_self v⟩
  obtain ⟨u, hu, hsame⟩ := contains_eq_true.mp hcontains
  -- what equals `v` is what equals the value that is kept for it
  have hequal : (fun w : Value => w.same v) = fun w => w.same u := by
    funext w
    rw [Value.same_comm w v, Value.same_comm w u]
    exact Value.same_congr (Value.same_comm u v ▸ hsame) w
  exact ⟨u, hu, hequal ▸ find?_of_mem_distinct hu⟩

/-! ### Laws -/

/-- What the operators keep of two lists. -/
structure SetLaws (a b : List Value) : Prop where
  /-- What is kept is a part of the list in its order. -/
  sublist : (distinct a).Sublist a
  /-- No two of the values that are kept are equal. -/
  apart : (distinct a).Pairwise fun u v => u.same v = false
  /-- The first of the values that equal one of the list is kept. -/
  first_kept : ∀ v ∈ a, ∃ u ∈ distinct a, a.find? (·.same v) = some u
  /-- A value is kept in its place if it equals none before it. -/
  distinct_firsts : distinct a = firsts a
  idempotent : distinct (distinct a) = distinct a
  union_distinct : union a b = distinct (a ++ b)
  union_append : union a b = distinct a ++ except b a
  intersect_filter : intersect a b = (distinct a).filter fun v => contains b v
  except_filter : except a b = (distinct a).filter fun v => !contains b v
  /-- A value that is kept is in one of the intersection and the difference, and not in both. -/
  in_one : ∀ v ∈ distinct a, contains (intersect a b) v = !contains (except a b) v

/-- **The laws of the operators.** -/
theorem setLaws (a b : List Value) : SetLaws a b where
  sublist := distinct_sublist a
  apart := pairwise_distinct a
  first_kept _ hv := exists_first_kept hv
  distinct_firsts := distinct_eq_firsts a
  idempotent := distinct_of_pairwise (pairwise_distinct a)
  union_distinct := rfl
  union_append := distinct_append a b
  intersect_filter := distinct_filter (respects_contains b) a
  except_filter := distinct_filter (respects_contains b).not a
  in_one v hv := by
    have hmem : contains a v = true :=
      contains_eq_true.mpr ⟨v, mem_of_mem_distinct hv, Value.same_self v⟩
    rw [intersect, except, contains_distinct, contains_distinct]
    cases hb : contains b v with
    | true =>
        rw [contains_filter (respects_contains b) hb, hmem,
          contains_filter_of_not (respects_contains b).not (by rw [hb]; rfl)]
        rfl
    | false =>
        rw [contains_filter_of_not (respects_contains b) hb,
          contains_filter (respects_contains b).not (by rw [hb]; rfl), hmem]
        rfl

end Collection

/-! ### The operators of a query -/

namespace Query

variable {q : Query} {items list : List Value} {second : Value} {typeArgs : List Ty}
  {listType type : Ty}

/-- A call of an operator on a tree and a list. -/
def onList (operator : Operator) (q : Query) (second : Value) (typeArgs : List Ty)
    (listType type : Ty) : Query :=
  .call ⟨operator, .sequence, typeArgs, [.query q, .constant second listType], type⟩

/-- A call of `distinct` on a tree. -/
def once (q : Query) (typeArgs : List Ty) (type : Ty) : Query :=
  .call ⟨.distinct, .none, typeArgs, [.query q], type⟩

theorem run_once (hq : q.run = .ok (.sequence items)) :
    (q.once typeArgs type).run = .ok (.sequence (Collection.distinct items)) := by
  rw [once, run_onItems rfl, Argument.itemsAt, hq]
  rfl

/-- What an operator makes of the items of a tree and of a list. -/
theorem run_onList {operator : Operator} {f : List Value → List Value → List Value}
    (hop : (operator = .concat ∧ f = (· ++ ·)) ∨ (operator = .union ∧ f = Collection.union) ∨
      (operator = .intersect ∧ f = Collection.intersect) ∨
      (operator = .except ∧ f = Collection.except))
    (hq : q.run = .ok (.sequence items)) (hs : second.elements? = some list) :
    (q.onList operator second typeArgs listType type).run = .ok (.sequence (f items list)) := by
  have hsecond : ∀ {operator : Operator}, Call.second
      ⟨operator, .sequence, typeArgs, [.query q, .constant second listType], type⟩ = .ok list := by
    intro operator
    rw [Call.second]
    refine bind_eq_ok.mpr ⟨second, rfl, ?_⟩
    rw [hs]
    rfl
  rcases hop with ⟨rfl, rfl⟩ | ⟨rfl, rfl⟩ | ⟨rfl, rfl⟩ | ⟨rfl, rfl⟩
  all_goals
    rw [onList, run_onItems rfl, Argument.itemsAt, hq]
    show (Call.second _ >>= fun bs => pure (Value.sequence _)) = _
    rw [hsecond]
    rfl

/-- **The operators on sets.**  The laws hold of any two lists, and where the items of a tree are
one of them and a value the other, the operators of the tree compute what the laws are about.  So a
union is what is kept of a concatenation, and to keep each value once again changes nothing. -/
theorem set_operators :
    (∀ a b : List Value, Collection.SetLaws a b) ∧
      ∀ (q : Query) (a b : List Value) (second : Value) (typeArgs : List Ty) (listType type : Ty),
        q.run = .ok (.sequence a) → second.elements? = some b →
          (q.once typeArgs type).run = .ok (.sequence (Collection.distinct a)) ∧
          (q.onList .union second typeArgs listType type).run =
            .ok (.sequence (Collection.union a b)) ∧
          (q.onList .intersect second typeArgs listType type).run =
            .ok (.sequence (Collection.intersect a b)) ∧
          (q.onList .except second typeArgs listType type).run =
            .ok (.sequence (Collection.except a b)) ∧
          (q.onList .union second typeArgs listType type).run =
            ((q.onList .concat second typeArgs listType type).once typeArgs type).run ∧
          ((q.once typeArgs type).once typeArgs type).run = (q.once typeArgs type).run := by
  refine ⟨Collection.setLaws, ?_⟩
  intro q a b second typeArgs listType type hq hs
  have honce : (q.once typeArgs type).run = .ok (.sequence (Collection.distinct a)) := run_once hq
  have hunion : (q.onList .union second typeArgs listType type).run =
      .ok (.sequence (Collection.union a b)) := run_onList (by simp) hq hs
  have hconcat : (q.onList .concat second typeArgs listType type).run =
      .ok (.sequence (a ++ b)) := run_onList (f := (· ++ ·)) (by simp) hq hs
  refine ⟨honce, hunion, run_onList (by simp) hq hs, run_onList (by simp) hq hs, ?_, ?_⟩
  · rw [hunion, run_once hconcat, (Collection.setLaws a b).union_distinct]
  · rw [run_once honce, honce, (Collection.setLaws a b).idempotent]

/-- Doubles by themselves: of the two zeros the one that comes first is kept, and the second list
takes away the one that it does not hold itself. -/
theorem set_operators_zeros :
    let zero := Value.double ⟨0⟩
    let minusZero := Value.double ⟨0x8000000000000000⟩
    let one := Value.double (Double.ofInt 1)
    let two := Value.double (Double.ofInt 2)
    let numbers : Query := .root .double [minusZero, one, zero, one]
    let second := Value.sequence [two, zero]
    (numbers.once [.double] (.query .double)).run = .ok (.sequence [minusZero, one]) ∧
      (numbers.onList .union second [.double] (.list .double) (.query .double)).run =
        .ok (.sequence [minusZero, one, two]) ∧
      (numbers.onList .intersect second [.double] (.list .double) (.query .double)).run =
        .ok (.sequence [minusZero]) ∧
      (numbers.onList .except second [.double] (.list .double) (.query .double)).run =
        .ok (.sequence [one]) := by
  intro zero minusZero one two numbers second
  obtain ⟨hdistinct, hunion, hintersect, hexcept, -, -⟩ := set_operators.2 numbers
    [minusZero, one, zero, one] [two, zero] second [.double] (.list .double) (.query .double)
    rfl rfl
  exact ⟨hdistinct.trans rfl, hunion.trans rfl, hintersect.trans rfl, hexcept.trans rfl⟩

end Query

end LambdaQuery
