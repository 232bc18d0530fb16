/-
**What the operations of collections give, and how they fail.**  Each operation takes elements of a
type to a value of the type that its callers announce, and fails with a named error or not at all.

Main results:
* `Collection.count_within`, `Collection.sum_within`, `Collection.average_within`,
  `Collection.extreme_within` — one value out of many, with the only error that it can meet;
* `Collection.first_within`, `Collection.single_within`, `Collection.elementAt_within`, … — one
  element out of many;
* `Collection.mem_of_mem_distinct` — sets make no new elements;
* `Collection.groupPairs_all`, `Collection.matching_lookup_all` — what holds of all keys and
  elements holds in their groups and of what is looked up.
-/

import LambdaQuery.Collection.Aggregate
import LambdaQuery.Collection.Element
import LambdaQuery.Collection.Group
import LambdaQuery.Collection.Set
import LambdaQuery.Proofs.Outcome
import LambdaQuery.Proofs.ValueTyping
import LambdaQuery.Signature.Library

namespace LambdaQuery.Collection

open Signature (averageType)
open Value (AllBelong)

variable {items : List Value} {t : Ty}

/-! ### Counts and sums -/

theorem count_within (n : Nat) : Within (· = .overflow) (·.Belongs .int) (count n) := by
  rw [count]
  cases fits 32 n with
  | true => exact .ok (.int _)
  | false => exact .error rfl

theorem present_belong (h : AllBelong items t) : AllBelong (present items) t := by
  intro v hv
  exact h v (List.mem_of_mem_filter hv)

theorem ne_null_of_mem_present {v : Value} (h : v ∈ present items) : v ≠ .null := by
  have h := List.of_mem_filter h
  rintro rfl
  simp [Value.isNull] at h

/-- A sum of values that can be read overflows or succeeds. -/
theorem sumInts_within {bits : Nat} {read : Value → Option Int} :
    ∀ {vs : List Value} {sum : Int}, (∀ v ∈ vs, (read v).isSome = true) →
      Within (· = .overflow) (fun _ => True) (sumInts bits read sum vs) := by
  intro vs
  induction vs with
  | nil =>
      intro sum _
      exact .ok trivial
  | cons v vs ih =>
      intro sum h
      obtain ⟨n, hn⟩ := Option.isSome_iff_exists.mp (h v (List.mem_cons_self ..))
      rw [sumInts]
      simp only [hn]
      split
      · exact ih fun u hu => h u (List.mem_cons_of_mem _ hu)
      · exact .error rfl

theorem sumDoubles_within {allowed : CollectionError → Prop} :
    ∀ {vs : List Value} {sum : Double}, (∀ v ∈ vs, v.toDouble?.isSome = true) →
      Within allowed (fun _ => True) (sumDoubles sum vs) := by
  intro vs
  induction vs with
  | nil =>
      intro sum _
      exact .ok trivial
  | cons v vs ih =>
      intro sum h
      obtain ⟨x, hx⟩ := Option.isSome_iff_exists.mp (h v (List.mem_cons_self ..))
      rw [sumDoubles]
      simp only [hx]
      exact ih fun u hu => h u (List.mem_cons_of_mem _ hu)

/-- The values of a numeric type that are not null can be read as doubles. -/
theorem toDouble?_of_mem_present (h : AllBelong items t) (ht : t.isNumeric = true) :
    ∀ v ∈ present items, v.toDouble?.isSome = true := by
  intro v hv
  obtain ⟨i, hi⟩ := Option.isSome_iff_exists.mp ht
  have hc := (Value.conforms_number_iff hi).mp (present_belong h v hv).conforms
  have hn := ne_null_of_mem_present hv
  cases v <;> simp_all [Value.typeOf, Ty.numericRank?, Ty.underlying, Value.toDouble?,
    RecordTy.toTy]

/-- The sum of values of a numeric type is a value of the type, or overflows. -/
theorem sum_within (h : AllBelong items t) (ht : t.isNumeric = true) :
    Within (· = .overflow) (·.Belongs t) (sum items t) := by
  have hb := t.base_underlying
  rw [sum]
  rcases Ty.isNumeric_iff.mp ht with hu | hu | hu
  · rw [hu] at hb
    have read : ∀ v ∈ present items, (int32? v).isSome = true := by
      intro v hv
      have hn := ne_null_of_mem_present hv
      rcases (Value.conforms_int_iff hb.symm).mp (present_belong h v hv).conforms with
        ⟨rfl, -⟩ | ⟨n, rfl⟩
      · exact absurd rfl hn
      · rfl
    simp only [hu]
    exact (sumInts_within read).map fun n _ =>
      ⟨rfl, (Value.conforms_int_iff hb.symm).mpr (.inr ⟨_, rfl⟩)⟩
  · rw [hu] at hb
    have read : ∀ v ∈ present items, (int64? v).isSome = true := by
      intro v hv
      have hn := ne_null_of_mem_present hv
      rcases (Value.conforms_long_iff hb.symm).mp (present_belong h v hv).conforms with
        ⟨rfl, -⟩ | ⟨n, rfl⟩
      · exact absurd rfl hn
      · rfl
    simp only [hu]
    exact (sumInts_within read).map fun n _ =>
      ⟨rfl, (Value.conforms_long_iff hb.symm).mpr (.inr ⟨_, rfl⟩)⟩
  · rw [hu] at hb
    simp only [hu]
    exact (sumDoubles_within (toDouble?_of_mem_present h ht)).map fun x _ =>
      ⟨rfl, (Value.conforms_double_iff hb.symm).mpr (.inr ⟨_, rfl⟩)⟩

/-- The mean of values of a numeric type is a double, or null or an error where there is none. -/
theorem average_within (h : AllBelong items t) (ht : t.isNumeric = true) :
    Within (· = .empty) (·.Belongs (averageType t)) (average items (averageType t)) := by
  rw [average]
  refine (sumDoubles_within (toDouble?_of_mem_present h ht)).bind fun total _ => ?_
  have hb : (averageType t).base = .double := by
    rw [averageType]
    split <;> rfl
  split
  · split
    · rename_i hn
      exact .ok (.of_null hn)
    · exact .error rfl
  · exact .ok ⟨rfl, (Value.conforms_double_iff hb).mpr (.inr ⟨_, rfl⟩)⟩

/-! ### The least and the greatest -/

/-- A search for a better value ends at one of the values. -/
theorem foldl_pick_mem (wanted : Ordering) : ∀ (vs : List Value) (v : Value),
    vs.foldl (fun best v => if v.compare best == wanted then v else best) v ∈ v :: vs := by
  intro vs
  induction vs with
  | nil =>
      intro v
      exact List.mem_cons_self ..
  | cons u vs ih =>
      intro v
      rw [List.foldl_cons]
      by_cases hu : (u.compare v == wanted) = true
      · rw [if_pos hu]
        exact List.mem_cons_of_mem _ (ih u)
      · rw [if_neg hu]
        rcases List.mem_cons.mp (ih v) with h | h
        · rw [h]
          exact List.mem_cons_self ..
        · exact List.mem_cons_of_mem _ (List.mem_cons_of_mem _ h)

/-- The least or greatest value is one of the values; without any it is null or an error. -/
theorem extreme_within (wanted : Ordering) (h : AllBelong items t) :
    Within (· = .empty) (·.Belongs t) (extreme wanted items t) := by
  have hs : AllBelong (if t.acceptsNull then present items else items) t := by
    split
    · exact present_belong h
    · exact h
  rw [extreme]
  split
  · split
    · rename_i hn
      exact .ok (.of_null hn)
    · exact .error rfl
  · rename_i v vs heq
    rw [heq] at hs
    exact .ok (hs _ (foldl_pick_mem wanted vs v))

/-! ### One element -/

theorem first_within (h : AllBelong items t) :
    Within (· = .empty) (·.Belongs t) (first items) := by
  cases items with
  | nil => exact .error rfl
  | cons v vs => exact .ok (h v (List.mem_cons_self ..))

theorem last_within (h : AllBelong items t) :
    Within (· = .empty) (·.Belongs t) (last items) := by
  rw [last]
  split
  · exact .error rfl
  · rename_i v hv
    exact .ok (h v (List.mem_of_getLast? hv))

theorem single_within (h : AllBelong items t) :
    Within (fun e => e = .empty ∨ e = .ambiguous) (·.Belongs t) (single items) := by
  unfold single
  split
  · exact .error (.inl rfl)
  · exact .ok (h _ (List.mem_cons_self ..))
  · exact .error (.inr rfl)

theorem singleOrDefault_within (h : AllBelong items t) :
    Within (· = .ambiguous) (·.Belongs t) (singleOrDefault items t) := by
  unfold singleOrDefault
  split
  · exact .ok t.default_belongs
  · exact .ok (h _ (List.mem_cons_self ..))
  · exact .error rfl

/-- An element that may be missing, or the default in its place. -/
theorem getD_belongs {v : Option Value} (h : ∀ u, v = some u → u.Belongs t) :
    (v.getD t.default).Belongs t := by
  cases v with
  | none => exact t.default_belongs
  | some u => exact h u rfl

theorem firstOrDefault_belongs (h : AllBelong items t) : (firstOrDefault items t).Belongs t :=
  getD_belongs fun v hv => h v (List.mem_of_head? hv)

theorem lastOrDefault_belongs (h : AllBelong items t) : (lastOrDefault items t).Belongs t :=
  getD_belongs fun v hv => h v (List.mem_of_getLast? hv)

theorem elementAt?_belongs (h : AllBelong items t) {index : Int} {v : Value}
    (hv : elementAt? items index = some v) : v.Belongs t := by
  rw [elementAt?] at hv
  split at hv
  · cases hv
  · exact h v (List.mem_of_getElem? hv)

theorem elementAt_within (h : AllBelong items t) (index : Int) :
    Within (· = .indexOutOfRange index) (·.Belongs t) (elementAt items index) := by
  rw [elementAt]
  split
  · rename_i v hv
    exact .ok (elementAt?_belongs h hv)
  · exact .error rfl

theorem elementAtOrDefault_belongs (h : AllBelong items t) (index : Int) :
    (elementAtOrDefault items index t).Belongs t :=
  getD_belongs fun _ hv => elementAt?_belongs h hv

/-! ### Sets -/

theorem mem_of_mem_distinctAfter {v : Value} :
    ∀ {vs seen : List Value}, v ∈ distinctAfter seen vs → v ∈ vs := by
  intro vs
  induction vs with
  | nil =>
      intro seen h
      exact h
  | cons u vs ih =>
      intro seen h
      rw [distinctAfter] at h
      split at h
      · exact List.mem_cons_of_mem _ (ih h)
      · rcases List.mem_cons.mp h with rfl | h
        · exact List.mem_cons_self ..
        · exact List.mem_cons_of_mem _ (ih h)

theorem mem_of_mem_distinct {v : Value} {vs : List Value} (h : v ∈ distinct vs) : v ∈ vs :=
  mem_of_mem_distinctAfter h

/-! ### Groups -/

/-- Adding an element changes the elements of one group at most, and its key is kept. -/
theorem mem_addToGroup {key element : Value} {g : Value × List Value} :
    ∀ {groups : Groups}, g ∈ addToGroup key element groups →
      (g = (key, [element])) ∨ g ∈ groups ∨
        ∃ es, (g.1, es) ∈ groups ∧ g.2 = es ++ [element] := by
  intro groups
  induction groups with
  | nil =>
      intro h
      exact .inl (List.mem_singleton.mp h)
  | cons first rest ih =>
      obtain ⟨k, es⟩ := first
      intro h
      rw [addToGroup] at h
      split at h
      · rcases List.mem_cons.mp h with rfl | h
        · exact .inr (.inr ⟨es, List.mem_cons_self .., rfl⟩)
        · exact .inr (.inl (List.mem_cons_of_mem _ h))
      · rcases List.mem_cons.mp h with rfl | h
        · exact .inr (.inl (List.mem_cons_self ..))
        · rcases ih h with h | h | ⟨es', h, hes⟩
          · exact .inl h
          · exact .inr (.inl (List.mem_cons_of_mem _ h))
          · exact .inr (.inr ⟨es', List.mem_cons_of_mem _ h, hes⟩)

/-- Keys and elements of groups, with a property each, keep it when a pair is added. -/
theorem addToGroup_all {P Q : Value → Prop} {key element : Value} {groups : Groups} (hk : P key)
    (he : Q element) (h : ∀ g ∈ groups, P g.1 ∧ ∀ v ∈ g.2, Q v) :
    ∀ g ∈ addToGroup key element groups, P g.1 ∧ ∀ v ∈ g.2, Q v := by
  intro g hg
  rcases mem_addToGroup hg with rfl | hg | ⟨es, hg, hes⟩
  · refine ⟨hk, fun v hv => ?_⟩
    rw [List.mem_singleton.mp hv]
    exact he
  · exact h g hg
  · obtain ⟨hp, hq⟩ := h _ hg
    refine ⟨hp, fun v hv => ?_⟩
    rw [hes, List.mem_append] at hv
    rcases hv with hv | hv
    · exact hq v hv
    · rw [List.mem_singleton.mp hv]
      exact he

/-- The groups made so far are the invariant of the fold that makes them. -/
theorem foldl_addToGroup_all {P Q : Value → Prop} {pairs : List (Value × Value)} {groups : Groups}
    (hp : ∀ pair ∈ pairs, P pair.1 ∧ Q pair.2) (hg : ∀ g ∈ groups, P g.1 ∧ ∀ v ∈ g.2, Q v) :
    ∀ g ∈ pairs.foldl (fun groups (key, element) => addToGroup key element groups) groups,
      P g.1 ∧ ∀ v ∈ g.2, Q v := by
  induction pairs generalizing groups with
  | nil => exact hg
  | cons pair pairs ih =>
      obtain ⟨hk, he⟩ := hp pair (List.mem_cons_self ..)
      exact ih (fun p hm => hp p (List.mem_cons_of_mem _ hm)) (addToGroup_all hk he hg)

/-- **What holds of all keys and of all elements of pairs holds in their groups.** -/
theorem groupPairs_all {P Q : Value → Prop} {pairs : List (Value × Value)}
    (h : ∀ pair ∈ pairs, P pair.1 ∧ Q pair.2) :
    ∀ g ∈ groupPairs pairs, P g.1 ∧ ∀ v ∈ g.2, Q v :=
  foldl_addToGroup_all h fun g hg => by cases hg

/-- What is looked up under a key was stored with one. -/
theorem matching_lookup_all {Q : Value → Prop} {pairs : List (Value × Value)} {key : Value}
    (h : ∀ pair ∈ pairs, Q pair.2) : ∀ v ∈ matching (lookup pairs) key, Q v := by
  have hall : ∀ g ∈ lookup pairs, True ∧ ∀ v ∈ g.2, Q v :=
    groupPairs_all (P := fun _ => True) fun pair hp => ⟨trivial, h pair (List.mem_of_mem_filter hp)⟩
  intro v hv
  rw [matching] at hv
  split at hv
  · rename_i k es heq
    exact (hall _ (List.mem_of_find?_eq_some heq)).2 v hv
  · cases hv

end LambdaQuery.Collection
