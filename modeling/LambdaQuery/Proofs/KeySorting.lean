/-
**Rows of keys.**  Rows are compared by the first place in which they differ.  If the numbers in the
keys of no column collide, this order is transitive on the rows, and they are sorted stably; so the
sort gives up only on rows with three colliding numbers in one column.

Main definitions:
* `Collection.InColumn`, `Collection.KeysCollide` — the numbers of a column, and three of them that
  collide.

Main results:
* `Collection.oriented_compareKeys`, `Collection.transOn_compareKeys` — the order of rows;
* `Collection.sortByKeys_perm` — **sorting rows keeps the items**;
* `Collection.keysCollide_of_sortByKeys` — **the sort gives up only if keys collide**;
* `Collection.exists_sortByKeys` — **items are sorted stably by their rows**.
-/

import LambdaQuery.Collection.Sort
import LambdaQuery.Proofs.RunSorting
import LambdaQuery.Proofs.ValueOrder

namespace LambdaQuery.Collection

/-! ### One key -/

theorem compareKey_swap (descending : Bool) (a b : Value) :
    (compareKey descending a b).swap = compareKey descending b a := by
  rw [compareKey, compareKey, Value.compare_swap a b]
  cases descending <;> simp

theorem oriented_compareKey (descending : Bool) : Std.OrientedCmp (compareKey descending) where
  eq_swap := (compareKey_swap descending _ _).symm

/-- An order that is transitive on values is so in either direction. -/
theorem transOn_compareKey {vs : List Value} (h : TransOn Value.compare vs) (descending : Bool) :
    TransOn (compareKey descending) vs := by
  cases descending with
  | false => exact h
  | true =>
      intro a ha b hb c hc
      simp only [compareKey, if_true, ← Value.compare_swap]
      exact fun hab hbc => h c hc b hb a ha hbc hab

theorem compareKey_consistent {a b c : Value} (descending : Bool)
    (h : Consistent (a.compare b) (b.compare c) (a.compare c)) :
    Consistent (compareKey descending a b) (compareKey descending b c)
      (compareKey descending a c) := by
  cases descending with
  | false => exact h
  | true => exact h.turn

/-! ### Rows -/

theorem compareKeys_cons (descending : List Bool) (a b : Value) (as bs : List Value) :
    compareKeys descending (a :: as) (b :: bs) =
      (compareKey (descending.headD false) a b).then (compareKeys descending.tail as bs) := by
  cases descending <;> rfl

theorem compareKeys_swap (descending : List Bool) (as bs : List Value) :
    (compareKeys descending as bs).swap = compareKeys descending bs as := by
  induction as generalizing descending bs with
  | nil => cases descending <;> cases bs <;> rfl
  | cons a as ih =>
      cases bs with
      | nil => cases descending <;> rfl
      | cons b bs =>
          rw [compareKeys_cons, compareKeys_cons, Ordering.swap_then, compareKey_swap, ih]

theorem oriented_compareKeys (descending : List Bool) :
    Std.OrientedCmp fun a b : List Value × Value => compareKeys descending a.1 b.1 where
  eq_swap := (compareKeys_swap ..).symm

/-- Rows of one length fit one line, if the numbers in no column of keys collide. -/
theorem compareKeys_consistent {N : Nat → Value → Prop}
    (hN : ∀ i u x v, N i u → N i x → N i v → ¬ Value.Collide u x v) {descending : List Bool}
    {as bs cs : List Value} (hbs : bs.length = as.length) (hcs : cs.length = as.length)
    (ha : ∀ i, ∀ k : Value, as[i]? = some k → k.Over (N i))
    (hb : ∀ i, ∀ k : Value, bs[i]? = some k → k.Over (N i))
    (hc : ∀ i, ∀ k : Value, cs[i]? = some k → k.Over (N i)) :
    Consistent (compareKeys descending as bs) (compareKeys descending bs cs)
      (compareKeys descending as cs) := by
  induction as generalizing N descending bs cs with
  | nil =>
      obtain rfl := List.eq_nil_of_length_eq_zero hbs
      obtain rfl := List.eq_nil_of_length_eq_zero hcs
      cases descending <;> exact rfl
  | cons a as ih =>
      match bs, cs with
      | b :: bs, c :: cs =>
          simp only [compareKeys_cons]
          refine (compareKey_consistent _ (Value.compare_consistent (hN 0) a (ha 0 a rfl) b c
            (hb 0 b rfl) (hc 0 c rfl))).thenOf fun _ _ => ?_
          exact ih (N := fun i => N (i + 1)) (fun i => hN (i + 1)) (Nat.succ_inj.mp hbs)
            (Nat.succ_inj.mp hcs) (fun i => ha (i + 1)) (fun i => hb (i + 1)) fun i => hc (i + 1)

/-- The number stands in a column of the rows, by itself or inside a key. -/
def InColumn (rows : List (List Value × Value)) (i : Nat) (u : Value) : Prop :=
  ∃ row ∈ rows, ∃ k, row.1[i]? = some k ∧ u ∈ k.numbers

/-- Three numbers of one column collide. -/
def KeysCollide (rows : List (List Value × Value)) : Prop :=
  ∃ i u x v, InColumn rows i u ∧ InColumn rows i x ∧ InColumn rows i v ∧ Value.Collide u x v

section Rows

variable {descending : List Bool} {rows : List (List Value × Value)}

/-- The order of rows is transitive on rows of one length whose keys do not collide. -/
theorem transOn_compareKeys (descending : List Bool) {n : Nat}
    (hlength : ∀ row ∈ rows, row.1.length = n) (h : ¬ KeysCollide rows) :
    TransOn (fun a b => compareKeys descending a.1 b.1) rows := by
  intro a ha b hb c hc
  have hover (row : List Value × Value) (hrow : row ∈ rows) (i : Nat) (k : Value)
      (hk : row.1[i]? = some k) : k.Over (InColumn rows i) :=
    fun u hu => ⟨row, hrow, k, hk, hu⟩
  have hconsistent : Consistent (compareKeys descending a.1 b.1) (compareKeys descending b.1 c.1)
      (compareKeys descending a.1 c.1) :=
    compareKeys_consistent (fun i u x v hu hx hv hcol => h ⟨i, u, x, v, hu, hx, hv, hcol⟩)
      ((hlength b hb).trans (hlength a ha).symm) ((hlength c hc).trans (hlength a ha).symm)
      (hover a ha) (hover b hb) (hover c hc)
  simp only [Ordering.isLE_iff_ne_gt]
  exact hconsistent.ne_gt

/-- **Sorting rows keeps the items.** -/
theorem sortByKeys_perm {sorted : List Value} (h : sortByKeys descending rows = some sorted) :
    sorted.Perm (rows.map (·.2)) := by
  have := oriented_compareKeys descending
  obtain ⟨rows', hsort, rfl⟩ := Option.map_eq_some_iff.mp h
  exact (sortBy_perm hsort).map _

/-- **The sort gives up only if keys collide.** -/
theorem keysCollide_of_sortByKeys {n : Nat} (hlength : ∀ row ∈ rows, row.1.length = n)
    (h : sortByKeys descending rows = none) : KeysCollide rows := by
  have := oriented_compareKeys descending
  by_contra hnone
  obtain ⟨rows', hsort, -⟩ :=
    (transOn_compareKeys descending hlength hnone).sortBy
  rw [sortByKeys, hsort] at h
  cases h

/-- **Items are sorted stably by the rows that go with them**, if the order of their rows is
transitive on them. -/
theorem exists_sortByKeys (row : Value → List Value) {order : Value → Value → Ordering}
    {items : List Value} (horder : ∀ a b, compareKeys descending (row a) (row b) = order a b)
    (h : TransOn order items) :
    ∃ sorted, sortByKeys descending (items.map fun v => (row v, v)) = some sorted ∧
      StablySorts order items sorted := by
  have := oriented_compareKeys descending
  have hrow : ∀ a ∈ items.map fun v => (row v, v), a.2 ∈ items ∧ a.1 = row a.2 := by
    intro a ha
    obtain ⟨v, hv, rfl⟩ := List.mem_map.mp ha
    exact ⟨hv, rfl⟩
  have hcongr : ∀ a ∈ items.map fun v => (row v, v), ∀ b ∈ items.map fun v => (row v, v),
      compareKeys descending a.1 b.1 = order a.2 b.2 := by
    intro a ha b hb
    rw [(hrow a ha).2, (hrow b hb).2, horder]
  have htrans : TransOn (fun a b => compareKeys descending a.1 b.1)
      (items.map fun v => (row v, v)) := by
    intro a ha b hb c hc
    simp only [hcongr a ha b hb, hcongr b hb c hc, hcongr a ha c hc]
    exact h a.2 (hrow a ha).1 b.2 (hrow b hb).1 c.2 (hrow c hc).1
  obtain ⟨rows, hrows, hsorts⟩ := htrans.sortBy
  have hsorts' : StablySorts (fun a b => order a.2 b.2) _ rows := hsorts.congr hcongr
  have hitems := hsorts'.map
  rw [List.map_map] at hitems
  refine ⟨rows.map (·.2), ?_, ?_⟩
  · rw [sortByKeys, hrows]
    rfl
  · exact (List.map_id items) ▸ hitems

end Rows

end LambdaQuery.Collection
