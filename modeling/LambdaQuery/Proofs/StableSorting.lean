/-
**Sorting by several keys at once is sorting by one after the other.**  A stable sort of a list is
determined by the order: it is the one list with the same items that ascends and leaves the items of
each place as they stand.  The merge sort of the standard library is one.  A list that has been
sorted by the lesser keys stays sorted by them among the items that have one place in the order of a
further key, if it is then sorted stably by that key; so that sorts by single keys, the first key
last, end at the list that is sorted by all keys at once.

Main definitions:
* `Collection.ties` — the items that have the place of a given one;
* `Collection.StablySorts` — a list is a stable sort of another;
* `Collection.TransOn` — an order is transitive on the items of a list;
* `Collection.lexicographic` — the order by the first of several orders that tells two items apart;
* `Collection.sortEach` — the stable sorts by several orders, that by the last one first.

Main results:
* `Collection.StablySorts.unique` — **a list has one stable sort**;
* `Collection.StablySorts.reverse` — its reverse is the stable sort of the reverse, by the order
  turned round;
* `Collection.TransOn.mergeSort` — the merge sort is a stable sort;
* `Collection.StablySorts.refine` — a further stable sort refines the order;
* `Collection.stablySorts_sortEach` — **sorting by one order after the other is sorting by all of
  them at once**.
-/

import Mathlib

namespace LambdaQuery.Collection

variable {α β : Type} {order first rest : α → α → Ordering} {orders : List (α → α → Ordering)}
  {xs ys zs : List α} {a b c x : α}

/-! ### Stable sorts -/

/-- The items that have the place of a given one, in their order. -/
def ties (order : α → α → Ordering) (a : α) (xs : List α) : List α :=
  xs.filter fun x => order a x == .eq

/-- The second list is a stable sort of the first. -/
structure StablySorts (order : α → α → Ordering) (xs ys : List α) : Prop where
  perm : ys.Perm xs
  sorted : ys.Pairwise fun a b => (order a b).isLE = true
  /-- Items of one place stand in the order in which they stood. -/
  stable : ∀ a ∈ xs, ties order a ys = ties order a xs

theorem ties_cons_of_eq (h : order a x = .eq) : ties order a (x :: xs) = x :: ties order a xs :=
  List.filter_cons_of_pos (by simpa using h)

theorem ties_cons_of_ne (h : order a x ≠ .eq) : ties order a (x :: xs) = ties order a xs :=
  List.filter_cons_of_neg (by simpa using h)

theorem ties_append (xs ys : List α) :
    ties order a (xs ++ ys) = ties order a xs ++ ties order a ys :=
  List.filter_append ..

theorem ties_reverse (xs : List α) : ties order a xs.reverse = (ties order a xs).reverse :=
  List.filter_reverse ..

theorem mem_ties : x ∈ ties order a xs ↔ x ∈ xs ∧ order a x = .eq := by
  rw [ties, List.mem_filter, beq_iff_eq]

section Oriented

variable [Std.OrientedCmp order]

theorem mem_ties_self (h : a ∈ xs) : a ∈ ties order a xs :=
  mem_ties.mpr ⟨h, Std.ReflCmp.compare_self⟩

/-- Two lists that ascend and agree on the items of every place are one. -/
theorem eq_of_ties : ∀ {ys zs : List α}, (ys.Pairwise fun a b => (order a b).isLE = true) →
    (zs.Pairwise fun a b => (order a b).isLE = true) →
    (∀ a, a ∈ ys ∨ a ∈ zs → ties order a ys = ties order a zs) → ys = zs := by
  intro ys
  induction ys with
  | nil =>
      intro zs _ _ h
      cases zs with
      | nil => rfl
      | cons z zs =>
          have hz : z ∈ ties order z (z :: zs) := mem_ties_self (List.mem_cons_self ..)
          rw [← h z (.inr (List.mem_cons_self ..))] at hz
          cases hz
  | cons y ys ih =>
      intro zs hys hzs h
      cases zs with
      | nil =>
          have hy : y ∈ ties order y (y :: ys) := mem_ties_self (List.mem_cons_self ..)
          rw [h y (.inl (List.mem_cons_self ..))] at hy
          cases hy
      | cons z zs =>
          have hmem : ∀ a, a ∈ y :: ys ↔ a ∈ z :: zs := by
            intro a
            constructor
            · intro ha
              exact (mem_ties.mp (h a (.inl ha) ▸ mem_ties_self ha)).1
            · intro ha
              exact (mem_ties.mp ((h a (.inr ha)).symm ▸ mem_ties_self ha)).1
          have hself : ∀ a, order a a = .eq := fun a => Std.ReflCmp.compare_self
          -- the first items are each other's bounds, so they have one place, and there they agree
          have hyz : (order y z).isLE = true := by
            rcases List.mem_cons.mp ((hmem z).mpr (List.mem_cons_self ..)) with hz | hz
            · rw [hz, hself]
              rfl
            · exact List.rel_of_pairwise_cons hys hz
          have hzy : (order z y).isLE = true := by
            rcases List.mem_cons.mp ((hmem y).mp (List.mem_cons_self ..)) with hy | hy
            · rw [hy, hself]
              rfl
            · exact List.rel_of_pairwise_cons hzs hy
          have htie : order y z = .eq := Std.OrientedCmp.isLE_antisymm hyz hzy
          have hfirst := h y (.inl (List.mem_cons_self ..))
          rw [ties_cons_of_eq (hself y), ties_cons_of_eq htie] at hfirst
          obtain ⟨rfl, -⟩ := List.cons.inj hfirst
          congr 1
          refine ih hys.of_cons hzs.of_cons ?_
          intro a ha
          have hcons : a ∈ y :: ys ∨ a ∈ y :: zs :=
            ha.imp (List.mem_cons_of_mem y) (List.mem_cons_of_mem y)
          have hrest := h a hcons
          by_cases hay : order a y = .eq
          · rw [ties_cons_of_eq hay, ties_cons_of_eq hay] at hrest
            exact (List.cons.inj hrest).2
          · rw [ties_cons_of_ne hay, ties_cons_of_ne hay] at hrest
            exact hrest

/-- **A list has one stable sort.** -/
theorem StablySorts.unique (h : StablySorts order xs ys) (h' : StablySorts order xs zs) :
    ys = zs := by
  refine eq_of_ties h.sorted h'.sorted ?_
  intro a ha
  have hmem : a ∈ xs := ha.elim h.perm.mem_iff.mp h'.perm.mem_iff.mp
  rw [h.stable a hmem, h'.stable a hmem]

end Oriented

/-! ### Orders on the items of a list -/

/-- The order is transitive on the items. -/
def TransOn (order : α → α → Ordering) (xs : List α) : Prop :=
  ∀ a ∈ xs, ∀ b ∈ xs, ∀ c ∈ xs,
    (order a b).isLE = true → (order b c).isLE = true → (order a c).isLE = true

theorem TransOn.mono (h : TransOn order xs) (hys : ys ⊆ xs) : TransOn order ys :=
  fun a ha b hb c hc => h a (hys ha) b (hys hb) c (hys hc)

theorem TransOn.perm (h : TransOn order xs) (hys : ys.Perm xs) : TransOn order ys :=
  h.mono hys.subset

/-- An order turned round is transitive on the same items. -/
theorem TransOn.flip (h : TransOn order xs) : TransOn (flip order) xs :=
  fun a ha b hb c hc hab hbc => h c hc b hb a ha hbc hab

theorem oriented_flip (order : α → α → Ordering) [Std.OrientedCmp order] :
    Std.OrientedCmp (flip order) where
  eq_swap {a b} := (Std.OrientedCmp.eq_swap : order b a = (order a b).swap)

section TransOn

variable [Std.OrientedCmp order]

theorem isLE_self (a : α) : (order a a).isLE = true :=
  Ordering.isLE_of_eq_eq Std.ReflCmp.compare_self

theorem isLE_of_ne_lt (h : order a b ≠ .lt) : (order b a).isLE = true := by
  by_contra hle
  exact h (Std.OrientedCmp.lt_of_not_isLE hle)

namespace TransOn

theorem transCmp (h : TransOn order xs) :
    Std.TransCmp fun a b : { x // x ∈ xs } => order a b where
  eq_swap := Std.OrientedCmp.eq_swap
  isLE_trans {a b c} := h a a.2 b b.2 c c.2

variable (h : TransOn order xs) (ha : a ∈ xs) (hb : b ∈ xs) (hc : c ∈ xs)

include h ha hb hc

/-- What is less than a lower bound is less. -/
theorem lt_of_lt_of_isLE (hab : order a b = .lt) (hbc : (order b c).isLE = true) :
    order a c = .lt :=
  h.transCmp.lt_of_lt_of_isLE (a := ⟨a, ha⟩) (b := ⟨b, hb⟩) (c := ⟨c, hc⟩) hab hbc

theorem lt_of_isLE_of_lt (hab : (order a b).isLE = true) (hbc : order b c = .lt) :
    order a c = .lt :=
  h.transCmp.lt_of_isLE_of_lt (a := ⟨a, ha⟩) (b := ⟨b, hb⟩) (c := ⟨c, hc⟩) hab hbc

/-- Items of one place stand alike to every other. -/
theorem congr_left (hab : order a b = .eq) : order a c = order b c :=
  h.transCmp.congr_left (a := ⟨a, ha⟩) (b := ⟨b, hb⟩) (c := ⟨c, hc⟩) hab

end TransOn

/-- Items of one place tie with the same others. -/
theorem ties_congr (h : TransOn order (a :: xs)) (hb : b ∈ xs) (hab : order a b = .eq) :
    ties order a xs = ties order b xs := by
  refine List.filter_congr fun x hx => ?_
  have hcongr : order a x = order b x :=
    h.congr_left (List.mem_cons_self ..) (List.mem_cons_of_mem a hb) (List.mem_cons_of_mem a hx) hab
  rw [hcongr]

/-! ### Stable sorts by such an order -/

namespace StablySorts

/-- A stable sort leaves the ties of any item as they stand, one of the list or not. -/
theorem ties_eq (h : StablySorts order xs ys) (htrans : TransOn order (a :: xs)) :
    ties order a ys = ties order a xs := by
  have htransOn : TransOn order (a :: ys) := htrans.perm (h.perm.cons a)
  by_cases hnone : ∃ b ∈ xs, order a b = .eq
  · obtain ⟨b, hb, hab⟩ := hnone
    rw [ties_congr htrans hb hab, ties_congr htransOn (h.perm.mem_iff.mpr hb) hab, h.stable b hb]
  · have hties : ∀ zs : List α, zs ⊆ xs → ties order a zs = [] := by
      intro zs hzs
      refine List.filter_eq_nil_iff.mpr fun x hx => ?_
      rw [beq_iff_eq]
      exact fun hax => hnone ⟨x, hzs hx, hax⟩
    rw [hties ys h.perm.subset, hties xs (List.Subset.refl xs)]

/-- The reverse of a stable sort is the stable sort of the reverse, by the order turned round. -/
theorem reverse (h : StablySorts order xs ys) : StablySorts (flip order) xs.reverse ys.reverse := by
  have hties : ∀ (a : α) (zs : List α),
      ties (flip order) a zs.reverse = (ties order a zs).reverse := by
    intro a zs
    rw [ties_reverse]
    refine congrArg List.reverse (List.filter_congr fun x _ => ?_)
    have hswap : order x a = (order a x).swap := Std.OrientedCmp.eq_swap
    rw [flip, hswap]
    cases order a x <;> rfl
  constructor
  case perm => exact (ys.reverse_perm.trans h.perm).trans xs.reverse_perm.symm
  case sorted => exact List.pairwise_reverse.mpr h.sorted
  case stable =>
    intro a ha
    rw [hties, hties, h.stable a (List.mem_reverse.mp ha)]

end StablySorts

end TransOn

/-- What is sorted already is its own stable sort. -/
theorem StablySorts.refl (h : xs.Pairwise fun a b => (order a b).isLE = true) :
    StablySorts order xs xs :=
  ⟨.refl xs, h, fun _ _ => rfl⟩

/-- A stable sort by one order is one by any other that agrees with it on the items. -/
theorem StablySorts.congr {order' : α → α → Ordering} (h : StablySorts order xs ys)
    (horder : ∀ a ∈ xs, ∀ b ∈ xs, order a b = order' a b) : StablySorts order' xs ys := by
  have hmem : ∀ a ∈ ys, a ∈ xs := fun a => h.perm.mem_iff.mp
  have hties : ∀ a ∈ xs, ∀ zs ⊆ xs, ties order' a zs = ties order a zs := by
    intro a ha zs hzs
    refine List.filter_congr fun x hx => ?_
    rw [horder a ha x (hzs hx)]
  constructor
  case perm => exact h.perm
  case sorted =>
    refine h.sorted.imp_of_mem fun ha hb hab => ?_
    rwa [← horder _ (hmem _ ha) _ (hmem _ hb)]
  case stable =>
    intro a ha
    rw [hties a ha ys hmem, hties a ha xs (List.Subset.refl xs), h.stable a ha]

/-- The images of a stable sort by the images are a stable sort. -/
theorem StablySorts.map {f : β → α} {xs ys : List β}
    (h : StablySorts (fun a b => order (f a) (f b)) xs ys) :
    StablySorts order (xs.map f) (ys.map f) := by
  constructor
  case perm => exact h.perm.map f
  case sorted => exact List.pairwise_map.mpr h.sorted
  case stable =>
    intro a ha
    obtain ⟨x, hx, rfl⟩ := List.mem_map.mp ha
    rw [ties, ties, List.filter_map, List.filter_map]
    exact congrArg (List.map f) (h.stable x hx)

/-! ### The merge sort -/

/-- The merge sort is a stable sort. -/
theorem stablySorts_mergeSort [Std.TransCmp order] (xs : List α) :
    StablySorts order xs (xs.mergeSort fun a b => (order a b).isLE) := by
  have htrans : ∀ a b c : α, (order a b).isLE = true → (order b c).isLE = true →
      (order a c).isLE = true := fun _ _ _ => Std.TransCmp.isLE_trans
  have htotal : ∀ a b : α, ((order a b).isLE || (order b a).isLE) = true := by
    intro a b
    have hswap : order b a = (order a b).swap := Std.OrientedCmp.eq_swap
    rw [hswap]
    cases order a b <;> rfl
  constructor
  case perm => exact List.mergeSort_perm ..
  case sorted => exact List.pairwise_mergeSort htrans htotal xs
  case stable =>
    intro a _
    -- the items of one place ascend already, so that they are there in their order
    have hplace : (ties order a xs).Pairwise fun b c => (order b c).isLE = true := by
      refine List.pairwise_of_forall_mem_list ?_
      intro b hb c hc
      rw [← Std.TransCmp.congr_left (mem_ties.mp hb).2, (mem_ties.mp hc).2]
      rfl
    have hsub := List.sublist_mergeSort htrans htotal hplace List.filter_sublist
    have hties : (ties order a xs).Sublist
        (ties order a (xs.mergeSort fun a b => (order a b).isLE)) := by
      have hfilter := hsub.filter fun x => order a x == .eq
      rw [ties, List.filter_filter] at hfilter
      simp only [Bool.and_self] at hfilter
      exact hfilter
    exact (hties.eq_of_length ((List.mergeSort_perm xs _).filter _).length_eq.symm).symm

/-- An order that is transitive on the items sorts them as one that is transitive everywhere. -/
theorem TransOn.mergeSort [Std.OrientedCmp order] (h : TransOn order xs) :
    StablySorts order xs (xs.mergeSort fun a b => (order a b).isLE) := by
  have := h.transCmp
  have hattach : StablySorts order (xs.attach.map Subtype.val) _ :=
    StablySorts.map (stablySorts_mergeSort xs.attach)
  rw [List.map_mergeSort (s := fun a b => (order a b).isLE) fun _ _ _ _ => rfl,
    List.attach_map_subtype_val] at hattach
  exact hattach

/-! ### Several orders -/

/-- The order by the first of the orders that tells two items apart. -/
def lexicographic (orders : List (α → α → Ordering)) : α → α → Ordering :=
  orders.foldr compareLex fun _ _ => .eq

/-- A list sorted by the last order, then by the one before it, and so on up to the first. -/
def sortEach (orders : List (α → α → Ordering)) (xs : List α) : List α :=
  orders.foldr (fun order ys => ys.mergeSort fun a b => (order a b).isLE) xs

/-- What ties in both orders ties in the first and then in the other, -/
theorem ties_compareLex (a : α) (vs : List α) :
    ties (compareLex first rest) a vs = ties rest a (ties first a vs) := by
  rw [ties, ties, ties, List.filter_filter]
  refine List.filter_congr ?_
  intro x _
  rw [compareLex]
  cases first a x <;> cases rest a x <;> rfl

/-- whichever of the two is asked first. -/
theorem ties_comm (a : α) (vs : List α) :
    ties rest a (ties first a vs) = ties first a (ties rest a vs) := by
  rw [ties, ties, ties, ties, List.filter_filter, List.filter_filter]
  refine List.filter_congr ?_
  intro x _
  exact Bool.and_comm ..

/-- **A further stable sort refines the order**: what it leaves in place stays sorted. -/
theorem StablySorts.refine [Std.OrientedCmp first] (h : StablySorts rest xs ys)
    (h' : StablySorts first ys zs) : StablySorts (compareLex first rest) xs zs := by
  constructor
  case perm => exact h'.perm.trans h.perm
  case sorted =>
    refine List.pairwise_iff_forall_sublist.mpr ?_
    intro a b hab
    have hfirst := List.pairwise_iff_forall_sublist.mp h'.sorted hab
    rw [compareLex]
    cases ho : first a b with
    | lt => rfl
    | gt => rw [ho] at hfirst; cases hfirst
    | eq =>
        -- both have one place in the first order, so they stand as the other orders left them
        have ha : a ∈ ys := h'.perm.mem_iff.mp (hab.subset (List.mem_cons_self ..))
        have hself : first a a = .eq := Std.ReflCmp.compare_self
        have hpair : ties first a [a, b] = [a, b] := by
          rw [ties_cons_of_eq hself, ties_cons_of_eq ho]
          rfl
        have hsub : [a, b].Sublist (ties first a ys) := by
          rw [← h'.stable a ha, ← hpair]
          exact hab.filter _
        exact List.pairwise_iff_forall_sublist.mp h.sorted (hsub.trans List.filter_sublist)
  case stable =>
    intro a ha
    calc ties (compareLex first rest) a zs
        = ties rest a (ties first a zs) := ties_compareLex a zs
      _ = ties rest a (ties first a ys) := by rw [h'.stable a (h.perm.mem_iff.mpr ha)]
      _ = ties first a (ties rest a ys) := ties_comm a ys
      _ = ties first a (ties rest a xs) := by rw [h.stable a ha]
      _ = ties (compareLex first rest) a xs := by rw [← ties_comm, ← ties_compareLex]

section Several

variable (horiented : ∀ order ∈ orders, Std.OrientedCmp order)

include horiented

theorem oriented_lexicographic : Std.OrientedCmp (lexicographic orders) := by
  induction orders with
  | nil => exact ⟨rfl⟩
  | cons order orders ih =>
      have := horiented order (List.mem_cons_self ..)
      have := ih fun o ho => horiented o (List.mem_cons_of_mem _ ho)
      show Std.OrientedCmp (compareLex order (lexicographic orders))
      infer_instance

theorem transOn_lexicographic (htrans : ∀ order ∈ orders, TransOn order xs) :
    TransOn (lexicographic orders) xs := by
  induction orders with
  | nil => exact fun _ _ _ _ _ _ _ _ => rfl
  | cons order orders ih =>
      have := horiented order (List.mem_cons_self ..)
      have := oriented_lexicographic fun o ho => horiented o (List.mem_cons_of_mem _ ho)
      have := (htrans order (List.mem_cons_self ..)).transCmp
      have := (ih (fun o ho => horiented o (List.mem_cons_of_mem _ ho))
        fun o ho => htrans o (List.mem_cons_of_mem _ ho)).transCmp
      have hlex : Std.TransCmp (compareLex (fun a b : { x // x ∈ xs } => order a b)
          fun a b => lexicographic orders a b) := inferInstance
      intro a ha b hb c hc
      exact @hlex.isLE_trans ⟨a, ha⟩ ⟨b, hb⟩ ⟨c, hc⟩

/-- Stable sorts by several orders, the first one last, are a stable sort by all of them. -/
theorem stablySorts_sortEach (htrans : ∀ order ∈ orders, TransOn order xs) :
    StablySorts (lexicographic orders) xs (sortEach orders xs) := by
  induction orders with
  | nil =>
      constructor
      case perm => exact .refl _
      case sorted => exact List.pairwise_of_forall fun _ _ => rfl
      case stable => exact fun _ _ => rfl
  | cons order orders ih =>
      have := horiented order (List.mem_cons_self ..)
      have hrest := ih (fun o ho => horiented o (List.mem_cons_of_mem _ ho))
        fun o ho => htrans o (List.mem_cons_of_mem _ ho)
      have hon : TransOn order (sortEach orders xs) := by
        intro a ha b hb c hc
        exact htrans order (List.mem_cons_self ..) a (hrest.perm.mem_iff.mp ha) b
          (hrest.perm.mem_iff.mp hb) c (hrest.perm.mem_iff.mp hc)
      exact hrest.refine hon.mergeSort

end Several

end LambdaQuery.Collection
