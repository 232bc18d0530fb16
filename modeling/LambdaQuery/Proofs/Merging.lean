/-
**Insertion and merges.**  Insertion puts each item behind those of its place, and a merge takes
from the second list only what is less than the head of the first, so both leave the items of a
place as they stand.  A merge from the tails, by the order turned round, gives the same list.

The sort may give up, and what it computes with is stated for this: that a result, if there is one,
has the items of a list, and that there is one if the order is transitive on them.

Main definitions:
* `Collection.Yields` — what may be missing has a property, and it is there under a condition;
* `Collection.Arranges` — a list has the items of another, and is their stable sort if the order is
  transitive on them.

Main results:
* `Collection.yields_arranges_iff` — the two together: items are kept, and sorted where they can be;
* `Collection.Arranges.insertAll` — items that are put in one after the other;
* `Collection.mergeUp_reverse` — **merged from their tails, two lists give the same list**;
* `Collection.Arranges.mergeSorted` — merges.
-/

import LambdaQuery.Collection.StableSort
import LambdaQuery.Proofs.StableSorting

namespace LambdaQuery.Collection

variable {α β : Type} {order : α → α → Ordering} {xs ys zs us vs : List α} {a b x y : α}

theorem isLess_iff : isLess order a b = true ↔ order a b = .lt := beq_iff_eq

theorem isLess_eq_false_iff : isLess order a b = false ↔ order a b ≠ .lt := by
  rw [← Bool.not_eq_true, isLess_iff]

/-! ### Sorts that may give up -/

/-- What is there has the property, and it is there under the condition. -/
structure Yields (P : β → Prop) (when : Prop) (r : Option β) : Prop where
  holds : ∀ b, r = some b → P b
  isThere : when → ∃ b, r = some b

namespace Yields

variable {γ : Type} {P : β → Prop} {Q : γ → Prop} {when when' : Prop} {r : Option β}

theorem some {b : β} (h : P b) : Yields P when (some b) := by
  constructor
  · rintro _ ⟨⟩
    exact h
  · intro _
    exact ⟨b, rfl⟩

theorem bind {f : β → Option γ} (h : Yields P when r) (hf : ∀ b, P b → Yields Q when (f b)) :
    Yields Q when (r >>= f) := by
  constructor
  · intro c hc
    obtain ⟨b, hb, hfb⟩ := Option.bind_eq_some_iff.mp hc
    exact (hf b (h.holds b hb)).holds c hfb
  · intro hwhen
    obtain ⟨b, hb⟩ := h.isThere hwhen
    obtain ⟨c, hc⟩ := (hf b (h.holds b hb)).isThere hwhen
    exact ⟨c, Option.bind_eq_some_iff.mpr ⟨b, hb, hc⟩⟩

theorem map {f : β → γ} (h : Yields P when r) (hf : ∀ b, P b → Q (f b)) :
    Yields Q when (r.map f) := by
  rw [Option.map_eq_bind]
  exact h.bind fun b hb => .some (hf b hb)

theorem mono (h : Yields P when r) (hwhen : when' → when) : Yields P when' r :=
  ⟨h.holds, fun hw => h.isThere (hwhen hw)⟩

end Yields

/-- The second list has the items of the first, and is their stable sort if the order is transitive
on them. -/
structure Arranges (order : α → α → Ordering) (xs ys : List α) : Prop where
  perm : ys.Perm xs
  stable : TransOn order xs → StablySorts order xs ys

/-- A list of one item at most is sorted. -/
theorem arranges_of_length_lt (h : xs.length < 2) : Arranges order xs xs := by
  refine ⟨.refl xs, fun _ => .refl ?_⟩
  match xs with
  | [] => exact .nil
  | [x] => exact List.pairwise_singleton ..
  | _ :: _ :: _ => simp at h

theorem arranges_nil : Arranges order [] [] := arranges_of_length_lt Nat.zero_lt_two

/-- A sort that may give up keeps the items, and gives the stable sort of those that its order is
transitive on. -/
theorem yields_arranges_iff {r : Option (List α)} :
    Yields (Arranges order xs) (TransOn order xs) r ↔
      (∀ ys, r = some ys → ys.Perm xs) ∧
        (TransOn order xs → ∃ ys, r = some ys ∧ StablySorts order xs ys) := by
  constructor
  · intro h
    refine ⟨fun ys hys => (h.holds ys hys).perm, fun htrans => ?_⟩
    obtain ⟨ys, hys⟩ := h.isThere htrans
    exact ⟨ys, hys, (h.holds ys hys).stable htrans⟩
  · rintro ⟨hperm, hsorts⟩
    constructor
    · intro ys hys
      refine ⟨hperm ys hys, fun htrans => ?_⟩
      obtain ⟨zs, hzs, hstable⟩ := hsorts htrans
      obtain rfl := Option.some.inj (hys.symm.trans hzs)
      exact hstable
    · intro htrans
      obtain ⟨ys, hys, -⟩ := hsorts htrans
      exact ⟨ys, hys⟩

/-! ### Insertion -/

theorem insertEntry_perm (order : α → α → Ordering) (x : α) (ys : List α) :
    (insertEntry order x ys).Perm (x :: ys) := by
  induction ys with
  | nil => exact .refl _
  | cons y ys ih =>
      rw [insertEntry]
      split
      · exact (ih.cons y).trans (.swap x y ys)
      · exact .refl _

theorem insertAll_snoc (order : α → α → Ordering) (ys zs : List α) (x : α) :
    insertAll order ys (zs ++ [x]) =
      (insertEntry order x (insertAll order ys zs).reverse).reverse := by
  rw [insertAll, List.foldl_append, insertAll, List.reverse_reverse]
  rfl

section Oriented

variable [Std.OrientedCmp order]

/-- What does not come before an item is bounded by it. -/
theorem isLE_of_isLess_eq_false (h : isLess order a b = false) : (order b a).isLE = true :=
  isLE_of_ne_lt (isLess_eq_false_iff.mp h)

/-- Putting an item in keeps a descending list descending. -/
theorem insertEntry_sorted (h : TransOn order (x :: ys))
    (hys : ys.Pairwise fun a b => (order b a).isLE = true) :
    (insertEntry order x ys).Pairwise fun a b => (order b a).isLE = true := by
  induction ys with
  | nil => exact List.pairwise_singleton ..
  | cons y ys ih =>
      obtain ⟨hy, hys⟩ := List.pairwise_cons.mp hys
      rw [insertEntry]
      split
      · rename_i hxy
        refine List.pairwise_cons.mpr ⟨fun b hb => ?_, ih (h.mono (by grind)) hys⟩
        rcases List.mem_cons.mp ((insertEntry_perm order x ys).mem_iff.mp hb) with rfl | hb
        · exact Ordering.isLE_of_eq_lt (isLess_iff.mp hxy)
        · exact hy b hb
      · rename_i hxy
        have hyx : (order y x).isLE = true :=
          isLE_of_isLess_eq_false (by simpa using hxy)
        refine List.pairwise_cons.mpr ⟨fun b hb => ?_, List.pairwise_cons.mpr ⟨hy, hys⟩⟩
        rcases List.mem_cons.mp hb with rfl | hb
        · exact hyx
        · exact h b (by simp [hb]) y (by simp) x (by simp) (hy b hb) hyx

/-- An item comes before the items of its place in a descending list, and changes no other place. -/
theorem ties_insertEntry (h : TransOn order (a :: x :: ys)) :
    ties order a (insertEntry order x ys) = ties order a (x :: ys) := by
  induction ys with
  | nil => rfl
  | cons y ys ih =>
      have ih := ih (h.mono (by grind))
      rw [insertEntry]
      split
      · rename_i hxy
        by_cases hax : order a x = .eq
        · have hay : order a y ≠ .eq := by
            rw [h.congr_left (by simp) (by simp) (by simp) hax, isLess_iff.mp hxy]
            simp
          rw [ties_cons_of_ne hay, ih, ties_cons_of_eq hax, ties_cons_of_eq hax,
            ties_cons_of_ne hay]
        · rw [ties_cons_of_ne hax] at ih ⊢
          by_cases hay : order a y = .eq
          · rw [ties_cons_of_eq hay, ties_cons_of_eq hay, ih]
          · rw [ties_cons_of_ne hay, ties_cons_of_ne hay, ih]
      · rfl

/-- One more item put into a stable sort gives that of one more item. -/
theorem StablySorts.insertEntry (h : StablySorts order xs ys) (htrans : TransOn order (xs ++ [x])) :
    StablySorts order (xs ++ [x]) (insertEntry order x ys.reverse).reverse := by
  have hperm : (x :: ys.reverse).Perm (xs ++ [x]) :=
    ((ys.reverse_perm.trans h.perm).cons x).trans (List.perm_append_singleton x xs).symm
  constructor
  case perm => exact (List.reverse_perm _).trans ((insertEntry_perm ..).trans hperm)
  case sorted =>
    exact List.pairwise_reverse.mpr
      (insertEntry_sorted (htrans.perm hperm) (List.pairwise_reverse.mpr h.sorted))
  case stable =>
    intro a ha
    have hxs : TransOn order (a :: xs) :=
      htrans.mono (List.cons_subset.mpr ⟨ha, List.subset_append_left ..⟩)
    have hall : TransOn order (a :: x :: ys.reverse) :=
      htrans.mono (List.cons_subset.mpr ⟨ha, hperm.subset⟩)
    rw [ties_reverse, ties_insertEntry hall, ← ties_reverse, List.reverse_cons,
      List.reverse_reverse, ties_append, ties_append, h.ties_eq hxs]

/-- **Items that are put in one after the other are sorted stably.** -/
theorem Arranges.insertAll (h : Arranges order xs ys) (zs : List α) :
    Arranges order (xs ++ zs) (insertAll order ys zs) := by
  induction zs using List.reverseRecOn with
  | nil =>
      rw [List.append_nil, Collection.insertAll, List.foldl_nil, List.reverse_reverse]
      exact h
  | append_singleton zs x ih =>
      rw [insertAll_snoc, ← List.append_assoc]
      constructor
      case perm =>
        calc (Collection.insertEntry order x (Collection.insertAll order ys zs).reverse).reverse
            |>.Perm (Collection.insertEntry order x (Collection.insertAll order ys zs).reverse) :=
              List.reverse_perm _
          _ |>.Perm (x :: (Collection.insertAll order ys zs).reverse) := insertEntry_perm ..
          _ |>.Perm (x :: (xs ++ zs)) := ((List.reverse_perm _).trans ih.perm).cons x
          _ |>.Perm (xs ++ zs ++ [x]) := (List.perm_append_singleton x _).symm
      case stable =>
        intro htrans
        exact (ih.stable (htrans.mono (List.subset_append_left ..))).insertEntry htrans

theorem arranges_insertionSort (xs : List α) : Arranges order xs (insertionSort order xs) :=
  arranges_nil.insertAll xs

/-! ### Merging -/

omit [Std.OrientedCmp order] in
theorem mergeUp_nil_left (ys : List α) : mergeUp order [] ys = ys := List.nil_merge ..

omit [Std.OrientedCmp order] in
theorem mergeUp_nil_right (xs : List α) : mergeUp order xs [] = xs := List.merge_right ..

omit [Std.OrientedCmp order] in
theorem mergeUp_cons_cons :
    mergeUp order (x :: xs) (y :: ys) =
      if isLess order y x then y :: mergeUp order (x :: xs) ys
      else x :: mergeUp order xs (y :: ys) := by
  rw [mergeUp, List.cons_merge_cons]
  cases isLess order y x <;> rfl

omit [Std.OrientedCmp order] in
theorem mergeUp_perm (xs ys : List α) : (mergeUp order xs ys).Perm (xs ++ ys) :=
  List.merge_perm_append ..

theorem mergeUp_sorted (h : TransOn order (xs ++ ys))
    (hxs : xs.Pairwise fun a b => (order a b).isLE = true)
    (hys : ys.Pairwise fun a b => (order a b).isLE = true) :
    (mergeUp order xs ys).Pairwise fun a b => (order a b).isLE = true := by
  induction xs generalizing ys with
  | nil => rwa [mergeUp_nil_left]
  | cons x xs ihx =>
      induction ys with
      | nil => rwa [mergeUp_nil_right]
      | cons y ys ihy =>
          have hx := List.pairwise_cons.mp hxs
          have hy := List.pairwise_cons.mp hys
          rw [mergeUp_cons_cons]
          split
          · rename_i hyx
            refine List.pairwise_cons.mpr ⟨fun b hb => ?_, ihy (h.mono (by grind)) hy.2⟩
            have hle := Ordering.isLE_of_eq_lt (isLess_iff.mp hyx)
            rcases List.mem_append.mp ((mergeUp_perm ..).mem_iff.mp hb) with hb | hb
            · rcases List.mem_cons.mp hb with rfl | hb
              · exact hle
              · exact h y (by simp) x (by simp) b (by simp [hb]) hle (hx.1 b hb)
            · exact hy.1 b hb
          · rename_i hyx
            refine List.pairwise_cons.mpr ⟨fun b hb => ?_, ihx (h.mono (by grind)) hx.2 hys⟩
            have hle : (order x y).isLE = true :=
              isLE_of_isLess_eq_false (by simpa using hyx)
            rcases List.mem_append.mp ((mergeUp_perm ..).mem_iff.mp hb) with hb | hb
            · exact hx.1 b hb
            · rcases List.mem_cons.mp hb with rfl | hb
              · exact hle
              · exact h x (by simp) y (by simp) b (by simp [hb]) hle (hy.1 b hb)

/-- The items of a place come from the first list, and then from the second. -/
theorem ties_mergeUp (h : TransOn order (a :: (xs ++ ys)))
    (hxs : xs.Pairwise fun a b => (order a b).isLE = true) :
    ties order a (mergeUp order xs ys) = ties order a xs ++ ties order a ys := by
  induction xs generalizing ys with
  | nil => rw [mergeUp_nil_left]; rfl
  | cons x xs ihx =>
      induction ys with
      | nil =>
          rw [mergeUp_nil_right]
          exact (List.append_nil _).symm
      | cons y ys ihy =>
          obtain ⟨hx, hxs'⟩ := List.pairwise_cons.mp hxs
          rw [mergeUp_cons_cons]
          split
          · rename_i hyx
            have ih := ihy (h.mono (by grind))
            by_cases hay : order a y = .eq
            · -- what is in the place of `y` is less than all that is left of the first list
              have hnone : ties order a (x :: xs) = [] := by
                refine List.filter_eq_nil_iff.mpr fun z hz => ?_
                have hxz : (order x z).isLE = true := by
                  rcases List.mem_cons.mp hz with rfl | hz
                  · exact isLE_self z
                  · exact hx z hz
                rw [h.congr_left (by simp) (by simp) (by grind) hay,
                  h.lt_of_lt_of_isLE (by simp) (by simp) (by grind)
                    (isLess_iff.mp hyx) hxz]
                simp
              rw [ties_cons_of_eq hay, ih, hnone, ties_cons_of_eq hay]
              rfl
            · rw [ties_cons_of_ne hay, ih, ties_cons_of_ne hay]
          · have hrest : TransOn order (a :: (xs ++ y :: ys)) := h.mono (by grind)
            have ih := ihx hrest hxs'
            by_cases hax : order a x = .eq
            · rw [ties_cons_of_eq hax, ih, ties_cons_of_eq hax]
              rfl
            · rw [ties_cons_of_ne hax, ih, ties_cons_of_ne hax]

/-- The merge of stable sorts is a stable sort. -/
theorem StablySorts.mergeUp (h : StablySorts order xs us) (h' : StablySorts order ys vs)
    (htrans : TransOn order (xs ++ ys)) :
    StablySorts order (xs ++ ys) (mergeUp order us vs) := by
  have hperm : (us ++ vs).Perm (xs ++ ys) := h.perm.append h'.perm
  constructor
  case perm => exact (mergeUp_perm us vs).trans hperm
  case sorted => exact mergeUp_sorted (htrans.perm hperm) h.sorted h'.sorted
  case stable =>
    intro a ha
    have hon : ∀ zs ⊆ xs ++ ys, TransOn order (a :: zs) :=
      fun zs hzs => htrans.mono (List.cons_subset.mpr ⟨ha, hzs⟩)
    rw [ties_mergeUp (hon _ hperm.subset) h.sorted, h.ties_eq (hon _ (List.subset_append_left ..)),
      h'.ties_eq (hon _ (List.subset_append_right ..)), ties_append]

/-- Merged from their ends, two stable sorts give the same list. -/
theorem mergeUp_reverse (h : TransOn order (xs ++ ys))
    (hxs : xs.Pairwise fun a b => (order a b).isLE = true)
    (hys : ys.Pairwise fun a b => (order a b).isLE = true) :
    mergeUp (flip order) ys.reverse xs.reverse = (mergeUp order xs ys).reverse := by
  have := oriented_flip order
  have hflip : TransOn (flip order) (ys.reverse ++ xs.reverse) := by
    rw [← List.reverse_append]
    exact h.flip.perm (List.reverse_perm _)
  have hends := (StablySorts.refl hys).reverse.mergeUp (StablySorts.refl hxs).reverse hflip
  have hheads := ((StablySorts.refl hxs).mergeUp (StablySorts.refl hys) h).reverse
  rw [← List.reverse_append] at hends
  exact hends.unique hheads

/-- **Merges sort stably**, from whichever end they go. -/
theorem Arranges.mergeSorted (h : Arranges order xs us) (h' : Arranges order ys vs) :
    Arranges order (xs ++ ys) (mergeSorted order us vs) := by
  constructor
  case perm =>
    refine List.Perm.trans ?_ (h.perm.append h'.perm)
    rw [Collection.mergeSorted]
    split
    · exact mergeUp_perm us vs
    · refine (List.reverse_perm _).trans ((mergeUp_perm ..).trans ?_)
      rw [← List.reverse_append]
      exact List.reverse_perm _
  case stable =>
    intro htrans
    have hus := h.stable (htrans.mono (List.subset_append_left ..))
    have hvs := h'.stable (htrans.mono (List.subset_append_right ..))
    have hmerge := hus.mergeUp hvs htrans
    rw [Collection.mergeSorted]
    split
    · exact hmerge
    · rwa [mergeUp_reverse (htrans.perm (h.perm.append h'.perm)) hus.sorted hvs.sorted,
        List.reverse_reverse]

end Oriented

end LambdaQuery.Collection
