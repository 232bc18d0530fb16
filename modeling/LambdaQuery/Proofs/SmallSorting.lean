/-
**Sorting few items.**  A small list is merged from both ends at once, and neither end knows of the
other.  Each of them cuts the two lists at a place, such that nothing before the cut belongs behind
anything after it.  If the order is transitive on the items, two such cuts are never crossed: where
they were, an item of the one list and an item of the other would have been compared with opposite
results.  So the ends meet, and what they have drawn is the merge.  An order that is not transitive
may cross the cuts, and the sort gives up.

Main definitions:
* `Collection.Cut` — two sorted lists are cut at a place of their merge;
* `Collection.Draws` — the items that a merge draws first, and where it has arrived with them.

Main results:
* `Collection.Cut.not_crossed` — **two cuts are not crossed**;
* `Collection.exists_draws` — what is drawn is what the merge begins with;
* `Collection.exists_between` — neither end of a merge passes the other, for an order of the items;
* `Collection.mergeFromEnds_eq` — **so they meet**, and what they have drawn is the merge;
* `Collection.sortFour_eq` — four items are sorted as two pairs that are merged;
* `Collection.smallSort_yields` — the sort of a small list.
-/

import LambdaQuery.Proofs.Merging

namespace LambdaQuery.Collection

variable {α : Type} {order : α → α → Ordering} {xs ys zs us vs : List α} {a b x y : α}

/-! ### Cuts -/

/-- Two lists are cut, such that nothing before the cut belongs behind anything after it. -/
structure Cut (order : α → α → Ordering) (xs₁ xs₂ ys₁ ys₂ : List α) : Prop where
  left : ∀ x ∈ xs₁, ∀ y ∈ ys₂, order y x ≠ .lt
  right : ∀ y ∈ ys₁, ∀ x ∈ xs₂, order y x = .lt

section Cut

variable {xs₁ xs₂ ys₁ ys₂ us₁ us₂ vs₁ vs₂ : List α}

/-- Of two ways to split a list, the one that splits later has an item before that the other has
behind. -/
theorem exists_mem_between (h : xs₁ ++ xs₂ = us₁ ++ us₂) (hlt : xs₁.length < us₁.length) :
    ∃ x, x ∈ us₁ ∧ x ∈ xs₂ := by
  obtain ⟨us, rfl, rfl⟩ | ⟨us, rfl, -⟩ := List.append_eq_append_iff.mp h
  · cases us with
    | nil => simp at hlt
    | cons u us => exact ⟨u, by simp, by simp⟩
  · simp at hlt

/-- **Two cuts are not crossed**: where one takes more of the first list, it takes no less of the
second. -/
theorem Cut.not_crossed (h : Cut order xs₁ xs₂ ys₁ ys₂) (h' : Cut order us₁ us₂ vs₁ vs₂)
    (hxs : xs₁ ++ xs₂ = us₁ ++ us₂) (hys : ys₁ ++ ys₂ = vs₁ ++ vs₂)
    (hlt : xs₁.length < us₁.length) : ys₁.length ≤ vs₁.length := by
  by_contra hlt'
  obtain ⟨x, hxu, hxs⟩ := exists_mem_between hxs hlt
  obtain ⟨y, hys, hyv⟩ := exists_mem_between hys.symm (Nat.lt_of_not_le hlt')
  exact h'.left x hxu y hyv (h.right y hys x hxs)

/-- The items that a merge draws first, and the cut at which it has arrived with them. -/
structure Draws (order : α → α → Ordering) (xs ys drawn xs₁ xs₂ ys₁ ys₂ : List α) : Prop where
  left : xs = xs₁ ++ xs₂
  right : ys = ys₁ ++ ys₂
  perm : drawn.Perm (xs₁ ++ ys₁)
  merge : mergeUp order xs ys = drawn ++ mergeUp order xs₂ ys₂
  cut : TransOn order (xs ++ ys) → (xs.Pairwise fun a b => (order a b).isLE = true) →
    (ys.Pairwise fun a b => (order a b).isLE = true) → Cut order xs₁ xs₂ ys₁ ys₂

theorem Draws.nothing (xs ys : List α) : Draws order xs ys [] [] xs [] ys where
  left := rfl
  right := rfl
  perm := .refl []
  merge := rfl
  cut _ _ _ := ⟨nofun, nofun⟩

variable [Std.OrientedCmp order] {drawn : List α}

/-- The head of the first list is drawn if that of the second is not less, -/
theorem Draws.left_cons (h : Draws order xs (y :: ys) drawn xs₁ xs₂ ys₁ ys₂)
    (hyx : order y x ≠ .lt) :
    Draws order (x :: xs) (y :: ys) (x :: drawn) (x :: xs₁) xs₂ ys₁ ys₂ where
  left := congrArg (x :: ·) h.left
  right := h.right
  perm := h.perm.cons x
  merge := by
    rw [mergeUp_cons_cons, if_neg (by rwa [isLess_iff]), h.merge]
    rfl
  cut := by
    intro htrans hxs hys
    obtain ⟨hleft, hright⟩ := h.cut (htrans.mono (by grind)) hxs.of_cons hys
    refine ⟨List.forall_mem_cons.mpr ⟨fun z hz hzx => ?_, hleft⟩, hright⟩
    have hz : z ∈ y :: ys := h.right ▸ List.mem_append_right ys₁ hz
    have hyz : (order y z).isLE = true := by
      rcases List.mem_cons.mp hz with rfl | hz
      · exact isLE_self z
      · exact List.rel_of_pairwise_cons hys hz
    exact hyx (htrans.lt_of_isLE_of_lt (by simp) (by grind) (by simp) hyz hzx)

/-- and that of the second if it is. -/
theorem Draws.right_cons (h : Draws order (x :: xs) ys drawn xs₁ xs₂ ys₁ ys₂)
    (hyx : order y x = .lt) :
    Draws order (x :: xs) (y :: ys) (y :: drawn) xs₁ xs₂ (y :: ys₁) ys₂ where
  left := h.left
  right := congrArg (y :: ·) h.right
  perm := (h.perm.cons y).trans List.perm_middle.symm
  merge := by
    rw [mergeUp_cons_cons, if_pos (isLess_iff.mpr hyx), h.merge]
    rfl
  cut := by
    intro htrans hxs hys
    obtain ⟨hleft, hright⟩ := h.cut (htrans.mono (by grind)) hxs hys.of_cons
    refine ⟨hleft, List.forall_mem_cons.mpr ⟨fun z hz => ?_, hright⟩⟩
    have hz : z ∈ x :: xs := h.left ▸ List.mem_append_right xs₁ hz
    have hxz : (order x z).isLE = true := by
      rcases List.mem_cons.mp hz with rfl | hz
      · exact isLE_self z
      · exact List.rel_of_pairwise_cons hxs hz
    exact htrans.lt_of_lt_of_isLE (by simp) (by simp) (by grind) hyx hxz

/-- **What is drawn from the heads is what the merge begins with.** -/
theorem exists_draws (order : α → α → Ordering) [Std.OrientedCmp order] (n : Nat)
    (xs ys : List α) :
    ∃ drawn xs₁ xs₂ ys₁ ys₂, draw order n xs ys = (drawn, xs₂, ys₂) ∧
      Draws order xs ys drawn xs₁ xs₂ ys₁ ys₂ ∧
      (n ≤ xs.length → n ≤ ys.length → drawn.length = n) := by
  induction n generalizing xs ys with
  | zero => exact ⟨_, _, _, _, _, rfl, .nothing xs ys, fun _ _ => rfl⟩
  | succ n ih =>
      cases xs with
      | nil => exact ⟨_, _, _, _, _, rfl, .nothing [] ys, nofun⟩
      | cons x xs =>
          cases ys with
          | nil => exact ⟨_, _, _, _, _, rfl, .nothing (x :: xs) [], nofun⟩
          | cons y ys =>
              by_cases hyx : order y x = .lt
              · obtain ⟨drawn, xs₁, xs₂, ys₁, ys₂, hdraw, hdraws, hlength⟩ := ih (x :: xs) ys
                refine ⟨_, _, _, _, _, ?_, hdraws.right_cons hyx, fun hx hy => ?_⟩
                · rw [draw, if_pos (isLess_iff.mpr hyx), hdraw]
                · rw [List.length_cons, hlength (Nat.le_of_succ_le hx) (Nat.le_of_succ_le_succ hy)]
              · obtain ⟨drawn, xs₁, xs₂, ys₁, ys₂, hdraw, hdraws, hlength⟩ := ih xs (y :: ys)
                refine ⟨_, _, _, _, _, ?_, hdraws.left_cons hyx, fun hx hy => ?_⟩
                · rw [draw, if_neg (by rwa [isLess_iff]), hdraw]
                · rw [List.length_cons, hlength (Nat.le_of_succ_le_succ hx) (Nat.le_of_succ_le hy)]

end Cut

/-! ### The ends of a merge -/

section Ends

variable {low high xsLow xsUp ysLow ysUp xsHigh xsDown ysHigh ysDown : List α}

/-- Two beginnings of a list of one length are one. -/
theorem eq_reverse_of_length_eq {xsMid : List α} (xsUp : List α)
    (h : xs = xsLow ++ xsMid ++ xsUp)
    (h' : xs.reverse = xsHigh ++ xsDown)
    (hlength : xsLow.length + xsMid.length = xsDown.length) : xsLow ++ xsMid = xsDown.reverse := by
  have hdown : xs = xsDown.reverse ++ xsHigh.reverse := by
    rw [← List.reverse_append, ← h', List.reverse_reverse]
  exact (List.append_inj (h.symm.trans hdown) (by simpa using hlength)).1

variable (up : Draws order xs ys low xsLow xsUp ysLow ysUp)
  (down : Draws (flip order) ys.reverse xs.reverse high ysHigh ysDown xsHigh xsDown)

include up down

/-- Behind the place where the ends have met, each list has what the upper end has drawn of it. -/
theorem Draws.left_of_meet {xsMid : List α} (hx : xsLow ++ xsMid = xsDown.reverse) :
    xsUp = xsMid ++ xsHigh.reverse := by
  have hxs : xs = xsDown.reverse ++ xsHigh.reverse := by
    rw [← List.reverse_append, ← down.right, List.reverse_reverse]
  rw [← hx, up.left, List.append_assoc] at hxs
  exact List.append_cancel_left hxs

theorem Draws.right_of_meet {ysMid : List α} (hy : ysLow ++ ysMid = ysDown.reverse) :
    ysUp = ysMid ++ ysHigh.reverse := by
  have hys : ys = ysDown.reverse ++ ysHigh.reverse := by
    rw [← List.reverse_append, ← down.left, List.reverse_reverse]
  rw [← hy, up.right, List.append_assoc] at hys
  exact List.append_cancel_left hys

section Drawn

variable (hup : draw order ((xs.length + ys.length) / 2) xs ys = (low, xsUp, ysUp))
  (hdown : draw (flip order) ((xs.length + ys.length) / 2) ys.reverse xs.reverse =
    (high, ysDown, xsDown))

include hup hdown

/-- If the merge gives a list, its ends have met: between them are the items that neither has
drawn. -/
theorem exists_of_mergeFromEnds (h : mergeFromEnds order xs ys = some zs) :
    ∃ xsMid ysMid, xsLow ++ xsMid = xsDown.reverse ∧ ysLow ++ ysMid = ysDown.reverse ∧
      zs = low ++ (xsMid ++ ysMid) ++ high.reverse := by
  have hxs : xs.length - xsUp.length = xsLow.length := by simp [up.left]
  have hys : ys.length - ysUp.length = ysLow.length := by simp [up.right]
  have hx := congrArg List.length down.right
  have hy := congrArg List.length down.left
  have hx' := congrArg List.length up.left
  have hy' := congrArg List.length up.right
  simp only [List.length_reverse, List.length_append] at hx hy hx' hy'
  rw [mergeFromEnds] at h
  simp only [hup, hdown, hxs, hys] at h
  by_cases heven : (xs.length + ys.length) % 2 = 0
  · simp only [heven, if_true] at h
    split at h
    · rename_i hmeet
      refine ⟨[], [], ?_, ?_, (Option.some.inj h).symm⟩
      · exact eq_reverse_of_length_eq xsUp (by simp [up.left]) down.right hmeet.1
      · exact eq_reverse_of_length_eq ysUp (by simp [up.right]) down.left hmeet.2
    · cases h
  · simp only [heven, if_false] at h
    by_cases hlt : xsLow.length < xsDown.length
    · simp only [hlt, if_true] at h
      split at h
      · rename_i hmeet
        refine ⟨xsUp.take 1, [], ?_, ?_, ?_⟩
        · exact eq_reverse_of_length_eq (xsUp.drop 1)
            (by rw [List.append_assoc, List.take_append_drop]; exact up.left) down.right
            (by rw [List.length_take]; omega)
        · exact eq_reverse_of_length_eq ysUp (by simp [up.right]) down.left hmeet.2
        · rw [List.append_nil]
          exact (Option.some.inj h).symm
      · cases h
    · simp only [hlt, if_false] at h
      split at h
      · rename_i hmeet
        refine ⟨[], ysUp.take 1, ?_, ?_, ?_⟩
        · exact eq_reverse_of_length_eq xsUp (by simp [up.left]) down.right hmeet.1
        · exact eq_reverse_of_length_eq (ysUp.drop 1)
            (by rw [List.append_assoc, List.take_append_drop]; exact up.right) down.left
            (by rw [List.length_take]; omega)
        · exact (Option.some.inj h).symm
      · cases h

/-- Where they have met, the merge gives the list. -/
theorem mergeFromEnds_of_meet {xsMid ysMid : List α} (hx : xsLow ++ xsMid = xsDown.reverse)
    (hy : ysLow ++ ysMid = ysDown.reverse)
    (hlength : xsMid.length + ysMid.length = (xs.length + ys.length) % 2) :
    mergeFromEnds order xs ys = some (low ++ (xsMid ++ ysMid) ++ high.reverse) := by
  have hxs : xs.length - xsUp.length = xsLow.length := by simp [up.left]
  have hys : ys.length - ysUp.length = ysLow.length := by simp [up.right]
  have hxsUp := up.left_of_meet down hx
  have hysUp := up.right_of_meet down hy
  have hxsDown := congrArg List.length hx
  have hysDown := congrArg List.length hy
  simp only [List.length_append, List.length_reverse] at hxsDown hysDown
  rw [mergeFromEnds]
  simp only [hup, hdown, hxs, hys]
  by_cases heven : (xs.length + ys.length) % 2 = 0
  · obtain ⟨hxMid, hyMid⟩ : xsMid = [] ∧ ysMid = [] := by
      rw [heven] at hlength
      exact ⟨List.eq_nil_of_length_eq_zero (by omega), List.eq_nil_of_length_eq_zero (by omega)⟩
    subst hxMid hyMid
    simp only [heven, if_true]
    exact if_pos ⟨hxsDown, hysDown⟩
  · simp only [heven, if_false]
    cases xsMid with
    | nil =>
        obtain ⟨y, rfl⟩ := List.length_eq_one_iff.mp (show ysMid.length = 1 by
          simp only [List.length_nil] at hlength; omega)
        simp only [List.length_nil, List.length_singleton] at hxsDown hysDown
        have hlt : ¬ xsLow.length < xsDown.length := by omega
        simp only [hlt, if_false, hysUp]
        exact if_pos ⟨hxsDown, hysDown⟩
    | cons x xsMid =>
        obtain ⟨rfl, rfl⟩ : xsMid = [] ∧ ysMid = [] := by
          simp only [List.length_cons] at hlength
          exact ⟨List.eq_nil_of_length_eq_zero (by omega), List.eq_nil_of_length_eq_zero (by omega)⟩
        simp only [List.length_nil, List.length_singleton] at hxsDown hysDown
        have hlt : xsLow.length < xsDown.length := by omega
        simp only [hlt, if_true, hxsUp]
        exact if_pos ⟨hxsDown, hysDown⟩

end Drawn

/-- Where the ends have met, they have drawn all the items. -/
theorem perm_of_meet {xsMid ysMid : List α} (hx : xsLow ++ xsMid = xsDown.reverse)
    (hy : ysLow ++ ysMid = ysDown.reverse) :
    (low ++ (xsMid ++ ysMid) ++ high.reverse).Perm (xs ++ ys) := by
  have hhigh : high.reverse.Perm (xsHigh.reverse ++ ysHigh.reverse) := by
    rw [← List.reverse_append]
    exact (List.reverse_perm _).trans (down.perm.trans (List.reverse_perm _).symm)
  calc low ++ (xsMid ++ ysMid) ++ high.reverse
      |>.Perm (xsLow ++ ysLow ++ (xsMid ++ ysMid) ++ (xsHigh.reverse ++ ysHigh.reverse)) :=
        (up.perm.append_right _).append hhigh
    _ |>.Perm (xsLow ++ (xsMid ++ xsHigh.reverse) ++ (ysLow ++ (ysMid ++ ysHigh.reverse))) := by
      classical
      refine List.perm_iff_count.mpr fun x => ?_
      simp only [List.count_append]
      omega
    _ |>.Perm (xs ++ ys) := by
      rw [← up.left_of_meet down hx, ← up.right_of_meet down hy, ← up.left, ← up.right]

variable [Std.OrientedCmp order] (htrans : TransOn order (xs ++ ys))
  (hxs : xs.Pairwise fun a b => (order a b).isLE = true)
  (hys : ys.Pairwise fun a b => (order a b).isLE = true)

include htrans hxs hys

/-- By an order of the items, the two ends stand at cuts of one merge. -/
theorem cuts_of_ends : Cut order xsLow xsUp ysLow ysUp ∧
    Cut order xsDown.reverse xsHigh.reverse ysDown.reverse ysHigh.reverse := by
  have := oriented_flip order
  have hflip : TransOn (flip order) (ys.reverse ++ xs.reverse) := by
    rw [← List.reverse_append]
    exact htrans.flip.perm (List.reverse_perm _)
  have hdown := down.cut hflip (List.pairwise_reverse.mpr hys) (List.pairwise_reverse.mpr hxs)
  refine ⟨up.cut htrans hxs hys, ?_, ?_⟩
  · intro x hx y hy
    exact hdown.left y (List.mem_reverse.mp hy) x (List.mem_reverse.mp hx)
  · intro y hy x hx
    exact hdown.right x (List.mem_reverse.mp hx) y (List.mem_reverse.mp hy)

/-- So if they have not drawn more items than there are, neither has passed the other in a list. -/
theorem exists_between (hlength : low.length + high.length ≤ xs.length + ys.length) :
    ∃ xsMid ysMid, xsLow ++ xsMid = xsDown.reverse ∧ ysLow ++ ysMid = ysDown.reverse := by
  obtain ⟨hcut, hcut'⟩ := cuts_of_ends up down htrans hxs hys
  have hx : xsLow ++ xsUp = xsDown.reverse ++ xsHigh.reverse := by
    rw [← up.left, ← List.reverse_append, ← down.right, List.reverse_reverse]
  have hy : ysLow ++ ysUp = ysDown.reverse ++ ysHigh.reverse := by
    rw [← up.right, ← List.reverse_append, ← down.left, List.reverse_reverse]
  have hcross := hcut.not_crossed hcut' hx hy
  have hcross' := hcut'.not_crossed hcut hx.symm hy.symm
  have hlow := up.perm.length_eq
  have hhigh := down.perm.length_eq
  have hxlength := congrArg List.length down.right
  have hylength := congrArg List.length down.left
  simp only [List.length_reverse, List.length_append] at hcross hcross' hlow hhigh hxlength hylength
  obtain ⟨xsMid, hxMid⟩ : xsLow <+: xsDown.reverse :=
    List.prefix_of_prefix_length_le ⟨xsUp, rfl⟩ ⟨xsHigh.reverse, hx.symm⟩
      (by rw [List.length_reverse]; omega)
  obtain ⟨ysMid, hyMid⟩ : ysLow <+: ysDown.reverse :=
    List.prefix_of_prefix_length_le ⟨ysUp, rfl⟩ ⟨ysHigh.reverse, hy.symm⟩
      (by rw [List.length_reverse]; omega)
  exact ⟨xsMid, ysMid, hxMid, hyMid⟩

end Ends

/-! ### Two ends that meet -/

theorem mergeUp_of_left (h : ∀ y ∈ ys, order y x ≠ .lt) :
    mergeUp order (x :: xs) ys = x :: mergeUp order xs ys := by
  cases ys with
  | nil => rw [mergeUp_nil_right, mergeUp_nil_right]
  | cons y ys =>
      rw [mergeUp_cons_cons, if_neg]
      rw [isLess_iff]
      exact h y (List.mem_cons_self ..)

theorem mergeUp_of_right (h : ∀ x ∈ xs, order y x = .lt) :
    mergeUp order xs (y :: ys) = y :: mergeUp order xs ys := by
  cases xs with
  | nil => rw [mergeUp_nil_left, mergeUp_nil_left]
  | cons x xs => rw [mergeUp_cons_cons, if_pos (isLess_iff.mpr (h x (List.mem_cons_self ..)))]

/-- What stands between two ends is drawn next, if it is one item at most. -/
theorem mergeUp_between {xsMid ysMid xsHigh ysHigh : List α}
    (hlength : xsMid.length + ysMid.length ≤ 1)
    (h : Cut order xsMid xsHigh ysMid ysHigh) :
    mergeUp order (xsMid ++ xsHigh) (ysMid ++ ysHigh) =
      xsMid ++ ysMid ++ mergeUp order xsHigh ysHigh := by
  match xsMid, ysMid with
  | [], [] => rfl
  | [x], [] => exact mergeUp_of_left fun y hy => h.left x (List.mem_singleton_self x) y hy
  | [], [y] => exact mergeUp_of_right fun x hx => h.right y (List.mem_singleton_self y) x hx
  | x :: _, y :: _ => simp only [List.length_cons] at hlength; omega
  | _ :: _ :: _, [] => simp at hlength
  | [], _ :: _ :: _ => simp at hlength

section Meeting

variable [Std.OrientedCmp order]

/-- **The ends of a merge meet**, and what they have drawn is the merge, if the order is transitive
on the items. -/
theorem mergeFromEnds_eq (htrans : TransOn order (xs ++ ys))
    (hxs : xs.Pairwise fun a b => (order a b).isLE = true)
    (hys : ys.Pairwise fun a b => (order a b).isLE = true) (hle : xs.length ≤ ys.length)
    (hle' : ys.length ≤ xs.length + 1) :
    mergeFromEnds order xs ys = some (mergeUp order xs ys) := by
  have := oriented_flip order
  obtain ⟨low, xsLow, xsUp, ysLow, ysUp, hup, up, hlow⟩ :=
    exists_draws order ((xs.length + ys.length) / 2) xs ys
  obtain ⟨high, ysHigh, ysDown, xsHigh, xsDown, hdown, down, hhigh⟩ :=
    exists_draws (flip order) ((xs.length + ys.length) / 2) ys.reverse xs.reverse
  have hlow' := up.perm.length_eq
  have hhigh' := down.perm.length_eq
  simp only [List.length_reverse] at hlow hhigh
  simp only [List.length_append] at hlow' hhigh'
  have hlow := hlow (by omega) (by omega)
  have hhigh := hhigh (by omega) (by omega)
  obtain ⟨xsMid, ysMid, hxMid, hyMid⟩ := exists_between up down htrans hxs hys (by omega)
  have hxlength := congrArg List.length down.right
  have hylength := congrArg List.length down.left
  have hxMid' := congrArg List.length hxMid
  have hyMid' := congrArg List.length hyMid
  simp only [List.length_reverse, List.length_append] at hxlength hylength hxMid' hyMid'
  rw [mergeFromEnds_of_meet up down hup hdown hxMid hyMid (by omega)]
  have hbetween : Cut order xsMid xsHigh.reverse ysMid ysHigh.reverse := by
    have hcut' := (cuts_of_ends up down htrans hxs hys).2
    rw [← hxMid, ← hyMid] at hcut'
    exact ⟨fun x hx => hcut'.left x (List.mem_append_right _ hx),
      fun y hy => hcut'.right y (List.mem_append_right _ hy)⟩
  have hmerge : mergeUp order xs ys =
      low ++ (xsMid ++ ysMid) ++ mergeUp order xsHigh.reverse ysHigh.reverse := by
    rw [up.merge, up.left_of_meet down hxMid, up.right_of_meet down hyMid,
      mergeUp_between (by omega) hbetween]
    simp only [List.append_assoc]
  have hmerge' : mergeUp order xs ys =
      (mergeUp (flip order) ysDown xsDown).reverse ++ high.reverse := by
    rw [← List.reverse_append, ← down.merge, mergeUp_reverse htrans hxs hys, List.reverse_reverse]
  have hrest : mergeUp order xsHigh.reverse ysHigh.reverse = high.reverse := by
    refine (List.append_inj' (hmerge.symm.trans hmerge') ?_).2
    rw [(mergeUp_perm ..).length_eq]
    simp only [List.length_append, List.length_reverse]
    omega
  rw [hmerge, hrest]

/-- What a merge from the ends gives has the items of both lists. -/
theorem mergeFromEnds_perm (h : mergeFromEnds order xs ys = some zs) : zs.Perm (xs ++ ys) := by
  have := oriented_flip order
  obtain ⟨low, xsLow, xsUp, ysLow, ysUp, hup, up, -⟩ :=
    exists_draws order ((xs.length + ys.length) / 2) xs ys
  obtain ⟨high, ysHigh, ysDown, xsHigh, xsDown, hdown, down, -⟩ :=
    exists_draws (flip order) ((xs.length + ys.length) / 2) ys.reverse xs.reverse
  obtain ⟨xsMid, ysMid, hx, hy, rfl⟩ := exists_of_mergeFromEnds up down hup hdown h
  exact perm_of_meet up down hx hy

/-- **The merge from both ends sorts stably**, and gives up only if the order is none. -/
theorem Arranges.mergeFromEnds (h : Arranges order xs us) (h' : Arranges order ys vs)
    (hle : xs.length ≤ ys.length) (hle' : ys.length ≤ xs.length + 1) :
    Yields (Arranges order (xs ++ ys)) (TransOn order (xs ++ ys)) (mergeFromEnds order us vs) := by
  have hperm : (us ++ vs).Perm (xs ++ ys) := h.perm.append h'.perm
  refine yields_arranges_iff.mpr ⟨fun zs hzs => (mergeFromEnds_perm hzs).trans hperm, ?_⟩
  intro htrans
  have hus := h.stable (htrans.mono (List.subset_append_left ..))
  have hvs := h'.stable (htrans.mono (List.subset_append_right ..))
  rw [← h.perm.length_eq, ← h'.perm.length_eq] at hle hle'
  exact ⟨_, mergeFromEnds_eq (htrans.perm hperm) hus.sorted hvs.sorted hle hle',
    hus.mergeUp hvs htrans⟩

end Meeting

/-! ### Small sorts -/

section Small

variable [Std.OrientedCmp order]

omit [Std.OrientedCmp order] in
/-- Two items are sorted as two lists that are merged. -/
theorem sortTwo_eq (a b : α) :
    [(sortTwo order a b).1, (sortTwo order a b).2] = mergeUp order [a] [b] := by
  rw [sortTwo, mergeUp_cons_cons]
  split
  · rw [mergeUp_nil_right]
  · rw [mergeUp_nil_left]

omit [Std.OrientedCmp order] in
theorem sortTwo_perm (order : α → α → Ordering) (a b : α) :
    [(sortTwo order a b).1, (sortTwo order a b).2].Perm [a, b] := by
  rw [sortTwo_eq]
  exact mergeUp_perm [a] [b]

omit [Std.OrientedCmp order] in
theorem sortFour_perm (a b c d : α) : (sortFour order a b c d).Perm [a, b, c, d] := by
  classical
  refine List.perm_iff_count.mpr fun z => ?_
  have hab := (sortTwo_perm order a b).count_eq z
  have hcd := (sortTwo_perm order c d).count_eq z
  rw [sortFour]
  generalize sortTwo order a b = first at hab ⊢
  generalize sortTwo order c d = second at hcd ⊢
  obtain ⟨a', b'⟩ := first
  obtain ⟨c', d'⟩ := second
  simp only at hab hcd ⊢
  rcases isLess order c' a' <;> rcases isLess order d' b' <;> simp only
  · have hxy := (sortTwo_perm order b' c').count_eq z
    simp only [List.count_cons, List.count_nil] at hab hcd hxy ⊢
    omega
  · have hxy := (sortTwo_perm order c' d').count_eq z
    simp only [List.count_cons, List.count_nil] at hab hcd hxy ⊢
    omega
  · have hxy := (sortTwo_perm order a' b').count_eq z
    simp only [List.count_cons, List.count_nil] at hab hcd hxy ⊢
    omega
  · have hxy := (sortTwo_perm order a' d').count_eq z
    simp only [List.count_cons, List.count_nil] at hab hcd hxy ⊢
    omega

/-- **Four items are sorted as two pairs that are merged.** -/
theorem sortFour_eq {c d : α} (h : TransOn order [a, b, c, d]) :
    sortFour order a b c d =
      mergeUp order (mergeUp order [a] [b]) (mergeUp order [c] [d]) := by
  have hab := sortTwo_perm order a b
  have hcd := sortTwo_perm order c d
  have hfirst : TransOn order ([a] ++ [b]) := h.mono (by grind)
  have hsecond : TransOn order ([c] ++ [d]) := h.mono (by grind)
  have hleft := mergeUp_sorted hfirst (List.pairwise_singleton ..) (List.pairwise_singleton ..)
  have hright := mergeUp_sorted hsecond (List.pairwise_singleton ..) (List.pairwise_singleton ..)
  rw [← sortTwo_eq] at hleft hright
  rw [← sortTwo_eq, ← sortTwo_eq, sortFour]
  have h' := h.perm (hab.append hcd)
  generalize sortTwo order a b = first at hleft h' ⊢
  generalize sortTwo order c d = second at hright h' ⊢
  obtain ⟨a', b'⟩ := first
  obtain ⟨c', d'⟩ := second
  simp only [List.cons_append, List.nil_append] at h' hleft hright ⊢
  have hle : ∀ {x y : α}, (order x y).isLE = true → isLess order y x = false := by
    intro x y hxy
    rw [isLess_eq_false_iff]
    intro hyx
    have hswap : order x y = (order y x).swap := Std.OrientedCmp.eq_swap
    rw [hswap, hyx] at hxy
    cases hxy
  have hab := List.rel_of_pairwise_cons hleft (List.mem_singleton_self b')
  have hcd := List.rel_of_pairwise_cons hright (List.mem_singleton_self d')
  have hdc : isLess order d' c' = false := hle hcd
  have hba : isLess order b' a' = false := hle hab
  cases hca : isLess order c' a' with
  | false =>
      cases hdb : isLess order d' b' with
      | false =>
          cases hcb : isLess order c' b' <;>
            simp [sortTwo, mergeUp_cons_cons, mergeUp_nil_left, hca, hdb, hcb]
      | true =>
          have hcb : isLess order c' b' = true :=
            isLess_iff.mpr (h'.lt_of_isLE_of_lt (by simp) (by simp) (by simp) hcd
              (isLess_iff.mp hdb))
          simp [sortTwo, mergeUp_cons_cons, mergeUp_nil_right, hca, hdb, hdc, hcb]
  | true =>
      cases hdb : isLess order d' b' with
      | false =>
          have hda : isLess order d' a' = false := by
            refine hle (h' a' (by simp) b' (by simp) d' (by simp) hab ?_)
            exact isLE_of_isLess_eq_false hdb
          simp [sortTwo, mergeUp_cons_cons, mergeUp_nil_left, hca, hdb, hda, hba]
      | true =>
          cases hda : isLess order d' a' <;>
            simp [sortTwo, mergeUp_cons_cons, mergeUp_nil_right, hca, hdb, hda]

theorem arranges_sortFour (a b c d : α) : Arranges order [a, b, c, d] (sortFour order a b c d) := by
  refine ⟨sortFour_perm a b c d, fun htrans => ?_⟩
  have hpair (x y : α) : StablySorts order [x] [x] ∧ StablySorts order [y] [y] :=
    ⟨.refl (List.pairwise_singleton ..), .refl (List.pairwise_singleton ..)⟩
  rw [sortFour_eq htrans]
  exact ((hpair a b).1.mergeUp (hpair a b).2 (htrans.mono (by grind))).mergeUp
    ((hpair c d).1.mergeUp (hpair c d).2 (htrans.mono (by grind))) htrans

theorem arranges_sortHalf (four : Bool) (xs : List α) :
    Arranges order xs (sortHalf order four xs) := by
  unfold sortHalf
  split
  · exact (arranges_sortFour ..).insertAll _
  · exact arranges_insertionSort xs

/-- **A small list is sorted stably**, and the sort gives up only if the order is none. -/
theorem smallSort_yields (xs : List α) :
    Yields (Arranges order xs) (TransOn order xs) (smallSort order xs) := by
  rw [smallSort]
  split
  · rename_i hlength
    exact .some (arranges_of_length_lt hlength)
  · have hleft : Arranges order (xs.take (xs.length / 2)) _ :=
      arranges_sortHalf (decide (8 ≤ xs.length)) _
    have hright : Arranges order (xs.drop (xs.length / 2)) _ :=
      arranges_sortHalf (decide (8 ≤ xs.length)) _
    have hhalves := hleft.mergeFromEnds hright (by rw [List.length_take, List.length_drop]; omega)
      (by rw [List.length_take, List.length_drop]; omega)
    rwa [List.take_append_drop] at hhalves

end Small

end LambdaQuery.Collection
