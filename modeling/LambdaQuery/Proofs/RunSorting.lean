/-
**Sorting many items.**  A stretch that is not small is split at a pivot, the items less than it
before the others; both parts keep their items as they stood, so that the parts, sorted, are the
whole, sorted.  A long list is cut into runs, each of which covers a stretch of it.  A run holds the
stretch in its order, or as it stands, to be sorted later; joining two neighbours gives a run that
covers both stretches, whatever the order in which the joins are made.

So the sort gives the stable sort of every list that its order is transitive on.  It may give up
on others, but it never loses an item.

Main definitions:
* `Collection.Covers` — a run holds the items of a stretch, in its order or as they stand;
* `Collection.CoverAll`, `Collection.StackCovers` — the runs of a list, from the front and from the
  back.

Main results:
* `Collection.quickSort_succ` — one split at a pivot that is an item of the stretch;
* `Collection.StablySorts.append_filter` — two parts are sorted apart;
* `Collection.nextRun_yields`, `Collection.splitRuns_yields` — the runs of a list cover it;
* `Collection.mergeRuns_yields` — **joins in any order cover what the runs did**;
* `Collection.sortBy_yields` — **the sort is a stable sort, and gives up only where its order is
  not transitive on the items**.
-/

import LambdaQuery.Proofs.SmallSorting

namespace LambdaQuery.Collection

variable {α : Type} {order : α → α → Ordering} {xs ys zs us vs : List α} {a b x y : α}

/-! ### Pivots -/

theorem medianOfThree_lt {i j k n : Nat} (hi : i < n) (hj : j < n) (hk : k < n) :
    medianOfThree order xs i j k < n := by
  rw [medianOfThree]
  split
  · split
    · exact hk
    · exact hj
  · exact hi

theorem medianOfMedians_lt {n i j k : Nat} (hn : 0 < n) (hi : i + n ≤ xs.length)
    (hj : j + n ≤ xs.length) (hk : k + n ≤ xs.length) :
    medianOfMedians order xs n i j k < xs.length := by
  induction n using Nat.strongRecOn generalizing i j k with
  | ind n ih =>
      rw [medianOfMedians]
      split
      · have hinner : ∀ place, place + n ≤ xs.length →
            medianOfMedians order xs (n / 8) place (place + n / 8 * 4) (place + n / 8 * 7) <
              xs.length := by
          intro place hplace
          exact ih (n / 8) (by omega) (by omega) (by omega) (by omega) (by omega)
        exact medianOfThree_lt (hinner i hi) (hinner j hj) (hinner k hk)
      · exact medianOfThree_lt (by omega) (by omega) (by omega)

/-- The pivot is an item of the list. -/
theorem pivotPlace_lt (h : 8 ≤ xs.length) : pivotPlace order xs < xs.length :=
  medianOfMedians_lt (by omega) (by omega) (by omega) (by omega)

/-- A split sends each item where the test says, if that is where it sends the pivot. -/
theorem splitAtPivot_eq (goesLeft : α → Bool) {place : Nat} {pivot : α}
    (h : xs[place]? = some pivot) :
    splitAtPivot goesLeft xs place (goesLeft pivot) =
      (xs.filter goesLeft, xs.filter (!goesLeft ·)) := by
  obtain ⟨hplace, hpivot⟩ := List.getElem?_eq_some_iff.mp h
  have hdrop : xs.drop place = pivot :: xs.drop (place + 1) := by
    rw [List.drop_eq_getElem_cons hplace, hpivot]
  have hxs : ∀ p : α → Bool, xs.filter p =
      (xs.take place).filter p ++ (if p pivot then [pivot] else []) ++
        (xs.drop (place + 1)).filter p := by
    intro p
    conv_lhs => rw [← List.take_append_drop place xs, hdrop]
    rw [List.filter_append, List.filter_cons]
    split <;> simp
  rw [splitAtPivot, hxs goesLeft, hxs (!goesLeft ·), hdrop]
  cases goesLeft pivot <;> rfl

/-! ### Splitting -/

section Oriented

variable [Std.OrientedCmp order]

omit [Std.OrientedCmp order] in
/-- The ties of an item are all in a part of the list, or none, if the part tells none of them from
the item itself. -/
theorem ties_filter {p : α → Bool} (h : ∀ x ∈ xs, order a x = .eq → p x = p a) :
    ties order a (xs.filter p) = if p a then ties order a xs else [] := by
  rw [ties, List.filter_filter]
  split
  · rename_i hpa
    refine List.filter_congr fun x hx => ?_
    by_cases hax : order a x = .eq
    · rw [h x hx hax, hpa, Bool.and_true]
    · simp [hax]
  · rename_i hpa
    refine List.filter_eq_nil_iff.mpr fun x hx => ?_
    rw [Bool.and_eq_true, beq_iff_eq]
    rintro ⟨hax, hpx⟩
    exact hpa (h x hx hax ▸ hpx)

/-- Two parts of a list, where each item of the first is less than each of the second, are sorted
apart. -/
theorem StablySorts.append_filter {p : α → Bool} (h : StablySorts order (xs.filter p) us)
    (h' : StablySorts order (xs.filter (!p ·)) vs) (htrans : TransOn order xs)
    (hlt : ∀ x ∈ xs, p x = true → ∀ y ∈ xs, p y = false → order x y = .lt) :
    StablySorts order xs (us ++ vs) := by
  constructor
  case perm => exact (h.perm.append h'.perm).trans (List.filter_append_perm p xs)
  case sorted =>
    refine List.pairwise_append.mpr ⟨h.sorted, h'.sorted, fun x hx y hy => ?_⟩
    obtain ⟨hx, hpx⟩ := List.mem_filter.mp (h.perm.mem_iff.mp hx)
    obtain ⟨hy, hpy⟩ := List.mem_filter.mp (h'.perm.mem_iff.mp hy)
    exact Ordering.isLE_of_eq_lt (hlt x hx hpx y hy (by simpa using hpy))
  case stable =>
    intro a ha
    have hon : ∀ zs ⊆ xs, TransOn order (a :: zs) :=
      fun zs hzs => htrans.mono (List.cons_subset.mpr ⟨ha, hzs⟩)
    rw [ties_append, h.ties_eq (hon _ (List.filter_subset_self _)),
      h'.ties_eq (hon _ (List.filter_subset_self _))]
    -- the ties of an item are all in the part that it is in itself
    have hpart : ∀ x ∈ xs, order a x = .eq → p x = p a := by
      intro x hx hax
      cases hpa : p a <;> cases hpx : p x
      · rfl
      · have hxa := hlt x hx hpx a ha hpa
        rw [(Std.OrientedCmp.eq_swap : order x a = (order a x).swap), hax] at hxa
        cases hxa
      · rw [hlt a ha hpa x hx hpx] at hax
        cases hax
      · rfl
    rw [ties_filter hpart, ties_filter (p := (!p ·)) fun x hx hax => by rw [hpart x hx hax]]
    cases p a <;> simp

variable (order) in
/-- One split of a stretch that is not small. -/
theorem quickSort_succ (fallback : List α → Option (List α)) (limit : Nat) (bound : Option α)
    (h : smallLength < xs.length) :
    ∃ pivot ∈ xs, quickSort order fallback (limit + 1) bound xs =
      if bound.any (!isLess order · pivot) || (xs.filter (isLess order · pivot)).isEmpty then
        (quickSort order fallback limit none (xs.filter fun x => !(!isLess order pivot x))).map
          (xs.filter (!isLess order pivot ·) ++ ·)
      else do
        let right ← quickSort order fallback limit (some pivot)
          (xs.filter (!isLess order · pivot))
        let left ← quickSort order fallback limit bound (xs.filter (isLess order · pivot))
        return left ++ right := by
  have hplace : pivotPlace order xs < xs.length := pivotPlace_lt (by rw [smallLength] at h; omega)
  have hpivot := List.getElem?_eq_getElem hplace
  refine ⟨xs[pivotPlace order xs], List.getElem_mem hplace, ?_⟩
  generalize xs[pivotPlace order xs] = pivot at hpivot
  have hself : isLess order pivot pivot = false := by
    rw [isLess, (Std.ReflCmp.compare_self : order pivot pivot = .eq)]
    rfl
  have hless := splitAtPivot_eq (isLess order · pivot) hpivot
  have hequal := splitAtPivot_eq (!isLess order pivot ·) hpivot
  simp only [hself, Bool.not_false] at hless hequal
  rw [quickSort, if_neg (Nat.not_le_of_lt h)]
  simp only [hpivot, hless, hequal]

/-- Splitting loses no items. -/
theorem quickSort_perm {fallback : List α → Option (List α)}
    (hfallback : ∀ xs ys, fallback xs = some ys → ys.Perm xs) {limit : Nat} {bound : Option α}
    (h : quickSort order fallback limit bound xs = some ys) : ys.Perm xs := by
  induction limit generalizing bound xs ys with
  | zero =>
      rw [quickSort] at h
      split at h
      · exact ((smallSort_yields xs).holds ys h).perm
      · exact hfallback xs ys h
  | succ limit ih =>
      by_cases hsmall : xs.length ≤ smallLength
      · rw [quickSort, if_pos hsmall] at h
        exact ((smallSort_yields xs).holds ys h).perm
      · obtain ⟨pivot, -, hsplit⟩ :=
          quickSort_succ order fallback limit bound (Nat.lt_of_not_le hsmall)
        rw [hsplit] at h
        split at h
        · obtain ⟨greater, hgreater, rfl⟩ := Option.map_eq_some_iff.mp h
          exact ((ih hgreater).append_left _).trans (List.filter_append_perm ..)
        · obtain ⟨right, hright, h⟩ := Option.bind_eq_some_iff.mp h
          obtain ⟨left, hleft, h⟩ := Option.bind_eq_some_iff.mp h
          obtain rfl := Option.some.inj h
          exact ((ih hleft).append (ih hright)).trans (List.filter_append_perm ..)

section Pivot

variable {pivot : α} (hpivot : pivot ∈ xs)

include hpivot

/-- A pivot is a least item if it is no greater than the bound, or no item was found to be less. -/
theorem not_lt_pivot {bound : Option α}
    (hbound : ∀ b ∈ bound, TransOn order (b :: xs) ∧ ∀ x ∈ xs, order x b ≠ .lt)
    (hleast : (bound.any (!isLess order · pivot) ||
      (xs.filter (isLess order · pivot)).isEmpty) = true) :
    ∀ x ∈ xs, order x pivot ≠ .lt := by
  intro x hx hlt
  rcases Bool.or_eq_true_iff.mp hleast with hany | hempty
  · cases bound with
    | none => cases hany
    | some b =>
        have hpb : (order pivot b).isLE = true := isLE_of_isLess_eq_false (by simpa using hany)
        obtain ⟨hon, hle⟩ := hbound b rfl
        have hin : ∀ y ∈ xs, y ∈ b :: xs := fun y hy => List.mem_cons_of_mem b hy
        exact hle x hx (hon.lt_of_lt_of_isLE (hin x hx) (hin pivot hpivot)
          (List.mem_cons_self ..) hlt hpb)
  · have hmem : x ∈ xs.filter (isLess order · pivot) :=
      List.mem_filter.mpr ⟨hx, isLess_iff.mpr hlt⟩
    rw [List.isEmpty_iff.mp hempty] at hmem
    cases hmem

/-- The items of the place of a least pivot stand in their order already, before the others. -/
theorem StablySorts.append_equal (htrans : TransOn order xs)
    (hleast : ∀ x ∈ xs, order x pivot ≠ .lt)
    (h : StablySorts order (xs.filter fun x => !(!isLess order pivot x)) vs) :
    StablySorts order xs (xs.filter (!isLess order pivot ·) ++ vs) := by
  refine StablySorts.append_filter (.refl ?_) h htrans ?_
  · refine List.pairwise_of_forall_mem_list fun x hx y hy => ?_
    obtain ⟨hx, hpx⟩ := List.mem_filter.mp hx
    obtain ⟨hy, -⟩ := List.mem_filter.mp hy
    exact htrans x hx pivot hpivot y hy (isLE_of_isLess_eq_false (by simpa using hpx))
      (isLE_of_ne_lt (hleast y hy))
  · intro x hx hpx y hy hpy
    exact htrans.lt_of_isLE_of_lt hx hpivot hy (isLE_of_isLess_eq_false (by simpa using hpx))
      (isLess_iff.mp (by simpa using hpy))

/-- The items less than a pivot come before the others. -/
theorem StablySorts.append_others (htrans : TransOn order xs)
    (h : StablySorts order (xs.filter (isLess order · pivot)) us)
    (h' : StablySorts order (xs.filter (!isLess order · pivot)) vs) :
    StablySorts order xs (us ++ vs) := by
  refine StablySorts.append_filter h h' htrans fun x hx hpx y hy hpy => ?_
  exact htrans.lt_of_lt_of_isLE hx hpivot hy (isLess_iff.mp hpx) (isLE_of_isLess_eq_false hpy)

end Pivot

/-- **A stretch is sorted stably by splitting it**, if no item of it is less than the bound. -/
theorem quickSort_sorts {fallback : List α → Option (List α)}
    (hfallback : ∀ xs, TransOn order xs → ∃ ys, fallback xs = some ys ∧ StablySorts order xs ys)
    {limit : Nat} (bound : Option α) (htrans : TransOn order xs)
    (hbound : ∀ b ∈ bound, TransOn order (b :: xs) ∧ ∀ x ∈ xs, order x b ≠ .lt) :
    ∃ ys, quickSort order fallback limit bound xs = some ys ∧ StablySorts order xs ys := by
  have hsmall (xs : List α) (htrans : TransOn order xs) :
      ∃ ys, smallSort order xs = some ys ∧ StablySorts order xs ys :=
    (yields_arranges_iff.mp (smallSort_yields xs)).2 htrans
  induction limit generalizing bound xs with
  | zero =>
      rw [quickSort]
      split
      · exact hsmall xs htrans
      · exact hfallback xs htrans
  | succ limit ih =>
      by_cases hlength : xs.length ≤ smallLength
      · rw [quickSort, if_pos hlength]
        exact hsmall xs htrans
      obtain ⟨pivot, hpivot, hsplit⟩ :=
        quickSort_succ order fallback limit bound (Nat.lt_of_not_le hlength)
      rw [hsplit]
      have hpart (p : α → Bool) : xs.filter p ⊆ xs := List.filter_subset_self xs
      split
      · rename_i hleast
        obtain ⟨greater, hgreater, hsorts⟩ := ih none
          (htrans.mono (hpart fun x => !(!isLess order pivot x))) nofun
        refine ⟨_, by rw [hgreater]; rfl, ?_⟩
        exact StablySorts.append_equal hpivot htrans (not_lt_pivot hpivot hbound hleast) hsorts
      · -- the pivot bounds the others, the former bound those that are less
        have hothers := hpart (!isLess order · pivot)
        have hlesser := hpart (isLess order · pivot)
        obtain ⟨right, hright, hsortsRight⟩ := ih (some pivot) (htrans.mono hothers) (by
          rintro _ ⟨⟩
          refine ⟨htrans.mono (List.cons_subset.mpr ⟨hpivot, hothers⟩), fun x hx => ?_⟩
          exact isLess_eq_false_iff.mp (by simpa using (List.mem_filter.mp hx).2))
        obtain ⟨left, hleft, hsortsLeft⟩ := ih bound (htrans.mono hlesser) fun b hb =>
          ⟨(hbound b hb).1.mono (List.cons_subset_cons b hlesser),
            fun x hx => (hbound b hb).2 x (hlesser hx)⟩
        refine ⟨left ++ right, by rw [hright, hleft]; rfl, ?_⟩
        exact StablySorts.append_others hpivot htrans hsortsLeft hsortsRight

theorem quickSort_yields {fallback : List α → Option (List α)}
    (h : ∀ xs, Yields (Arranges order xs) (TransOn order xs) (fallback xs)) (limit : Nat)
    (xs : List α) :
    Yields (Arranges order xs) (TransOn order xs) (quickSort order fallback limit none xs) := by
  simp only [yields_arranges_iff] at h
  exact yields_arranges_iff.mpr ⟨fun ys hys => quickSort_perm (fun xs => (h xs).1) hys,
    fun htrans => quickSort_sorts (fun xs => (h xs).2) none htrans nofun⟩

end Oriented

/-! ### Runs -/

/-- The run holds the items of a stretch: in their order if it is sorted, and else as they stand. -/
structure Covers (order : α → α → Ordering) (xs : List α) (run : Run α) : Prop where
  arranges : run.sorted = true → Arranges order xs run.items
  asTheyStand : run.sorted = false → run.items = xs

theorem Arranges.covers (h : Arranges order xs ys) : Covers order xs ⟨ys, true⟩ :=
  ⟨fun _ => h, nofun⟩

theorem covers_self (xs : List α) : Covers order xs ⟨xs, false⟩ := by
  constructor
  case arranges =>
    intro h
    cases h
  case asTheyStand => exact fun _ => rfl

theorem Covers.sort {quick : List α → Option (List α)}
    (hquick : ∀ xs, Yields (Arranges order xs) (TransOn order xs) (quick xs)) {run : Run α}
    (h : Covers order xs run) :
    Yields (Arranges order xs) (TransOn order xs) (run.sort quick) := by
  rw [Run.sort]
  split
  · rename_i hsorted
    exact .some (h.arranges hsorted)
  · rename_i hsorted
    rw [h.asTheyStand (by simpa using hsorted)]
    exact hquick xs

/-- What goes on as a test tells is related throughout, if the relation that the test shows is
transitive on the items. -/
theorem stretch_pairwise (goesOn : α → α → Bool) {R : α → α → Prop} (last : α) (xs : List α)
    {items : List α} (hitems : last :: xs.take (stretch goesOn last xs) = items)
    (hR : ∀ a b, goesOn a b = true → R a b)
    (htrans : ∀ a ∈ items, ∀ b ∈ items, ∀ c ∈ items, R a b → R b c → R a c) :
    items.Pairwise R := by
  induction xs generalizing last items with
  | nil =>
      rw [← hitems, List.take_nil]
      exact List.pairwise_singleton ..
  | cons x xs ih =>
      rw [stretch] at hitems
      split at hitems
      · rename_i hgoesOn
        rw [List.take_succ_cons] at hitems
        subst hitems
        have hx := hR last x hgoesOn
        have ih := ih x rfl fun a ha b hb c hc => htrans a (List.mem_cons_of_mem last ha) b
          (List.mem_cons_of_mem last hb) c (List.mem_cons_of_mem last hc)
        refine List.pairwise_cons.mpr ⟨fun y hy => ?_, ih⟩
        rcases List.mem_cons.mp hy with rfl | hy'
        · exact hx
        · exact htrans last (List.mem_cons_self ..) x (by simp) y (List.mem_cons_of_mem last hy) hx
            (List.rel_of_pairwise_cons ih hy')
      · rw [← hitems, List.take_zero]
        exact List.pairwise_singleton ..

/-- The runs cover a list, from its front on. -/
inductive CoverAll (order : α → α → Ordering) : List α → List (Run α) → Prop
  | nil : CoverAll order [] []
  | cons {xs ys : List α} {run : Run α} {runs : List (Run α)} (h : Covers order xs run)
      (hrest : CoverAll order ys runs) : CoverAll order (xs ++ ys) (run :: runs)

/-- The runs of a stack cover a list, from its back on. -/
inductive StackCovers (order : α → α → Ordering) : List α → List (Run α × Nat) → Prop
  | nil : StackCovers order [] []
  | cons {xs ys : List α} {run : Run α} {stack : List (Run α × Nat)}
      (hrest : StackCovers order xs stack) (h : Covers order ys run) (depth : Nat) :
      StackCovers order (xs ++ ys) ((run, depth) :: stack)

section Stack

variable {join : Run α → Run α → Option (Run α)} {stack : List (Run α × Nat)} {run : Run α}
  (hjoin : ∀ xs ys a b, Covers order xs a → Covers order ys b →
    Yields (Covers order (xs ++ ys)) (TransOn order (xs ++ ys)) (join a b))

include hjoin

/-- A run that is joined with some of the runs before it covers their stretches with its own. -/
theorem joinDeeper_yields (depth : Nat) (hstack : StackCovers order xs stack)
    (hrun : Covers order ys run) :
    Yields (fun r => ∃ xs' ys', xs' ++ ys' = xs ++ ys ∧ StackCovers order xs' r.1 ∧
        Covers order ys' r.2)
      (TransOn order (xs ++ ys)) (joinDeeper join depth stack run) := by
  induction hstack generalizing ys run with
  | nil =>
      rw [joinDeeper]
      exact .some ⟨[], ys, rfl, .nil, hrun⟩
  | @cons xs zs before stack hrest h d ih =>
      rw [joinDeeper]
      split
      · rw [List.append_assoc]
        have hbefore := (hjoin zs ys before run h hrun).mono
          fun htrans : TransOn order (xs ++ (zs ++ ys)) => htrans.mono (List.subset_append_right ..)
        exact hbefore.bind fun joined hjoined => ih hjoined
      · exact .some ⟨_, ys, rfl, .cons hrest h d, hrun⟩

omit hjoin in
/-- At no depth are any runs left before it. -/
theorem joinDeeper_zero {r : List (Run α × Nat) × Run α}
    (h : joinDeeper join 0 stack run = some r) : r.1 = [] := by
  induction stack generalizing run with
  | nil =>
      obtain rfl := Option.some.inj h
      rfl
  | cons entry stack ih =>
      rw [joinDeeper, if_pos (Nat.zero_le _)] at h
      obtain ⟨joined, -, h⟩ := Option.bind_eq_some_iff.mp h
      exact ih h

/-- **Joins in any order cover what the runs did.** -/
theorem mergeRuns_yields {length place : Nat} {runs : List (Run α)}
    (hstack : StackCovers order xs stack) (hrun : Covers order ys run)
    (hruns : CoverAll order zs runs) :
    Yields (Covers order (xs ++ ys ++ zs)) (TransOn order (xs ++ ys ++ zs))
      (mergeRuns join length stack run place runs) := by
  induction hruns generalizing xs ys stack run place with
  | nil =>
      rw [mergeRuns, List.append_nil]
      constructor
      · intro all hall
        obtain ⟨⟨stack', run'⟩, hr, rfl⟩ := Option.map_eq_some_iff.mp hall
        obtain ⟨xs', ys', hxys, hstack', hrun'⟩ :=
          (joinDeeper_yields hjoin 0 hstack hrun).holds _ hr
        -- nothing is left on the stack, so that the joined run covers the whole
        obtain rfl : stack' = [] := joinDeeper_zero hr
        cases hstack'
        rw [← hxys]
        exact hrun'
      · intro htrans
        obtain ⟨r, hr⟩ := (joinDeeper_yields hjoin 0 hstack hrun).isThere htrans
        exact ⟨r.2, Option.map_eq_some_iff.mpr ⟨r, hr, rfl⟩⟩
  | @cons us vs next runs h hrest ih =>
      rw [mergeRuns]
      have hdeeper := (joinDeeper_yields hjoin (mergeDepth length (place - run.items.length) place
        (place + next.items.length)) hstack hrun).mono
          fun htrans : TransOn order (xs ++ ys ++ (us ++ vs)) =>
            htrans.mono (List.subset_append_left ..)
      refine hdeeper.bind fun ⟨stack', run'⟩ ⟨xs', ys', hxys, hstack', hrun'⟩ => ?_
      rw [← hxys, ← List.append_assoc]
      exact ih (hstack'.cons hrun' _) h

end Stack

/-! ### The runs of a list -/

section Oriented

variable [Std.OrientedCmp order]

/-- What descends without equal items is sorted by turning it round. -/
theorem stablySorts_reverse (htrans : TransOn order xs)
    (h : xs.Pairwise fun a b => order b a = .lt) : StablySorts order xs xs.reverse := by
  constructor
  case perm => exact xs.reverse_perm
  case sorted =>
    exact List.pairwise_reverse.mpr (h.imp Ordering.isLE_of_eq_lt)
  case stable =>
    intro a ha
    rw [ties_reverse]
    have hlt : (ties order a xs).Pairwise fun a b => order b a = .lt := h.filter _
    match hties : ties order a xs with
    | [] => rfl
    | [x] => rfl
    | x :: y :: _ =>
        -- two items in the place of `a` would have one place, but one is less
        obtain ⟨hx, hax⟩ := mem_ties.mp (hties ▸ List.mem_cons_self .. : x ∈ ties order a xs)
        obtain ⟨hy, hay⟩ := mem_ties.mp
          (hties ▸ List.mem_cons_of_mem x (List.mem_cons_self ..) : y ∈ ties order a xs)
        rw [hties] at hlt
        have hyx : order y x = .lt := List.rel_of_pairwise_cons hlt (List.mem_cons_self ..)
        rw [← htrans.congr_left ha hy hx hay, hax] at hyx
        cases hyx

/-- **The run at the head of a list is sorted**, turned round if it descends. -/
theorem headRun_arranges {n : Nat} {descends : Bool} (h : headRun order xs = (n, descends)) :
    Arranges order (xs.take n) (if descends then (xs.take n).reverse else xs.take n) := by
  constructor
  case perm =>
    split
    · exact List.reverse_perm _
    · exact .refl _
  case stable =>
    intro htrans
    match xs with
    | [] | [_] =>
        obtain ⟨rfl, rfl⟩ := Prod.mk.inj h
        exact .refl (by simp)
    | x :: y :: rest =>
        rw [headRun] at h
        split at h
        · rename_i hyx
          obtain ⟨rfl, rfl⟩ := Prod.mk.inj h
          rw [if_pos rfl]
          refine stablySorts_reverse htrans (stretch_pairwise
            (fun a b => isLess order b a) x (y :: rest) ?_ (fun _ _ => isLess_iff.mp) ?_)
          · rw [stretch, if_pos hyx]
            rfl
          · intro a ha b hb c hc hba hcb
            exact htrans.lt_of_lt_of_isLE hc hb ha hcb (Ordering.isLE_of_eq_lt hba)
        · rename_i hyx
          obtain ⟨rfl, rfl⟩ := Prod.mk.inj h
          refine .refl (stretch_pairwise
            (fun a b => !isLess order b a) x (y :: rest) ?_ (fun a b hab => ?_) htrans)
          · rw [stretch, if_pos (by simpa using hyx)]
            rfl
          · exact isLE_of_isLess_eq_false (by simpa using hab)

/-- The next run covers the items that are taken for it. -/
theorem nextRun_yields (good : Nat) (eager : Bool) (xs : List α) :
    Yields (Covers order (xs.take (nextRun order good eager xs).1)) (TransOn order xs)
      (nextRun order good eager xs).2 := by
  rw [nextRun]
  rcases hrun : headRun order xs with ⟨n, descends⟩
  simp only
  split
  · exact .some (headRun_arranges hrun).covers
  · split
    · refine ((smallSort_yields _).mono ?_).map fun ys hys => hys.covers
      exact fun htrans => htrans.mono (List.take_subset ..)
    · exact .some (covers_self _)

/-- **The runs of a list cover it.** -/
theorem splitRuns_yields {good : Nat} (hgood : 0 < good) (eager : Bool) (xs : List α) :
    Yields (CoverAll order xs) (TransOn order xs) (splitRuns order hgood eager xs) := by
  induction xs using splitRuns.induct order hgood eager with
  | case1 =>
      rw [splitRuns]
      exact .some .nil
  | case2 x xs ih =>
      rw [splitRuns]
      refine (nextRun_yields good eager (x :: xs)).bind fun run hrun => ?_
      have hrest := ih.mono fun htrans : TransOn order (x :: xs) =>
        htrans.mono (List.drop_subset (nextRun order good eager (x :: xs)).1 (x :: xs))
      refine hrest.bind fun runs hruns => .some ?_
      rw [← List.take_append_drop (nextRun order good eager (x :: xs)).1 (x :: xs)]
      exact .cons hrun hruns

/-- Joined runs cover the stretches of both. -/
theorem Covers.join {quick : List α → Option (List α)}
    (hquick : ∀ xs, Yields (Arranges order xs) (TransOn order xs) (quick xs)) {a b : Run α}
    {room : Nat} (ha : Covers order xs a) (hb : Covers order ys b) :
    Yields (Covers order (xs ++ ys)) (TransOn order (xs ++ ys))
      (Run.join order quick room a b) := by
  rw [Run.join]
  split
  · have hxs := (ha.sort hquick).mono fun h : TransOn order (xs ++ ys) =>
      h.mono (List.subset_append_left ..)
    have hys := (hb.sort hquick).mono fun h : TransOn order (xs ++ ys) =>
      h.mono (List.subset_append_right ..)
    exact hxs.bind fun us hus => hys.bind fun vs hvs => .some (hus.mergeSorted hvs).covers
  · rename_i hwait
    simp only [not_or, Bool.not_eq_true] at hwait
    rw [ha.asTheyStand hwait.2.1, hb.asTheyStand hwait.2.2]
    exact .some (covers_self _)

/-- **A list is sorted by its runs.** -/
theorem sortRuns_yields {quick : List α → Option (List α)}
    (hquick : ∀ xs, Yields (Arranges order xs) (TransOn order xs) (quick xs)) (eager : Bool)
    (xs : List α) :
    Yields (Arranges order xs) (TransOn order xs) (sortRuns order quick eager xs) := by
  rw [sortRuns]
  split
  · rename_i hlength
    exact .some (arranges_of_length_lt hlength)
  · refine (splitRuns_yields _ eager xs).bind fun runs hruns => ?_
    cases hruns with
    | nil => exact .some arranges_nil
    | @cons us vs first runs h hrest =>
        have hjoins : Yields (Covers order ([] ++ us ++ vs)) (TransOn order ([] ++ us ++ vs))
            (mergeRuns (Run.join order quick (sortRoom (us ++ vs).length)) (us ++ vs).length []
              first first.items.length runs) :=
          mergeRuns_yields (fun _ _ _ _ => Covers.join hquick) .nil h hrest
        exact hjoins.bind fun all hall => hall.sort hquick

/-! ### The sort -/

/-- **The sort keeps the items, and sorts stably where its order is transitive on them.** -/
theorem sortBy_yields (xs : List α) :
    Yields (Arranges order xs) (TransOn order xs) (sortBy order xs) := by
  rw [sortBy]
  split
  · exact .some (arranges_insertionSort xs)
  · refine sortRuns_yields (fun ys => ?_) _ xs
    exact quickSort_yields
      (fun zs => sortRuns_yields (fun us => .some (arranges_insertionSort us)) true zs) _ ys

theorem sortBy_perm (h : sortBy order xs = some ys) : ys.Perm xs :=
  ((sortBy_yields xs).holds ys h).perm

/-- An order that is transitive on the items sorts them. -/
theorem TransOn.sortBy (h : TransOn order xs) :
    ∃ ys, sortBy order xs = some ys ∧ StablySorts order xs ys :=
  (yields_arranges_iff.mp (sortBy_yields xs)).2 h

end Oriented

end LambdaQuery.Collection
