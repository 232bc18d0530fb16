/-
**The least is the first when sorted.**  `Min` and `Max` go through the values once and keep the
best so far, which only a better one replaces: so they end at the first of those that no other
beats.  A stable sort ascends, and leaves the values of each place as they stand, so that it begins
with the same one.

Main definitions:
* `Collection.scan` — the best of the items seen so far;
* `Collection.IsFirstLeast` — an item is less than all before it, and none after it is less;
* `Collection.sortedByItself` — values sorted by themselves, from either end;
* `Collection.Leads` — a value is the first of these, and the first of the best.

Main results:
* `Collection.isFirstLeast_scan` — **what the scan keeps is the first of the least items**;
* `Collection.IsFirstLeast.head?_eq` — it is the head of a stable sort;
* `Value.transOn_scalars` — the order is transitive on values of one scalar type;
* `Collection.extremes_by_sorting` — **`Min` and `Max` over all lists of values of a scalar type**.
-/

import LambdaQuery.Proofs.CallAcceptance
import LambdaQuery.Proofs.ChainedOrderings

namespace LambdaQuery

namespace Collection

variable {α : Type} {order : α → α → Ordering} {xs ys : List α} {a b c m x : α}

/-! ### Scanning and sorting -/

/-- The best of the items seen so far, which only a better one replaces. -/
def scan (order : α → α → Ordering) (best : α) (xs : List α) : α :=
  xs.foldl (fun best x => if order x best == .lt then x else best) best

/-- The item is less than all before it, and no item after it is less. -/
def IsFirstLeast (order : α → α → Ordering) (m : α) (xs : List α) : Prop :=
  ∃ before after, xs = before ++ m :: after ∧ (∀ x ∈ before, order m x = .lt) ∧
    ∀ x ∈ after, order x m ≠ .lt

theorem scan_snoc (order : α → α → Ordering) (best : α) (xs : List α) (x : α) :
    scan order best (xs ++ [x]) =
      if order x (scan order best xs) == .lt then x else scan order best xs := by
  rw [scan, List.foldl_append]
  rfl

theorem IsFirstLeast.mem (h : IsFirstLeast order m xs) : m ∈ xs := by
  obtain ⟨before, after, rfl, -⟩ := h
  exact List.mem_append_right _ (List.mem_cons_self ..)

section Oriented

variable [Std.OrientedCmp order]

namespace IsFirstLeast

/-- The first of the least items is a lower bound. -/
theorem isLE (h : IsFirstLeast order m xs) : ∀ x ∈ xs, (order m x).isLE = true := by
  obtain ⟨before, after, rfl, hbefore, hafter⟩ := h
  intro x hx
  rcases List.mem_append.mp hx with hx | hx
  · rw [hbefore x hx]
    rfl
  rcases List.mem_cons.mp hx with rfl | hx
  · have hself : order x x = .eq := Std.ReflCmp.compare_self
    rw [hself]
    rfl
  · by_contra hle
    exact hafter x hx (Std.OrientedCmp.lt_of_not_isLE hle)

/-- One more item is the first of the least, if it is less than that one. -/
theorem snoc (h : IsFirstLeast order m xs) (htrans : TransOn order (xs ++ [x])) :
    IsFirstLeast order (if order x m == .lt then x else m) (xs ++ [x]) := by
  have hmem : ∀ y ∈ xs, y ∈ xs ++ [x] := fun y hy => List.mem_append_left _ hy
  have hx : x ∈ xs ++ [x] := List.mem_append_right _ (List.mem_singleton_self x)
  split
  · rename_i hlt
    refine ⟨xs, [], rfl, fun y hy => ?_, by simp⟩
    exact htrans.lt_of_lt_of_isLE hx (hmem m h.mem) (hmem y hy) (beq_iff_eq.mp hlt) (h.isLE y hy)
  · rename_i hge
    obtain ⟨before, after, rfl, hbefore, hafter⟩ := h
    refine ⟨before, after ++ [x], by simp, hbefore, fun y hy => ?_⟩
    rcases List.mem_append.mp hy with hy | hy
    · exact hafter y hy
    · rw [List.mem_singleton.mp hy]
      simpa using hge

/-- **A stable sort begins with the first of the least items.** -/
theorem head?_eq (h : IsFirstLeast order m xs) (hsorts : StablySorts order xs ys) :
    ys.head? = some m := by
  have hm := hsorts.perm.mem_iff.mpr h.mem
  have hself : order m m = .eq := Std.ReflCmp.compare_self
  cases ys with
  | nil => cases hm
  | cons y ys =>
      -- the head and the least item are each other's bounds, so the head ties with it
      have hmy : (order m y).isLE = true :=
        h.isLE y (hsorts.perm.mem_iff.mp (List.mem_cons_self ..))
      have hym : (order y m).isLE = true := by
        rcases List.mem_cons.mp hm with rfl | hm
        · exact isLE_self m
        · exact List.rel_of_pairwise_cons hsorts.sorted hm
      have htie : order m y = .eq := Std.OrientedCmp.isLE_antisymm hmy hym
      have hties := hsorts.stable m h.mem
      obtain ⟨before, after, rfl, hbefore, -⟩ := h
      have hnone : ties order m before = [] := by
        refine List.filter_eq_nil_iff.mpr fun x hx => ?_
        rw [hbefore x hx]
        decide
      rw [ties_cons_of_eq htie, ties_append, hnone, List.nil_append, ties_cons_of_eq hself] at hties
      exact congrArg some (List.cons.inj hties).1

end IsFirstLeast

/-- **What the scan keeps is the first of the least items.** -/
theorem isFirstLeast_scan (h : TransOn order (x :: xs)) :
    IsFirstLeast order (scan order x xs) (x :: xs) := by
  induction xs using List.reverseRecOn with
  | nil => exact ⟨[], [], rfl, by simp, by simp⟩
  | append_singleton xs y ih =>
      rw [← List.cons_append] at h ⊢
      rw [scan_snoc]
      exact (ih (h.mono (List.subset_append_left ..))).snoc h

end Oriented

end Collection

/-! ### Values of one scalar type -/

/-- The types of values without parts. -/
def Ty.scalars : List Ty := [.bool, .int, .long, .double, .string, .timestamp]

namespace Value

variable {t : Ty} {v : Value} {vs : List Value}

/-- A value of the type other than null. -/
def IsPresent (t : Ty) (v : Value) : Prop := v.conforms t = true ∧ v ≠ null

/-- A value of a scalar type is a number or has none inside. -/
theorem IsPresent.over (h : v.IsPresent t) (ht : t.base ∈ Ty.scalars) : v.Over (·.IsPresent t) := by
  obtain ⟨hv, hne⟩ := h
  simp only [Ty.scalars, List.mem_cons, List.not_mem_nil, or_false] at ht
  cases v with
  | null => exact absurd rfl hne
  | int | long | double => exact (over_of_isNumeric rfl).mpr ⟨hv, hne⟩
  | bool | string | timestamp => exact fun u hu => by cases hu
  | record | sequence | grouping =>
      rcases ht with ht | ht | ht | ht | ht | ht <;> simp [conforms, ht, RecordTy.toTy] at hv

/-- Values of one scalar type do not collide: if a double is one of them, then all are doubles. -/
theorem IsPresent.not_collide (ht : t.base ∈ Ty.scalars) {u x w : Value} (hu : u.IsPresent t)
    (hx : x.IsPresent t) : ¬ Collide u x w := by
  rintro ⟨m, n, hm, -, -, -, rfl⟩
  have hbase : t.base = .double := by
    have hd := hx.1
    simp only [Ty.scalars, List.mem_cons, List.not_mem_nil, or_false] at ht
    rcases ht with ht | ht | ht | ht | ht | ht <;> simp_all [conforms]
  rcases (conforms_double_iff hbase).mp hu.1 with ⟨rfl, -⟩ | ⟨y, rfl⟩ <;> cases hm

/-- **The order is transitive on values of one scalar type.** -/
theorem transOn_scalars (ht : t.base ∈ Ty.scalars) (h : ∀ v ∈ vs, v.IsPresent t) :
    Collection.TransOn compare vs := by
  intro a ha b hb c hc hab hbc
  have hconsistent : Consistent (a.compare b) (b.compare c) (a.compare c) :=
    compare_consistent (fun _ _ _ hu hx _ => IsPresent.not_collide ht hu hx) a ((h a ha).over ht) b
      c ((h b hb).over ht) ((h c hc).over ht)
  rw [Ordering.isLE_iff_ne_gt] at hab hbc ⊢
  exact hconsistent.ne_gt hab hbc

end Value

/-! ### Both directions -/

namespace Collection

/-- Values sorted by themselves, from the least up or from the greatest down. -/
def sortedByItself (descending : Bool) (vs : List Value) : Option (List Value) :=
  sortByKeys [descending] (vs.map fun v => ([v], v))

/-- The value leads others when they are sorted stably by themselves, and is the first of the
best. -/
structure Leads (descending : Bool) (m : Value) (vs : List Value) : Prop where
  sorts : ∃ sorted, sortedByItself descending vs = some sorted ∧
    StablySorts (compareKey descending) vs sorted ∧ sorted.head? = some m
  first : IsFirstLeast (compareKey descending) m vs

section Extremes

variable {t : Ty} {v m : Value} {values vs : List Value} {descending : Bool}

/-- What the scan of values of one scalar type keeps leads them. -/
theorem leads_scan (ht : t.base ∈ Ty.scalars) (h : ∀ u ∈ v :: vs, u.IsPresent t) :
    Leads descending (scan (compareKey descending) v vs) (v :: vs) := by
  have := oriented_compareKey descending
  have htrans := transOn_compareKey (Value.transOn_scalars ht h) descending
  have hfirst := isFirstLeast_scan htrans
  have hkey : ∀ a b : Value, compareKeys [descending] [a] [b] = compareKey descending a b := by
    intro a b
    rw [compareKeys_cons]
    exact Ordering.then_eq ..
  obtain ⟨sorted, hsorted, hsorts⟩ := exists_sortByKeys (fun v => [v]) hkey htrans
  exact ⟨⟨sorted, hsorted, hsorts, hfirst.head?_eq hsorts⟩, hfirst⟩

/-- Values of a type without null are all present. -/
theorem present_of_not_acceptsNull (h : ∀ u ∈ values, u.conforms t = true)
    (ht : t.acceptsNull = false) : present values = values := by
  refine List.filter_eq_self.mpr fun u hu => ?_
  cases u with
  | null => exact absurd (Value.conforms_null.symm.trans (h _ hu)) (by simp [ht])
  | _ => rfl

/-- The values an extreme is chosen from are those that are present. -/
theorem chosen_eq_present (h : ∀ u ∈ values, u.conforms t = true) :
    (if t.acceptsNull = true then present values else values) = present values := by
  split
  · rfl
  · rename_i hnull
    exact (present_of_not_acceptsNull h (by simpa using hnull)).symm

theorem extreme_of_none (o : Ordering) (h : ∀ u ∈ values, u.conforms t = true)
    (hnone : present values = []) :
    extreme o values t = if t.acceptsNull then .ok .null else .error .empty := by
  rw [extreme, chosen_eq_present h, hnone]

/-- The order that a better value has to the best so far. -/
def wanted (descending : Bool) : Ordering := if descending then .gt else .lt

/-- The fold of an extreme is the scan in its direction. -/
theorem extreme_of_present (h : ∀ u ∈ values, u.conforms t = true)
    (hpresent : present values = v :: vs) :
    extreme (wanted descending) values t = .ok (scan (compareKey descending) v vs) := by
  have hbetter : ∀ u best : Value, (u.compare best == wanted descending) =
      (compareKey descending u best == .lt) := by
    intro u best
    rw [compareKey, wanted]
    cases descending <;> cases u.compare best <;> rfl
  rw [extreme, chosen_eq_present h, hpresent]
  simp only [hbetter]
  rfl

/-- If there are any values, the wanted one of them leads them. -/
theorem exists_leads (ht : t.base ∈ Ty.scalars) (h : ∀ u ∈ values, u.conforms t = true)
    (hpresent : present values ≠ []) (descending : Bool) :
    ∃ m, extreme (wanted descending) values t = .ok m ∧ Leads descending m (present values) := by
  obtain ⟨v, vs, hvs⟩ := List.exists_cons_of_ne_nil hpresent
  refine ⟨_, extreme_of_present h hvs, hvs ▸ leads_scan ht fun u hu => ?_⟩
  rw [← hvs] at hu
  exact ⟨h u (List.mem_of_mem_filter hu), ne_null_of_mem_present hu⟩

end Extremes

end Collection

/-- `Min` and `Max` without a selector are those of the values of a source. -/
theorem Source.extremes_of_values {t : Ty} {values : List Value} {s : Source} {b : Bindings}
    (h : ofValues t values = .ok s) :
    s.min "" b = ofCollection (Collection.min values t) ∧
      s.max "" b = ofCollection (Collection.max values t) := by
  have hs := ofValues_declared h
  obtain ⟨rfl, -⟩ := ofValues_eq_ok h
  have hcall : ∀ operator : Operator, operator = .min ∨ operator = .max →
      expressionCall ⟨t, .root t values⟩ operator (some "") b =
        .ok ⟨operator, .none, [t], [.query (.root t values)], t⟩ := by
    intro operator hop
    have hblank : operator.takesBlank = true := by rcases hop with rfl | rfl <;> rfl
    exact (expressionCall_of_blank hblank (by decide)).trans ((build_extreme_iff hs hop).mpr rfl)
  constructor
  · rw [Source.min, compute, hcall .min (.inl rfl)]
    show Query.run _ = _
    exact Query.run_of_items rfl (Query.run_root t values)
  · rw [Source.max, compute, hcall .max (.inr rfl)]
    show Query.run _ = _
    exact Query.run_of_items rfl (Query.run_root t values)

/-- **`Min` and `Max` agree with sorting.**  Take values of one scalar type, nullable or not.  If
none but null is there, both extremes are null where the type has null, and refused where it has
not.  Otherwise the least of the others leads them when they are sorted stably from the least up,
and the greatest when they are sorted from the greatest down.  The operators of a source do the
same. -/
theorem Collection.extremes_by_sorting {t : Ty} {values : List Value} (ht : t.base ∈ Ty.scalars)
    (h : ∀ v ∈ values, v.conforms t = true) :
    (present values = [] →
      min values t = (if t.acceptsNull then .ok .null else .error .empty) ∧
        max values t = (if t.acceptsNull then .ok .null else .error .empty)) ∧
    (present values ≠ [] → ∃ least greatest,
      min values t = .ok least ∧ Leads false least (present values) ∧
        max values t = .ok greatest ∧ Leads true greatest (present values)) ∧
    ∀ (s : Source) (b : Bindings), Source.ofValues t values = .ok s →
      s.min "" b = ofCollection (min values t) ∧ s.max "" b = ofCollection (max values t) := by
  refine ⟨fun hnone => ?_, fun hsome => ?_, fun s b hs => Source.extremes_of_values hs⟩
  · exact ⟨extreme_of_none .lt h hnone, extreme_of_none .gt h hnone⟩
  · obtain ⟨least, hmin, hleast⟩ := exists_leads ht h hsome false
    obtain ⟨greatest, hmax, hgreatest⟩ := exists_leads ht h hsome true
    exact ⟨least, greatest, hmin, hleast, hmax, hgreatest⟩

/-- Numbers that may be null, where some are there and where none is. -/
theorem Collection.extremes_by_sorting_nullable :
    Leads false (.int 1) [.int 3, .int 1, .int 2] ∧ Leads true (.int 3) [.int 3, .int 1, .int 2] ∧
      min [.null] (.nullable .int) = .ok .null ∧
      ∃ s, Source.ofValues (.nullable .int) [.null] = .ok s ∧ s.min "" .empty = .ok .null := by
  have hthere : ∀ v ∈ [Value.int 3, .null, .int 1, .int 2], v.conforms (.nullable .int) = true := by
    decide
  have hnull : ∀ v ∈ [Value.null], v.conforms (.nullable .int) = true := by decide
  obtain ⟨-, hsome, -⟩ := extremes_by_sorting (by decide) hthere
  obtain ⟨hnone, -, hsource⟩ := extremes_by_sorting (by decide) hnull
  obtain ⟨least, greatest, hmin, hleast, hmax, hgreatest⟩ := hsome nofun
  obtain rfl : Value.int 1 = least := Except.ok.inj hmin
  obtain rfl : Value.int 3 = greatest := Except.ok.inj hmax
  have hmin := (hnone rfl).1
  refine ⟨hleast, hgreatest, hmin, _, rfl, ?_⟩
  rw [(hsource _ .empty rfl).1, hmin]
  rfl

end LambdaQuery
