/-
**Two ways to a sum of integers.**  `Sum` adds in a width and stops with an overflow as soon as a
sum on its way leaves the width, even if a later one came back; a fold of `a + b` adds with wrapping
and never stops.  So `Sum` is the exact sum where it gives one, and the fold is the exact sum
wrapped to the width.

Main definitions:
* `IntWidth` — the two widths, each with its type and its values;
* `PrefixesFit` — all sums on the way through a list stay in a width.

Main results:
* `Collection.sumInts_eq` — the checked sum is exact, or fails, by the sums on the way;
* `Source.sum_of_values` — `Sum` over a source of numbers is that of its values;
* `Source.aggregateSeed_addition` — the fold of `a + b` is the exact sum, wrapped;
* `Source.integer_sums` — **both for all lists of integers**, and that nulls do not count.
-/

import LambdaQuery.Proofs.AcceptedCalls
import LambdaQuery.Proofs.Equality

namespace LambdaQuery

/-! ### Integers of two widths -/

/-- The widths of integers. -/
inductive IntWidth
  | int
  | long

namespace IntWidth

def bits : IntWidth → Nat
  | int => 32
  | long => 64

/-- The type of the integers of a width. -/
def type : IntWidth → Ty
  | int => .int
  | long => .long

/-- The value of an integer, wrapped to the width. -/
def value : IntWidth → Int → Value
  | int, n => .int (Int32.ofInt n)
  | long, n => .long (Int64.ofInt n)

/-- The integer of a value, as the sums of a width read it. -/
def read : IntWidth → Value → Option Int
  | int => Collection.int32?
  | long => Collection.int64?

variable (w : IntWidth)

theorem fits_iff {n : Int} :
    fits w.bits n = true ↔ -(2 ^ (w.bits - 1) : Int) ≤ n ∧ n < 2 ^ (w.bits - 1) := by
  simp [fits, widthBound]

/-- What fits a width is not changed by wrapping. -/
theorem bmod_of_fits {n : Int} (h : fits w.bits n = true) : n.bmod (2 ^ w.bits) = n := by
  rw [fits_iff] at h
  cases w <;> simp only [bits] at h ⊢ <;> exact Int.bmod_eq_of_le (by omega) (by omega)

theorem value_bmod (n : Int) : w.value (n.bmod (2 ^ w.bits)) = w.value n := by
  cases w with
  | int =>
      refine congrArg Value.int (Int32.toInt_inj.mp ?_)
      rw [Int32.toInt_ofInt, Int32.toInt_ofInt]
      exact Int.bmod_bmod
  | long =>
      refine congrArg Value.long (Int64.toInt_inj.mp ?_)
      rw [Int64.toInt_ofInt, Int64.toInt_ofInt]
      exact Int.bmod_bmod

theorem read_value {n : Int} (h : fits w.bits n = true) : w.read (w.value n) = some n := by
  have hn := w.bmod_of_fits h
  cases w with
  | int => exact congrArg some (Int32.toInt_ofInt.trans hn)
  | long => exact congrArg some (Int64.toInt_ofInt.trans hn)

theorem isNull_value (n : Int) : (w.value n).isNull = false := by
  cases w <;> rfl

theorem conforms_value (n : Int) : (w.value n).conforms w.type = true := by
  cases w <;> rfl

/-- The values of the type are those of the integers that fit. -/
theorem exists_value {v : Value} (h : v.conforms w.type = true) :
    ∃ n, fits w.bits n = true ∧ v = w.value n := by
  cases w with
  | int =>
      rcases (Value.conforms_int_iff rfl).mp h with ⟨-, hnull⟩ | ⟨n, rfl⟩
      · cases hnull
      · refine ⟨n.toInt, ?_, congrArg Value.int (Int32.ofInt_toInt n).symm⟩
        exact (fits_iff int).mpr ⟨Int32.le_toInt n, Int32.toInt_lt n⟩
  | long =>
      rcases (Value.conforms_long_iff rfl).mp h with ⟨-, hnull⟩ | ⟨n, rfl⟩
      · cases hnull
      · refine ⟨n.toInt, ?_, congrArg Value.long (Int64.ofInt_toInt n).symm⟩
        exact (fits_iff long).mpr ⟨Int64.le_toInt n, Int64.toInt_lt n⟩

/-- Lists of values of the type are lists of integers that fit. -/
theorem conforms_all_iff {xs : List Value} :
    (∀ v ∈ xs, v.conforms w.type = true) ↔
      ∃ ns : List Int, (∀ n ∈ ns, fits w.bits n = true) ∧ xs = ns.map w.value := by
  constructor
  · intro h
    induction xs with
    | nil => exact ⟨[], by simp, rfl⟩
    | cons v vs ih =>
        rw [List.forall_mem_cons] at h
        obtain ⟨n, hn, rfl⟩ := w.exists_value h.1
        obtain ⟨ns, hns, rfl⟩ := ih h.2
        exact ⟨n :: ns, List.forall_mem_cons.mpr ⟨hn, hns⟩, rfl⟩
  · rintro ⟨ns, -, rfl⟩ v hv
    obtain ⟨n, -, rfl⟩ := List.mem_map.mp hv
    exact w.conforms_value n

end IntWidth

/-! ### Checked sums -/

/-- All sums on the way through a list, the last one too, fit a width. -/
def PrefixesFit (bits : Nat) (ns : List Int) : Prop :=
  ∀ front, front <+: ns → fits bits front.sum = true

namespace Collection

variable {bits : Nat} {total : Int} {ns : List Int}

/-- From a sum on, the sums on the way go over its next step. -/
theorem prefixesFit_cons_iff {n : Int} (htotal : fits bits total = true) :
    (∀ front, front <+: n :: ns → fits bits (total + front.sum) = true) ↔
      fits bits (total + n) = true ∧
        ∀ front, front <+: ns → fits bits (total + n + front.sum) = true := by
  simp only [List.prefix_cons_iff]
  constructor
  · intro h
    refine ⟨by simpa using h [n] (.inr ⟨[], rfl, List.nil_prefix⟩), fun front hfront => ?_⟩
    simpa [Int.add_assoc] using h (n :: front) (.inr ⟨front, rfl, hfront⟩)
  · rintro ⟨-, h⟩ front (rfl | ⟨front, rfl, hfront⟩)
    · simpa using htotal
    · simpa [Int.add_assoc] using h front hfront

/-- The checked sum is exact if all sums on the way fit, and overflows if one of them does not. -/
theorem sumInts_eq (w : IntWidth) (htotal : fits w.bits total = true)
    (hns : ∀ n ∈ ns, fits w.bits n = true) :
    ((∀ front, front <+: ns → fits w.bits (total + front.sum) = true) →
      sumInts w.bits w.read total (ns.map w.value) = .ok (total + ns.sum)) ∧
    ((¬ ∀ front, front <+: ns → fits w.bits (total + front.sum) = true) →
      sumInts w.bits w.read total (ns.map w.value) = .error .overflow) := by
  induction ns generalizing total with
  | nil => exact ⟨fun _ => by simp [sumInts], fun h => absurd (by simpa using htotal) h⟩
  | cons n ns ih =>
      rw [List.forall_mem_cons] at hns
      rw [prefixesFit_cons_iff htotal, List.map_cons, sumInts, w.read_value hns.1]
      by_cases hn : fits w.bits (total + n) = true
      · obtain ⟨hexact, hoverflow⟩ := ih hn hns.2
        simp only [if_pos hn, List.sum_cons, ← Int.add_assoc]
        exact ⟨fun h => hexact h.2, fun h => hoverflow fun hrest => h ⟨hn, hrest⟩⟩
      · simp only [if_neg hn]
        exact ⟨fun h => absurd h.1 hn, fun _ => trivial⟩

/-- The sum of integers is the checked one of their width. -/
theorem sum_of_integers (w : IntWidth) (hns : ∀ n ∈ ns, fits w.bits n = true) :
    (PrefixesFit w.bits ns → sum (ns.map w.value) w.type = .ok (w.value ns.sum)) ∧
      (¬ PrefixesFit w.bits ns → sum (ns.map w.value) w.type = .error .overflow) := by
  have hpresent : present (ns.map w.value) = ns.map w.value := by
    simp [present, w.isNull_value]
  have hsum : sum (ns.map w.value) w.type =
      (sumInts w.bits w.read 0 (ns.map w.value)).map w.value := by
    rw [sum, hpresent]
    cases w <;> rfl
  have hzero : fits w.bits 0 = true := by cases w <;> rfl
  obtain ⟨hexact, hoverflow⟩ := sumInts_eq w hzero hns
  simp only [Int.zero_add] at hexact hoverflow
  rw [hsum]
  exact ⟨fun h => by rw [hexact h]; rfl, fun h => by rw [hoverflow h]; rfl⟩

/-- Nulls do not count in a sum. -/
theorem sum_present (xs : List Value) (t : Ty) : sum (present xs) t = sum xs t := by
  have hidem : present (present xs) = present xs := by simp [present]
  rw [sum, sum, hidem]

/-- The type of a sum may as well be the one without null. -/
theorem sum_underlying (xs : List Value) {t : Ty} (ht : t ∈ Signature.numbers) :
    sum xs t.underlying = sum xs t := by
  simp only [Signature.numbers, List.mem_cons, List.not_mem_nil, or_false] at ht
  rcases ht with rfl | rfl | rfl | rfl | rfl | rfl <;> rfl

end Collection

/-- Values of a type that are not null are values of the type without null. -/
theorem Value.conforms_present {t : Ty} {xs : List Value} (h : ∀ v ∈ xs, v.conforms t = true) :
    ∀ v ∈ Collection.present xs, v.conforms t = true ∧ v.conforms t.underlying = true := by
  intro v hv
  have hmem : v ∈ xs := List.mem_of_mem_filter hv
  have hne : v ≠ .null := Collection.ne_null_of_mem_present hv
  exact ⟨h v hmem, conforms_of_ne_null hne t.base_underlying.symm (h v hmem)⟩

/-! ### Sums over a source -/

section Sums

variable {t : Ty} {xs : List Value} {s : Source} {b : Bindings}

/-- `Sum` without a selector, over numbers. -/
theorem Source.sum_of_values (ht : t ∈ Signature.numbers) (h : ofValues t xs = .ok s) :
    s.sum "" b = ofCollection (Collection.sum xs t) := by
  obtain ⟨rfl, -⟩ := ofValues_eq_ok h
  have hbuild : build ⟨t, .root t xs⟩ .sum .none [] [] none =
      .ok ⟨.sum, .none, [], [.query (.root t xs)], t⟩ :=
    (build_total_iff (s := ⟨t, .root t xs⟩) (n := t) (.inl rfl) fun _ _ =>
      Ty.query_assignable_iff).mpr ⟨ht, rfl⟩
  have hcall : expressionCall ⟨t, .root t xs⟩ .sum (some "") b =
      .ok ⟨.sum, .none, [], [.query (.root t xs)], t⟩ :=
    (expressionCall_of_blank rfl (by decide)).trans hbuild
  rw [Source.sum, compute, hcall]
  show Query.run _ = _
  exact Query.run_of_items rfl (Query.run_root t xs)

end Sums

/-! ### Folds of an addition -/

section Folds

variable (w : IntWidth) {ns : List Int} {s : Source} {b : Bindings}

/-- The literal that adds two integers. -/
def addition (t : Ty) : Lambda :=
  .ofBody 0 [("a", t), ("b", t)] (.binary .add (.parameter 0 t) (.parameter 1 t) t)

/-- An addition of integers of a width is one in the width. -/
theorem ofBinary_addition :
    Expr.ofBinary .add (.parameter 0 w.type) (.parameter 1 w.type) =
      .ok (.binary .add (.parameter 0 w.type) (.parameter 1 w.type) w.type) := by
  cases w <;> rfl

theorem compile_addition :
    Lambda.compile "(a, b) => a + b" [w.type, w.type] b = .ok (addition w.type) := by
  have hparse : Term.parse "(a, b) => a + b" =
      .ok (.lambda ["a", "b"] (.binary .add (.name "a") (.name "b"))) := by cbv
  have haa : b.settings.denotes "a" "a" = true := (Settings.denotes_eq _ (by decide)).trans rfl
  have hab : b.settings.denotes "a" "b" = false := (Settings.denotes_eq _ (by decide)).trans rfl
  have hbb : b.settings.denotes "b" "b" = true := (Settings.denotes_eq _ (by decide)).trans rfl
  rw [Lambda.compile, hparse]
  simp [Scope.function, Scope.explicit, Scope.extend, Scope.term, Scope.name, Scope.parameter?,
    Scope.findLast?, Scope.settings, haa, hab, hbb, ofBinary_addition, bind, Except.bind,
    Except.map, addition]

theorem compiles_addition :
    Compiles "(a, b) => a + b" [w.type, w.type] b (addition w.type) where
  nonblank := by cbv
  compiled := by
    have htrim : Text.trim "(a, b) => a + b" = "(a, b) => a + b" := by cbv
    rw [htrim]
    exact compile_addition w

/-- One step of the fold adds, with wrapping. -/
theorem addition_on (m n : Int) :
    (addition w.type).on [w.value m, w.value n] = .ok (w.value (m + n)) := by
  cases w with
  | int => exact congrArg (fun k => Except.ok (Value.int k)) (Int32.ofInt_add m n).symm
  | long => exact congrArg (fun k => Except.ok (Value.long k)) (Int64.ofInt_add m n).symm

/-- So all its steps do. -/
theorem fold_addition (total : Int) :
    Each.fold (fun acc v => (addition w.type).on [acc, v]) (w.value total) (ns.map w.value) =
      .ok (w.value (total + ns.sum)) := by
  induction ns generalizing total with
  | nil => simp [Each.fold, pure, Except.pure]
  | cons n ns ih =>
      rw [List.map_cons, Each.fold, addition_on]
      exact (ih (total + n)).trans (by rw [List.sum_cons, Int.add_assoc])

/-- The fold of an addition is the exact sum, wrapped. -/
theorem Source.aggregateSeed_addition (h : ofValues w.type (ns.map w.value) = .ok s) :
    s.aggregateSeed (w.value 0) "(a, b) => a + b" b =
      .ok (w.value (ns.sum.bmod (2 ^ w.bits))) := by
  obtain ⟨rfl, -⟩ := ofValues_eq_ok h
  have hcall : aggregateSeedCall ⟨w.type, .root w.type (ns.map w.value)⟩ (w.value 0)
      "(a, b) => a + b" b =
        .ok ⟨.aggregate, .seeded, [w.type, w.type],
          [.query (.root w.type (ns.map w.value)), .constant (w.value 0) w.type,
            .function (addition w.type)], w.type⟩ := by
    have hseed : Operator.aggregate.seedType (w.value 0) = .ok w.type := by cases w <;> rfl
    rw [aggregateSeedCall, hseed]
    refine (accumulator_bind (compiles_addition w)).trans ?_
    cases w <;> rfl
  rw [aggregateSeed, hcall]
  show Query.run _ = _
  rw [Query.run_of_items rfl (Query.run_root w.type (ns.map w.value))]
  show Each.fold (fun acc v => (addition w.type).on [acc, v]) (w.value 0) (ns.map w.value) >>= _ = _
  rw [fold_addition, Int.zero_add, w.value_bmod]
  rfl

end Folds

/-- **Sums of integers.**  The lists of values of an integer type are the lists of integers that fit
its width.  Over such a list `Sum` is the exact sum if all sums on the way fit, and overflows
otherwise; the fold of `a + b` from 0 is the exact sum wrapped to the width, and so agrees with
`Sum` wherever that succeeds.  Over numbers of any type, nullable or not, `Sum` is that of the
values that are not null, as values of the type or of the one without null. -/
theorem Source.integer_sums :
    (∀ (w : IntWidth) (xs : List Value), (∀ v ∈ xs, v.conforms w.type = true) ↔
      ∃ ns : List Int, (∀ n ∈ ns, fits w.bits n = true) ∧ xs = ns.map w.value) ∧
    (∀ (w : IntWidth) (ns : List Int) (b b' : Bindings), (∀ n ∈ ns, fits w.bits n = true) →
      ∃ s, ofValues w.type (ns.map w.value) = .ok s ∧
        (PrefixesFit w.bits ns → s.sum "" b = .ok (w.value ns.sum)) ∧
        (¬ PrefixesFit w.bits ns →
          s.sum "" b = .error (.evaluation (.collection .overflow))) ∧
        s.aggregateSeed (w.value 0) "(a, b) => a + b" b' =
          .ok (w.value (ns.sum.bmod (2 ^ w.bits))) ∧
        ∀ v, s.sum "" b = .ok v →
          s.aggregateSeed (w.value 0) "(a, b) => a + b" b' = .ok v) ∧
    ∀ (t : Ty) (xs : List Value) (s : Source) (b : Bindings), t ∈ Signature.numbers →
      ofValues t xs = .ok s →
        ∃ s₁ s₂, ofValues t (Collection.present xs) = .ok s₁ ∧
          ofValues t.underlying (Collection.present xs) = .ok s₂ ∧
          s.sum "" b = s₁.sum "" b ∧ s.sum "" b = s₂.sum "" b := by
  refine ⟨fun w _ => w.conforms_all_iff, fun w ns b b' hns => ?_, fun t xs s b ht hs => ?_⟩
  · have hs : ofValues w.type (ns.map w.value) = .ok ⟨w.type, .root w.type (ns.map w.value)⟩ :=
      ofValues_of_conforms (w.conforms_all_iff.mpr ⟨ns, hns, rfl⟩)
    have hseed := aggregateSeed_addition w (b := b') hs
    obtain ⟨hexact, hoverflow⟩ := Collection.sum_of_integers w hns
    have hsum : ∀ {r}, Collection.sum (ns.map w.value) w.type = r →
        sum ⟨w.type, .root w.type (ns.map w.value)⟩ "" b = ofCollection r := by
      rintro _ rfl
      exact sum_of_values (by cases w <;> decide) hs
    refine ⟨_, hs, fun h => hsum (hexact h), fun h => hsum (hoverflow h), hseed, fun v hv => ?_⟩
    by_cases hfit : PrefixesFit w.bits ns
    · obtain rfl := Except.ok.inj ((hsum (hexact hfit)).symm.trans hv)
      rw [hseed, w.value_bmod]
    · cases (hsum (hoverflow hfit)).symm.trans hv
  · have hpresent := Value.conforms_present (ofValues_eq_ok hs).2
    have ht' : t.underlying ∈ Signature.numbers := by
      simp only [Signature.numbers, List.mem_cons, List.not_mem_nil, or_false] at ht
      rcases ht with rfl | rfl | rfl | rfl | rfl | rfl <;> decide
    have hs₁ := ofValues_of_conforms fun v hv => (hpresent v hv).1
    have hs₂ := ofValues_of_conforms fun v hv => (hpresent v hv).2
    refine ⟨_, _, hs₁, hs₂, ?_, ?_⟩
    · rw [sum_of_values ht hs, sum_of_values ht hs₁, Collection.sum_present]
    · rw [sum_of_values ht hs, sum_of_values ht' hs₂, Collection.sum_underlying _ ht,
        Collection.sum_present]

/-- A sum that leaves the width on its way and comes back, one that stays in it, and one that goes
past a null. -/
theorem Source.integer_sums_cancelling :
    (∃ s, ofValues .int [.int 2147483647, .int 1, .int (-1)] = .ok s ∧
      s.sum "" .empty = .error (.evaluation (.collection .overflow)) ∧
      s.aggregateSeed (.int 0) "(a, b) => a + b" .empty = .ok (.int 2147483647)) ∧
    (∃ s, ofValues .long [.long 5, .long (-7)] = .ok s ∧ s.sum "" .empty = .ok (.long (-2)) ∧
      s.aggregateSeed (.long 0) "(a, b) => a + b" .empty = .ok (.long (-2))) ∧
    ∃ s s', ofValues (.nullable .int) [.null, .int 4] = .ok s ∧ ofValues .int [.int 4] = .ok s' ∧
      s.sum "" .empty = s'.sum "" .empty := by
  obtain ⟨hlists, hsums, hnulls⟩ := integer_sums
  refine ⟨?_, ?_, ?_⟩
  · have hns : ∀ n ∈ [2147483647, 1, -1], fits IntWidth.int.bits n = true := by decide
    have hleaves : ¬ PrefixesFit IntWidth.int.bits [2147483647, 1, -1] := fun h =>
      absurd (h [2147483647, 1] (by decide)) (by decide)
    obtain ⟨s, hs, -, hoverflow, hfold, -⟩ := hsums .int _ .empty .empty hns
    exact ⟨s, hs, hoverflow hleaves, hfold⟩
  · have hns : ∀ n ∈ [5, -7], fits IntWidth.long.bits n = true := by decide
    have hstays : PrefixesFit IntWidth.long.bits [5, -7] := by
      intro front hfront
      simp only [List.prefix_cons_iff, List.prefix_nil] at hfront
      rcases hfront with rfl | ⟨_, rfl, rfl | ⟨_, rfl, rfl⟩⟩ <;> decide
    obtain ⟨s, hs, hexact, -, -, hagree⟩ := hsums .long _ .empty .empty hns
    exact ⟨s, hs, hexact hstays, hagree _ (hexact hstays)⟩
  · obtain ⟨s₁, s₂, -, hs₂, -, hsame⟩ :=
      hnulls (.nullable .int) [.null, .int 4] _ .empty (by decide) rfl
    exact ⟨_, s₂, rfl, hs₂, hsame⟩

end LambdaQuery
