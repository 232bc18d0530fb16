/-
**Two notions of equality.**  Sets, groups and keys tell values apart by `Value.same`, and lambda
text by `Value.looselyEqual`.  The two differ on numbers alone: lambda text compares numbers of
different kinds by value, where `Value.same` never holds, and it compares two doubles by their place
in the total order, where `Value.same` takes the two zeros for one.

Main definitions:
* `Value.MixedNumbers` — two numbers of different kinds;
* `Value.TwinDoubles` — two doubles that are the same but not one.

Main results:
* `Value.looselyEqual_eq_same` — **the two equalities agree on all other pairs**;
* `Value.MixedNumbers.base_eq_object` — numbers of different kinds have no type but `object` in
  common;
* `Value.equalities_agree` — the two equalities on values of a common type, and membership as an
  operator of the query and as a method in lambda text.
-/

import LambdaQuery.Proofs.CallAcceptance
import LambdaQuery.Proofs.DoubleEquality
import LambdaQuery.Proofs.QuerySoundness
import LambdaQuery.Proofs.ValueOrder

namespace LambdaQuery

/-! ### Values -/

namespace Value

variable {a b : Value} {t : Ty}

/-- Two numbers of different kinds. -/
def MixedNumbers (a b : Value) : Prop :=
  a.isNumeric = true ∧ b.isNumeric = true ∧ a.typeOf ≠ b.typeOf

/-- Two numbers of different kinds that have one place in the order. -/
def EqualAcrossKinds (a b : Value) : Prop :=
  MixedNumbers a b ∧ a.compare b = .eq

/-- Two doubles that are the same although their bits differ. -/
def TwinDoubles (a b : Value) : Prop :=
  ∃ x y : Double, a = double x ∧ b = double y ∧ x ≠ y ∧ Double.same x y = true

/-- Two numbers of one kind. -/
theorem numbers_of_one_kind (ha : a.isNumeric = true) (hb : b.isNumeric = true)
    (h : a.typeOf = b.typeOf) :
    (∃ m n, a = int m ∧ b = int n) ∨ (∃ m n, a = long m ∧ b = long n) ∨
      ∃ x y, a = double x ∧ b = double y := by
  cases a <;> cases ha <;> cases b <;> cases hb <;> try cases h
  · exact .inl ⟨_, _, rfl, rfl⟩
  · exact .inr (.inl ⟨_, _, rfl, rfl⟩)
  · exact .inr (.inr ⟨_, _, rfl, rfl⟩)

/-- **The two equalities agree**, but for numbers of different kinds and for doubles that are the
same although their bits differ. -/
theorem looselyEqual_eq_same (hm : ¬ MixedNumbers a b) (ht : ¬ TwinDoubles a b) :
    a.looselyEqual b = a.same b := by
  unfold looselyEqual
  by_cases hn : a.isNumeric = true ∧ b.isNumeric = true
  · rw [if_pos (by simp [hn]), compare_of_isNumeric hn.1 hn.2, Bool.eq_iff_iff, beq_iff_eq]
    have hkind : a.typeOf = b.typeOf := by_contra fun hne => hm ⟨hn.1, hn.2, hne⟩
    obtain ⟨m, n, rfl, rfl⟩ | ⟨m, n, rfl, rfl⟩ | ⟨x, y, rfl, rfl⟩ :=
      numbers_of_one_kind hn.1 hn.2 hkind
    · rw [compareNumbers_integers rfl rfl, Int.compare_eq_eq]
      simp [same, Int32.toInt_inj]
    · rw [compareNumbers_integers rfl rfl, Int.compare_eq_eq]
      simp [same, Int64.toInt_inj]
    · show Double.totalCompare x y = .eq ↔ Double.same x y = true
      rw [Double.totalCompare_eq_iff]
      constructor
      · rintro rfl
        exact Double.same_self x
      · intro hsame
        exact by_contra fun hne => ht ⟨x, y, rfl, rfl, hne, hsame⟩
  · rw [if_neg (by simpa using hn)]

/-- Numbers of different kinds are never the same. -/
theorem MixedNumbers.same_eq_false (h : MixedNumbers a b) : a.same b = false := by
  obtain ⟨ha, hb, hne⟩ := h
  cases a <;> cases ha <;> cases b <;> cases hb <;> first | rfl | exact absurd rfl hne

/-- They are equal in lambda text when they have one place in the order. -/
theorem MixedNumbers.looselyEqual_iff (h : MixedNumbers a b) :
    a.looselyEqual b = true ↔ a.compare b = .eq := by
  rw [looselyEqual, if_pos (by simp [h.1, h.2.1]), beq_iff_eq]

/-- Of two values that are not twins, the two equalities differ on just such numbers. -/
theorem looselyEqual_eq_same_iff (ht : ¬ TwinDoubles a b) :
    a.looselyEqual b = a.same b ↔ ¬ EqualAcrossKinds a b := by
  by_cases hm : MixedNumbers a b
  · rw [hm.same_eq_false, ← Bool.not_eq_true, hm.looselyEqual_iff, EqualAcrossKinds]
    exact ⟨fun h => fun he => h he.2, fun h he => h ⟨hm, he⟩⟩
  · exact ⟨fun _ he => hm he.1, fun _ => looselyEqual_eq_same hm ht⟩

/-- They have no type but `object` in common. -/
theorem MixedNumbers.base_eq_object (h : MixedNumbers a b) (ha : a.conforms t = true)
    (hb : b.conforms t = true) : t.base = .object := by
  obtain ⟨hna, hnb, hne⟩ := h
  cases a <;> cases hna <;> cases b <;> cases hnb <;>
    simp only [conforms, Bool.or_eq_true, beq_iff_eq] at ha hb <;>
    first
      | exact absurd rfl hne
      | exact ha.elim id fun ha => hb.elim id fun hb => by cases ha.symm.trans hb

end Value

/-! ### Membership -/

/-- Names that tell apart the same way with the case of letters and without it are told apart that
way under all settings. -/
theorem Settings.denotes_eq (s : Settings) {written declared : String}
    (h : Text.sameIgnoringCase declared written = (declared == written)) :
    s.denotes written declared = (declared == written) := by
  rw [denotes]
  split
  · exact h
  · rfl

section Membership

variable {t : Ty} {b : Bindings} {s : Source} {y : Value}

/-- The literal that tells whether a value is in a list. -/
def membership (t : Ty) : Lambda :=
  .ofBody 0 [("xs", .list t), ("y", t)]
    (.collection .contains (.parameter 0 (.list t)) none (some (.parameter 1 t)) .bool)

theorem compile_membership :
    Lambda.compile "(xs, y) => xs.Contains(y)" [.list t, t] b = .ok (membership t) := by
  have hparse : Term.parse "(xs, y) => xs.Contains(y)" =
      .ok (.lambda ["xs", "y"] (.call (some (.name "xs")) "Contains" [.name "y"])) := by cbv
  have hxx : b.settings.denotes "xs" "xs" = true := (Settings.denotes_eq _ (by decide)).trans rfl
  have hxy : b.settings.denotes "xs" "y" = false := (Settings.denotes_eq _ (by decide)).trans rfl
  have hyy : b.settings.denotes "y" "y" = true := (Settings.denotes_eq _ (by decide)).trans rfl
  have hmethod : CollectionMethod.ofName? b.settings.ignoreCase "Contains" = some .contains := by
    cases b.settings.ignoreCase <;> decide
  have hunify : Ty.unify t t = some t := if_pos rfl
  rw [Lambda.compile, hparse]
  simp [Scope.function, Scope.explicit, Scope.extend, Scope.term, Scope.name, Scope.parameter?,
    Scope.findLast?, Scope.settings, hxx, hyy, hxy, hmethod, Scope.collectionMethod,
    Scope.collection, CollectionMethod.argument?, CollectionMethod.withItem, Ty.element?,
    Expr.type, Expr.convertTo, hunify, membership, bind, Except.bind, Except.map]

/-- In every frame the literal looks for an element that is equal as lambda text sees it. -/
theorem invoke_membership (xs : List Value) (y : Value) (frame : Frame) :
    (((membership t).invoke [.sequence xs, y]).run frame).1 =
      .ok (.bool (xs.any fun x => x.looselyEqual y)) := rfl

/-- The operator looks for an element that is the same. -/
theorem Source.computeWith_contains {xs : List Value} (h : Source.ofValues t xs = .ok s)
    (hy : y.conforms t = true) :
    s.computeWith .contains y = .ok (.bool (Collection.contains xs y)) := by
  have hs := Source.ofValues_declared h
  obtain ⟨rfl, -⟩ := Source.ofValues_eq_ok h
  have hcall : Source.constantCall ⟨t, .root t xs⟩ .contains y =
      .ok ⟨.contains, .element, [t], [.query (.root t xs), .constant y t], .bool⟩ :=
    Source.build_contains hs hy
  rw [Source.computeWith, hcall]
  show Query.run _ = _
  exact Query.run_of_items rfl (Query.run_root t xs)

end Membership

/-- **Equality and membership.**  Two values of a common type are equal in lambda text when they are
the same, unless they are numbers of different kinds with one place in the order: such numbers have
no type but `object` in common, and are equal in lambda text although never the same.  A value is in
a list as an operator of the query sees it when it is in the list as lambda text sees it, unless it
makes such a pair with an element.  Nothing is said of doubles that are the same although their bits
differ. -/
theorem Value.equalities_agree (t : Ty) :
    (∀ a b : Value, a.conforms t = true → b.conforms t = true →
      (¬ TwinDoubles a b → (a.looselyEqual b = a.same b ↔ ¬ EqualAcrossKinds a b)) ∧
      (EqualAcrossKinds a b →
        t.base = .object ∧ a.same b = false ∧ a.looselyEqual b = true)) ∧
    ∀ (xs : List Value) (y : Value) (s : Source) (b : Bindings), Source.ofValues t xs = .ok s →
      y.conforms t = true → (∀ x ∈ xs, ¬ TwinDoubles x y ∧ ¬ EqualAcrossKinds x y) →
        ∃ l answer, Lambda.compile "(xs, y) => xs.Contains(y)" [.list t, t] b = .ok l ∧
          (∀ frame, ((l.invoke [.sequence xs, y]).run frame).1 = .ok (.bool answer)) ∧
          s.computeWith .contains y = .ok (.bool answer) := by
  refine ⟨?_, ?_⟩
  · intro a b ha hb
    exact ⟨looselyEqual_eq_same_iff, fun h =>
      ⟨h.1.base_eq_object ha hb, h.1.same_eq_false, h.1.looselyEqual_iff.mpr h.2⟩⟩
  · intro xs y s b hs hy hpairs
    refine ⟨_, _, compile_membership, invoke_membership xs y, ?_⟩
    have hsame : Collection.contains xs y = xs.any fun x => x.looselyEqual y := by
      rw [Bool.eq_iff_iff, Collection.contains, List.any_eq_true, List.any_eq_true]
      refine exists_congr fun x => and_congr_right fun hx => ?_
      rw [(looselyEqual_eq_same_iff (hpairs x hx).1).mpr (hpairs x hx).2]
    rw [Source.computeWith_contains hs hy, hsame]

/-- Under `int` all agree: the integers of a list, and whether one of them is there. -/
theorem Value.equalities_agree_ints :
    (Value.int 2).looselyEqual (.int 2) = (Value.int 2).same (.int 2) ∧
      ∃ s l answer, Source.ofValues .int [.int 1, .int 2] = .ok s ∧
        Lambda.compile "(xs, y) => xs.Contains(y)" [.list .int, .int] Bindings.empty = .ok l ∧
        (∀ frame,
          ((l.invoke [.sequence [.int 1, .int 2], .int 2]).run frame).1 = .ok (.bool answer)) ∧
        s.computeWith .contains (.int 2) = .ok (.bool answer) := by
  have hagree := equalities_agree .int
  refine ⟨?_, ?_⟩
  · exact ((hagree.1 _ _ rfl rfl).1 (by simp [TwinDoubles])).mpr
      (by simp [EqualAcrossKinds, MixedNumbers])
  · obtain ⟨l, answer, h⟩ := hagree.2 [.int 1, .int 2] (.int 2) _ Bindings.empty rfl rfl
      (by simp [TwinDoubles, EqualAcrossKinds, MixedNumbers, typeOf])
    exact ⟨_, l, answer, rfl, h⟩

/-- Under `object` they do not: the integer and the double five are equal in lambda text and not
the same, so of the two kinds of membership only that of lambda text finds the one where the other
is. -/
theorem Value.equalities_differ_on_fives :
    let five := double (Double.ofInt 5)
    (int 5).conforms .object = true ∧ five.conforms .object = true ∧
      (int 5).looselyEqual five = true ∧ (int 5).same five = false ∧
      ∃ s l, Source.ofValues .object [int 5] = .ok s ∧
        Lambda.compile "(xs, y) => xs.Contains(y)" [.list .object, .object] Bindings.empty
          = .ok l ∧
        (∀ frame, ((l.invoke [.sequence [int 5], five]).run frame).1 = .ok (.bool true)) ∧
        s.computeWith .contains five = .ok (.bool false) := by
  intro five
  have hmixed : MixedNumbers (int 5) five := ⟨rfl, rfl, by decide⟩
  have hcompare : (int 5).compare five = .eq := by
    rw [compare_of_isNumeric rfl rfl]
    exact Double.totalCompare_eq_iff.mpr rfl
  have hequal : (int 5).looselyEqual five = true := hmixed.looselyEqual_iff.mpr hcompare
  have hsource : Source.ofValues .object [int 5] = .ok ⟨.object, .root .object [int 5]⟩ := rfl
  refine ⟨rfl, rfl, hequal, hmixed.same_eq_false, _, _, hsource, compile_membership, ?_, ?_⟩
  · intro frame
    rw [invoke_membership, List.any_cons, hequal, Bool.true_or]
  · rw [Source.computeWith_contains hsource rfl, Collection.contains, List.any_cons,
      hmixed.same_eq_false, List.any_nil, Bool.false_or]

end LambdaQuery
