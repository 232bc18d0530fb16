/-
**The order of sorting.**  `Value.compare` turns round when its arguments do, for all values.  It is
transitive on values whose numbers do not collide, and on no others: integers are compared exactly
with each other and as doubles with doubles, so two integers that share a double are told apart by
each other but not by that double.

Main definitions:
* `Consistent` — three orderings, of three pairs out of three, that fit one line;
* `Value.compareWithin` — the order of two values of one kind;
* `Value.Collide` — two different integers that are rounded to one double, with that double;
* `Value.numbers`, `Value.Over` — the numbers inside a value, all of them of a given class.

Main results:
* `Value.compare_eq_then` — values are ordered by their kinds first;
* `Value.compare_swap` — **the order of two values is turned round when they are exchanged**;
* `Value.compareNumbers_consistent` — numbers that do not collide fit one line;
* `Value.compare_consistent` — **over numbers that do not collide, any three values fit one line**,
  by induction on the first of them;
* `Value.compare_total_iff_no_collision` — **the order is transitive over a class of numbers exactly
  when no three of them collide**;
* `Value.compare_trans_of_exact` — it is transitive where all integers lie within `2 ^ 53`.
-/

import LambdaQuery.Proofs.IntegerRounding
import LambdaQuery.Value.Order

namespace LambdaQuery

/-! ### Three orderings on one line -/

/-- The orderings of the first to the second, of the second to the third and of the first to the
third of three things that stand on one line. -/
def Consistent : Ordering → Ordering → Ordering → Prop
  | .eq, q, r => r = q
  | p, .eq, r => r = p
  | .lt, .lt, r => r = .lt
  | .gt, .gt, r => r = .gt
  | _, _, _ => True

namespace Consistent

theorem ne_gt {p q r : Ordering} (h : Consistent p q r) (hp : p ≠ .gt) (hq : q ≠ .gt) :
    r ≠ .gt := by
  cases p <;> cases q <;> simp_all [Consistent]

theorem lt_lt (q : Ordering) : Consistent .lt q .lt := by
  cases q <;> simp [Consistent]

theorem gt_gt (p : Ordering) : Consistent p .gt .gt := by
  cases p <;> simp [Consistent]

/-- What a lawful comparison says of three things fits one line. -/
theorem of_transCmp {α : Type} {cmp : α → α → Ordering} [Std.TransCmp cmp] (a b c : α) :
    Consistent (cmp a b) (cmp b c) (cmp a c) := by
  cases hab : cmp a b with
  | eq =>
      have h : cmp a c = cmp b c := Std.TransCmp.congr_left hab
      rw [h]
      exact rfl
  | lt =>
      cases hbc : cmp b c with
      | eq => exact Std.TransCmp.lt_of_lt_of_eq hab hbc
      | lt => exact Std.TransCmp.lt_trans hab hbc
      | gt => trivial
  | gt =>
      cases hbc : cmp b c with
      | eq => exact Std.TransCmp.gt_of_gt_of_eq hab hbc
      | lt => trivial
      | gt => exact Std.TransCmp.gt_trans hab hbc

/-- First orderings that fit one line, refined by second ones where all of the first are equal. -/
theorem thenOf {p q r p' q' r' : Ordering} (h : Consistent p q r)
    (h' : p = .eq → q = .eq → Consistent p' q' r') :
    Consistent (p.then p') (q.then q') (r.then r') := by
  cases p with
  | eq =>
      obtain rfl : r = q := h
      cases r with
      | eq => exact h' rfl rfl
      | lt => cases p' <;> simp [Consistent]
      | gt => cases p' <;> simp [Consistent]
  | lt =>
      cases q with
      | eq =>
          obtain rfl : r = .lt := h
          cases q' <;> simp [Consistent]
      | lt =>
          obtain rfl : r = .lt := h
          exact rfl
      | gt => trivial
  | gt =>
      cases q with
      | eq =>
          obtain rfl : r = .gt := h
          cases q' <;> simp [Consistent]
      | lt => trivial
      | gt =>
          obtain rfl : r = .gt := h
          exact rfl

theorem swap {p q r : Ordering} (h : Consistent p q r) : Consistent q.swap p.swap r.swap := by
  cases p <;> cases q <;> simp_all [Consistent]

/-- What fits one line fits it from the other end. -/
theorem turn {p q r : Ordering} (h : Consistent p q r) : Consistent p.swap q.swap r.swap := by
  cases p <;> cases q <;> simp_all [Consistent]

theorem compare_int (m n : Int) :
    compare m n = if m < n then .lt else if m = n then .eq else .gt := rfl

/-- Two integers and a place that both are brought to by a map that keeps their order: the map may
take them to one place, but then not to the place in question. -/
theorem of_monotone {f : Int → Int} (hf : ∀ m n, m ≤ n → f m ≤ f n) {m n y : Int}
    (h : m ≠ n → f m = y → f n ≠ y) :
    Consistent (compare m n) (compare (f n) y) (compare (f m) y) := by
  have hmn := hf m n
  have hnm := hf n m
  have heq : m = n → f m = f n := congrArg f
  simp only [compare_int]
  split_ifs <;> simp only [Consistent, reduceCtorEq] <;> omega

/-- The same with the place between the two integers. -/
theorem of_monotone_between {f : Int → Int} (hf : ∀ m n, m ≤ n → f m ≤ f n) {m n y : Int}
    (h : m ≠ n → f m = y → f n ≠ y) :
    Consistent (compare (f m) y) (compare y (f n)) (compare m n) := by
  have hmn := hf m n
  have hnm := hf n m
  have heq : m = n → f m = f n := congrArg f
  simp only [compare_int]
  split_ifs <;> simp only [Consistent, reduceCtorEq] <;> omega

end Consistent

namespace Value

/-! ### Kinds -/

/-- Induction over what values hold, with the numbers as one kind. -/
theorem inductionOn {P : Value → Prop} (v : Value) (null : P null) (bool : ∀ b, P (bool b))
    (number : ∀ v : Value, v.isNumeric = true → P v) (string : ∀ s, P (string s))
    (timestamp : ∀ t, P (timestamp t))
    (sequence : ∀ items, (∀ v ∈ items, P v) → P (sequence items))
    (record : ∀ type values, (∀ v ∈ values, P v) → P (record type values))
    (grouping : ∀ key elements, P key → (∀ v ∈ elements, P v) → P (grouping key elements)) :
    P v := by
  refine @Value.rec P (fun vs => ∀ v ∈ vs, P v) null bool ?_ ?_ ?_ string timestamp sequence record
    grouping ?_ ?_ v
  · intro n
    exact number _ rfl
  · intro n
    exact number _ rfl
  · intro x
    exact number _ rfl
  · intro v hv
    cases hv
  · intro v vs hv hvs
    exact List.forall_mem_cons.2 ⟨hv, hvs⟩

theorem eq_null_of_kindRank {v : Value} (h : v.kindRank = 0) : v = null := by
  cases v with
  | null => rfl
  | _ => simp [kindRank] at h

theorem eq_bool_of_kindRank {v : Value} (h : v.kindRank = 1) : ∃ b, v = bool b := by
  cases v with
  | bool b => exact ⟨b, rfl⟩
  | _ => simp [kindRank] at h

theorem kindRank_eq_two {v : Value} : v.kindRank = 2 ↔ v.isNumeric = true := by
  cases v <;> simp [kindRank, isNumeric]

theorem eq_string_of_kindRank {v : Value} (h : v.kindRank = 3) : ∃ s, v = string s := by
  cases v with
  | string s => exact ⟨s, rfl⟩
  | _ => simp [kindRank] at h

theorem eq_timestamp_of_kindRank {v : Value} (h : v.kindRank = 4) : ∃ t, v = timestamp t := by
  cases v with
  | timestamp t => exact ⟨t, rfl⟩
  | _ => simp [kindRank] at h

theorem eq_record_of_kindRank {v : Value} (h : v.kindRank = 5) :
    ∃ type values, v = record type values := by
  cases v with
  | record type values => exact ⟨type, values, rfl⟩
  | _ => simp [kindRank] at h

theorem eq_sequence_of_kindRank {v : Value} (h : v.kindRank = 6) : ∃ items, v = sequence items := by
  cases v with
  | sequence items => exact ⟨items, rfl⟩
  | _ => simp [kindRank] at h

theorem eq_grouping_of_kindRank {v : Value} (h : v.kindRank = 7) :
    ∃ key elements, v = grouping key elements := by
  cases v with
  | grouping key elements => exact ⟨key, elements, rfl⟩
  | _ => simp [kindRank] at h

/-! ### The order by kinds first -/

/-- The order of two values of one kind. -/
def compareWithin (a b : Value) : Ordering :=
  match a, b with
  | bool p, bool q => Ord.compare p q
  | string s, string t => Ord.compare s t
  | timestamp s, timestamp t => s.compare t
  | sequence as, sequence bs => compareAll as bs
  | record _ as, record _ bs => compareAll as bs
  | grouping k as, grouping l bs => (compare k l).then (compareAll as bs)
  | a, b => if a.isNumeric && b.isNumeric then compareNumbers a b else .eq

theorem compareWithin_of_isNumeric {a b : Value} (ha : a.isNumeric = true)
    (hb : b.isNumeric = true) :
    a.compareWithin b = a.compareNumbers b := by
  cases a <;> cases ha <;> cases b <;> cases hb <;> rfl

/-- Values are ordered by their kinds first. -/
theorem compare_eq_then (a b : Value) :
    a.compare b = (Ord.compare a.kindRank b.kindRank).then (a.compareWithin b) := by
  cases a <;> cases b <;> rw [compare] <;>
    first
    | rfl
    | (intros; simp_all)

/-- Values of different kinds are ordered by their kinds alone, so orders within kinds need to be
turned round for values of one kind only. -/
theorem compare_swap_of_within {a b : Value}
    (h : a.kindRank = b.kindRank → b.compareWithin a = (a.compareWithin b).swap) :
    b.compare a = (a.compare b).swap := by
  rw [compare_eq_then, compare_eq_then, Ordering.swap_then, ← Std.OrientedOrd.eq_swap]
  by_cases hk : a.kindRank = b.kindRank
  · rw [h hk]
  · have hne : Ord.compare b.kindRank a.kindRank ≠ .eq := by
      intro heq
      exact hk (Nat.compare_eq_eq.1 heq).symm
    cases hr : Ord.compare b.kindRank a.kindRank with
    | eq => exact absurd hr hne
    | lt => rfl
    | gt => rfl

/-- Kinds fit one line, so orders within kinds need to fit one for values of one kind only. -/
theorem compare_consistent_of_within {a b c : Value}
    (h : b.kindRank = a.kindRank → c.kindRank = a.kindRank →
      Consistent (a.compareWithin b) (b.compareWithin c) (a.compareWithin c)) :
    Consistent (a.compare b) (b.compare c) (a.compare c) := by
  rw [compare_eq_then a b, compare_eq_then b c, compare_eq_then a c]
  refine (Consistent.of_transCmp a.kindRank b.kindRank c.kindRank).thenOf ?_
  intro hab hbc
  rw [Nat.compare_eq_eq] at hab hbc
  exact h hab.symm (hbc ▸ hab.symm)

/-! ### The order turned round -/

theorem compareNumbers_swap (a b : Value) : b.compareNumbers a = (a.compareNumbers b).swap := by
  rw [compareNumbers]
  cases a <;> cases b <;>
    first
    | exact Std.OrientedOrd.eq_swap
    | rfl

theorem compareAll_swap {as : List Value}
    (h : ∀ a ∈ as, ∀ b : Value, b.compare a = (a.compare b).swap) (bs : List Value) :
    compareAll bs as = (compareAll as bs).swap := by
  induction as generalizing bs with
  | nil =>
      cases bs with
      | nil => rfl
      | cons b bs => rfl
  | cons a as ih =>
      cases bs with
      | nil => rfl
      | cons b bs =>
          obtain ⟨ha, has⟩ := List.forall_mem_cons.1 h
          rw [compareAll, compareAll, Ordering.swap_then, ha b, ih has bs]

theorem timestamp_compare_swap (s t : Timestamp) : t.compare s = (s.compare t).swap := by
  unfold Timestamp.compare
  rw [Ordering.swap_then, Ordering.swap_then, ← Std.OrientedOrd.eq_swap, ← Std.OrientedOrd.eq_swap,
    ← Std.OrientedOrd.eq_swap]

/-- **The order of two values is turned round when they are exchanged.** -/
theorem compare_swap (a b : Value) : b.compare a = (a.compare b).swap := by
  induction a using inductionOn generalizing b with
  | null =>
      apply compare_swap_of_within
      intro hk
      obtain rfl := eq_null_of_kindRank hk.symm
      rfl
  | bool p =>
      apply compare_swap_of_within
      intro hk
      obtain ⟨q, rfl⟩ := eq_bool_of_kindRank hk.symm
      exact Std.OrientedOrd.eq_swap
  | number a ha =>
      apply compare_swap_of_within
      intro hk
      have hb : b.isNumeric = true := kindRank_eq_two.1 (hk ▸ kindRank_eq_two.2 ha)
      rw [compareWithin_of_isNumeric ha hb, compareWithin_of_isNumeric hb ha]
      exact compareNumbers_swap a b
  | string s =>
      apply compare_swap_of_within
      intro hk
      obtain ⟨t, rfl⟩ := eq_string_of_kindRank hk.symm
      exact Std.OrientedOrd.eq_swap
  | timestamp s =>
      apply compare_swap_of_within
      intro hk
      obtain ⟨t, rfl⟩ := eq_timestamp_of_kindRank hk.symm
      exact timestamp_compare_swap s t
  | sequence items ih =>
      apply compare_swap_of_within
      intro hk
      obtain ⟨others, rfl⟩ := eq_sequence_of_kindRank hk.symm
      exact compareAll_swap ih others
  | record type values ih =>
      apply compare_swap_of_within
      intro hk
      obtain ⟨type', others, rfl⟩ := eq_record_of_kindRank hk.symm
      exact compareAll_swap ih others
  | grouping key elements hkey ih =>
      apply compare_swap_of_within
      intro hk
      obtain ⟨key', others, rfl⟩ := eq_grouping_of_kindRank hk.symm
      simp only [compareWithin]
      rw [Ordering.swap_then, hkey key', compareAll_swap ih others]

/-! ### Numbers -/

/-- Two integers, the first one greater, that are rounded to one double, with that double. -/
def Collide (u x v : Value) : Prop :=
  ∃ m n : Int64, u.toInt64? = some m ∧ v.toInt64? = some n ∧ n.toInt < m.toInt ∧
    Double.ofInt m.toInt = Double.ofInt n.toInt ∧ x = double (Double.ofInt m.toInt)

/-- A number is an integer or a double. -/
theorem isNumeric_cases {v : Value} (h : v.isNumeric = true) :
    (∃ m : Int64, v.toInt64? = some m ∧ v.toDouble? = some (Double.ofInt m.toInt)) ∨
      ∃ x, v = double x := by
  cases v with
  | int n =>
      refine .inl ⟨n.toInt64, rfl, ?_⟩
      rw [Int32.toInt_toInt64]
      rfl
  | long n => exact .inl ⟨n, rfl, rfl⟩
  | double x => exact .inr ⟨x, rfl⟩
  | _ => cases h

/-- The place of a number in the total order of doubles. -/
def place (v : Value) : Int :=
  match v.toDouble? with
  | some x => Double.orderKey x
  | none => 0

theorem place_of_toDouble? {v : Value} {x : Double} (h : v.toDouble? = some x) :
    v.place = Double.orderKey x := by
  rw [place, h]

theorem compareNumbers_integers {a b : Value} {m n : Int64} (ha : a.toInt64? = some m)
    (hb : b.toInt64? = some n) : a.compareNumbers b = Ord.compare m.toInt n.toInt := by
  simp only [compareNumbers, ha, hb]

theorem compareNumbers_double {a : Value} (ha : a.isNumeric = true) (y : Double) :
    a.compareNumbers (double y) = Ord.compare a.place (double y).place := by
  cases a <;> cases ha <;> rfl

theorem double_compareNumbers {a : Value} (ha : a.isNumeric = true) (y : Double) :
    (double y).compareNumbers a = Ord.compare (double y).place a.place := by
  cases a <;> cases ha <;> rfl

/-- Two different integers that have the place of one double collide with it. -/
theorem collide_of_place {u v : Value} {m n : Int64} {x : Double} (hu : u.toInt64? = some m)
    (hv : v.toInt64? = some n) (hne : m.toInt ≠ n.toInt)
    (hm : Double.orderKey (Double.ofInt m.toInt) = (double x).place)
    (hn : Double.orderKey (Double.ofInt n.toInt) = (double x).place) :
    Collide u (double x) v ∨ Collide v (double x) u := by
  have hxm : Double.ofInt m.toInt = x := Double.orderKey_inj hm
  have hxn : Double.ofInt n.toInt = x := Double.orderKey_inj hn
  obtain hlt | hlt := Int.lt_or_gt_of_ne hne
  · exact .inr ⟨n, m, hv, hu, hlt, hxn.trans hxm.symm, congrArg double hxn.symm⟩
  · exact .inl ⟨m, n, hu, hv, hlt, hxm.trans hxn.symm, congrArg double hxm.symm⟩

/-- Numbers that do not collide fit one line.  Where integers alone decide, or doubles alone, they
decide lawfully; two integers and a double fit unless both integers are rounded to the double. -/
theorem compareNumbers_consistent {N : Value → Prop}
    (hN : ∀ u x v, N u → N x → N v → ¬ Collide u x v) {a b c : Value}
    (ha : a.isNumeric = true) (hb : b.isNumeric = true) (hc : c.isNumeric = true)
    (hNa : N a) (hNb : N b) (hNc : N c) :
    Consistent (a.compareNumbers b) (b.compareNumbers c) (a.compareNumbers c) := by
  have hmono : ∀ m n : Int, m ≤ n →
      Double.orderKey (Double.ofInt m) ≤ Double.orderKey (Double.ofInt n) :=
    fun m n h => Double.orderKey_ofInt_mono h
  -- two different integers of the three are not both rounded to the double
  have hapart : ∀ {u v : Value} {m n : Int64} {x : Double}, N u → N v → N (double x) →
      u.toInt64? = some m → v.toInt64? = some n → m.toInt ≠ n.toInt →
      Double.orderKey (Double.ofInt m.toInt) = (double x).place →
      Double.orderKey (Double.ofInt n.toInt) ≠ (double x).place := by
    intro u v m n x hNu hNv hNx hu hv hne hm hn
    obtain h | h := collide_of_place hu hv hne hm hn
    · exact hN _ _ _ hNu hNx hNv h
    · exact hN _ _ _ hNv hNx hNu h
  -- eight cases, by which of the three are integers
  obtain ⟨l, hl, hl'⟩ | ⟨x, rfl⟩ := isNumeric_cases ha <;>
    obtain ⟨m, hm, hm'⟩ | ⟨y, rfl⟩ := isNumeric_cases hb <;>
    obtain ⟨n, hn, hn'⟩ | ⟨z, rfl⟩ := isNumeric_cases hc
  · rw [compareNumbers_integers hl hm, compareNumbers_integers hm hn, compareNumbers_integers hl hn]
    exact Consistent.of_transCmp _ _ _
  · rw [compareNumbers_integers hl hm, compareNumbers_double hb, compareNumbers_double ha,
      place_of_toDouble? hl', place_of_toDouble? hm']
    exact Consistent.of_monotone hmono (hapart hNa hNb hNc hl hm)
  · rw [compareNumbers_integers hl hn, compareNumbers_double ha, double_compareNumbers hc,
      place_of_toDouble? hl', place_of_toDouble? hn']
    exact Consistent.of_monotone_between hmono (hapart hNa hNc hNb hl hn)
  · rw [compareNumbers_double ha, double_compareNumbers hc, compareNumbers_double ha]
    exact Consistent.of_transCmp _ _ _
  · -- the mirror image of two integers before a double
    rw [compareNumbers_swap b, compareNumbers_swap c b, compareNumbers_swap c]
    apply Consistent.swap
    rw [compareNumbers_integers hn hm, compareNumbers_double hb, compareNumbers_double hc,
      place_of_toDouble? hm', place_of_toDouble? hn']
    exact Consistent.of_monotone hmono (hapart hNc hNb hNa hn hm)
  · rw [double_compareNumbers hb, compareNumbers_double hb, compareNumbers_double ha]
    exact Consistent.of_transCmp _ _ _
  · rw [compareNumbers_double ha, double_compareNumbers hc, double_compareNumbers hc]
    exact Consistent.of_transCmp _ _ _
  · rw [compareNumbers_double ha, compareNumbers_double hb, compareNumbers_double ha]
    exact Consistent.of_transCmp _ _ _

/-! ### Values over a class of numbers -/

mutual

/-- The numbers inside a value. -/
def numbers : Value → List Value
  | int n => [int n]
  | long n => [long n]
  | double x => [double x]
  | sequence items => numbersAll items
  | record _ values => numbersAll values
  | grouping key elements => numbers key ++ numbersAll elements
  | null | bool _ | string _ | timestamp _ => []

/-- The numbers inside the values of a list. -/
def numbersAll : List Value → List Value
  | [] => []
  | v :: vs => numbers v ++ numbersAll vs

end

/-- Every number inside the value is of the class. -/
def Over (N : Value → Prop) (v : Value) : Prop :=
  ∀ u ∈ v.numbers, N u

variable {N : Value → Prop}

theorem numbers_of_isNumeric {v : Value} (h : v.isNumeric = true) : v.numbers = [v] := by
  cases v <;> cases h <;> rfl

theorem over_of_isNumeric {v : Value} (h : v.isNumeric = true) : v.Over N ↔ N v := by
  rw [Over, numbers_of_isNumeric h, List.forall_mem_singleton]

theorem forall_mem_numbersAll {vs : List Value} :
    (∀ u ∈ numbersAll vs, N u) ↔ ∀ v ∈ vs, v.Over N := by
  induction vs with
  | nil => simp [numbersAll]
  | cons v vs ih => rw [numbersAll, List.forall_mem_append, List.forall_mem_cons, ih, Over]

theorem over_sequence {items : List Value} : (sequence items).Over N ↔ ∀ v ∈ items, v.Over N := by
  rw [Over, numbers, forall_mem_numbersAll]

theorem over_record {type : RecordTy} {values : List Value} :
    (record type values).Over N ↔ ∀ v ∈ values, v.Over N := by
  rw [Over, numbers, forall_mem_numbersAll]

theorem over_grouping {key : Value} {elements : List Value} :
    (grouping key elements).Over N ↔ key.Over N ∧ ∀ v ∈ elements, v.Over N := by
  rw [Over, numbers, List.forall_mem_append, forall_mem_numbersAll, Over]

/-! ### Three values on one line -/

theorem timestamp_compare_consistent (s t u : Timestamp) :
    Consistent (s.compare t) (t.compare u) (s.compare u) := by
  rw [Timestamp.compare]
  refine (Consistent.of_transCmp s.day t.day u.day).thenOf fun _ _ => ?_
  refine (Consistent.of_transCmp s.second t.second u.second).thenOf fun _ _ => ?_
  exact Consistent.of_transCmp s.nano t.nano u.nano

/-- Lists fit one line when their elements do. -/
theorem compareAll_consistent {as : List Value}
    (h : ∀ a ∈ as, ∀ b c : Value, b.Over N → c.Over N →
      Consistent (a.compare b) (b.compare c) (a.compare c))
    {bs cs : List Value} (hbs : ∀ b ∈ bs, b.Over N) (hcs : ∀ c ∈ cs, c.Over N) :
    Consistent (compareAll as bs) (compareAll bs cs) (compareAll as cs) := by
  -- a list that has come to its end is first, whatever the others go on with
  induction as generalizing bs cs with
  | nil =>
      cases bs with
      | nil => cases cs <;> exact rfl
      | cons b bs =>
          cases cs with
          | nil => trivial
          | cons c cs => exact Consistent.lt_lt _
  | cons a as ih =>
      cases bs with
      | nil =>
          cases cs with
          | nil => exact rfl
          | cons c cs => trivial
      | cons b bs =>
          cases cs with
          | nil => exact Consistent.gt_gt _
          | cons c cs =>
              obtain ⟨ha, has⟩ := List.forall_mem_cons.1 h
              obtain ⟨hb, hbs'⟩ := List.forall_mem_cons.1 hbs
              obtain ⟨hc, hcs'⟩ := List.forall_mem_cons.1 hcs
              rw [compareAll, compareAll, compareAll]
              exact (ha b c hb hc).thenOf fun _ _ => ih has hbs' hcs'

/-- **Over numbers that do not collide, the orders of three values fit one line.** -/
theorem compare_consistent (hN : ∀ u x v, N u → N x → N v → ¬ Collide u x v) (a : Value)
    (ha : a.Over N) (b c : Value) (hb : b.Over N) (hc : c.Over N) :
    Consistent (a.compare b) (b.compare c) (a.compare c) := by
  induction a using inductionOn generalizing b c with
  | null =>
      apply compare_consistent_of_within
      intro hkb hkc
      obtain rfl := eq_null_of_kindRank hkb
      obtain rfl := eq_null_of_kindRank hkc
      exact rfl
  | bool p =>
      apply compare_consistent_of_within
      intro hkb hkc
      obtain ⟨q, rfl⟩ := eq_bool_of_kindRank hkb
      obtain ⟨r, rfl⟩ := eq_bool_of_kindRank hkc
      show Consistent (Ord.compare p q) (Ord.compare q r) (Ord.compare p r)
      exact Consistent.of_transCmp p q r
  | number a hna =>
      apply compare_consistent_of_within
      intro hkb hkc
      rw [kindRank_eq_two.2 hna, kindRank_eq_two] at hkb hkc
      rw [compareWithin_of_isNumeric hna hkb, compareWithin_of_isNumeric hkb hkc,
        compareWithin_of_isNumeric hna hkc]
      exact compareNumbers_consistent hN hna hkb hkc ((over_of_isNumeric hna).1 ha)
        ((over_of_isNumeric hkb).1 hb) ((over_of_isNumeric hkc).1 hc)
  | string s =>
      apply compare_consistent_of_within
      intro hkb hkc
      obtain ⟨t, rfl⟩ := eq_string_of_kindRank hkb
      obtain ⟨u, rfl⟩ := eq_string_of_kindRank hkc
      show Consistent (Ord.compare s t) (Ord.compare t u) (Ord.compare s u)
      exact Consistent.of_transCmp s t u
  | timestamp s =>
      apply compare_consistent_of_within
      intro hkb hkc
      obtain ⟨t, rfl⟩ := eq_timestamp_of_kindRank hkb
      obtain ⟨u, rfl⟩ := eq_timestamp_of_kindRank hkc
      exact timestamp_compare_consistent s t u
  | sequence items ih =>
      apply compare_consistent_of_within
      intro hkb hkc
      obtain ⟨bs, rfl⟩ := eq_sequence_of_kindRank hkb
      obtain ⟨cs, rfl⟩ := eq_sequence_of_kindRank hkc
      rw [over_sequence] at ha hb hc
      exact compareAll_consistent (fun v hv => ih v hv (ha v hv)) hb hc
  | record type values ih =>
      apply compare_consistent_of_within
      intro hkb hkc
      obtain ⟨_, bs, rfl⟩ := eq_record_of_kindRank hkb
      obtain ⟨_, cs, rfl⟩ := eq_record_of_kindRank hkc
      rw [over_record] at ha hb hc
      exact compareAll_consistent (fun v hv => ih v hv (ha v hv)) hb hc
  | grouping key elements hkey ih =>
      apply compare_consistent_of_within
      intro hkb hkc
      obtain ⟨kb, bs, rfl⟩ := eq_grouping_of_kindRank hkb
      obtain ⟨kc, cs, rfl⟩ := eq_grouping_of_kindRank hkc
      rw [over_grouping] at ha hb hc
      exact (hkey ha.1 kb kc hb.1 hc.1).thenOf fun _ _ =>
        compareAll_consistent (fun v hv => ih v hv (ha.2 v hv)) hb.2 hc.2

/-! ### Where the order is total -/

theorem compare_of_isNumeric {a b : Value} (ha : a.isNumeric = true) (hb : b.isNumeric = true) :
    a.compare b = a.compareNumbers b := by
  rw [compare_eq_then, kindRank_eq_two.2 ha, kindRank_eq_two.2 hb, compareWithin_of_isNumeric ha hb]
  rfl

theorem isNumeric_of_toInt64? {v : Value} {n : Int64} (h : v.toInt64? = some n) :
    v.isNumeric = true := by
  cases v <;> first | rfl | cases h

theorem place_of_toInt64? {v : Value} {n : Int64} (h : v.toInt64? = some n) :
    v.place = Double.orderKey (Double.ofInt n.toInt) := by
  obtain ⟨m, hm, hm'⟩ | ⟨x, rfl⟩ := isNumeric_cases (isNumeric_of_toInt64? h)
  · obtain rfl : m = n := Option.some.inj (hm.symm.trans h)
    exact place_of_toDouble? hm'
  · cases h

/-- Two integers that collide with a double are told apart from each other, but not from it. -/
theorem Collide.compare_eq {u x v : Value} (h : Collide u x v) :
    u.compare x = .eq ∧ x.compare v = .eq ∧ u.compare v = .gt := by
  obtain ⟨m, n, hu, hv, hlt, hround, rfl⟩ := h
  have hnu := isNumeric_of_toInt64? hu
  have hnv := isNumeric_of_toInt64? hv
  have hx : (double (Double.ofInt m.toInt)).isNumeric = true := rfl
  refine ⟨?_, ?_, ?_⟩
  · rw [compare_of_isNumeric hnu hx, compareNumbers_double hnu, place_of_toInt64? hu]
    exact Std.ReflOrd.compare_self
  · rw [compare_of_isNumeric hx hnv, double_compareNumbers hnv, place_of_toInt64? hv, hround]
    exact Std.ReflOrd.compare_self
  · rw [compare_of_isNumeric hnu hnv, compareNumbers_integers hu hv]
    exact Int.compare_eq_gt.2 hlt

theorem Collide.isNumeric {u x v : Value} (h : Collide u x v) :
    u.isNumeric = true ∧ x.isNumeric = true ∧ v.isNumeric = true := by
  obtain ⟨m, n, hu, hv, -, -, rfl⟩ := h
  exact ⟨isNumeric_of_toInt64? hu, rfl, isNumeric_of_toInt64? hv⟩

/-- **The order of values is turned round when they are exchanged, and it is transitive on the
values over a class of numbers exactly when no three numbers of the class collide**: two different
integers that are rounded to one double, and that double. -/
theorem compare_total_iff_no_collision (N : Value → Prop) :
    (∀ a b : Value, b.compare a = (a.compare b).swap) ∧
      ((∀ a b c : Value, a.Over N → b.Over N → c.Over N →
          a.compare b ≠ .gt → b.compare c ≠ .gt → a.compare c ≠ .gt) ↔
        ¬ ∃ u x v, N u ∧ N x ∧ N v ∧ Collide u x v) := by
  refine ⟨compare_swap, ?_⟩
  constructor
  · rintro h ⟨u, x, v, hu, hx, hv, hcol⟩
    obtain ⟨hnu, hnx, hnv⟩ := hcol.isNumeric
    obtain ⟨hux, hxv, huv⟩ := hcol.compare_eq
    have hle := h u x v ((over_of_isNumeric hnu).2 hu) ((over_of_isNumeric hnx).2 hx)
      ((over_of_isNumeric hnv).2 hv) (by simp [hux]) (by simp [hxv])
    exact hle huv
  · intro h a b c ha hb hc hab hbc
    have hN : ∀ u x v, N u → N x → N v → ¬ Collide u x v :=
      fun u x v hu hx hv hcol => h ⟨u, x, v, hu, hx, hv, hcol⟩
    exact (compare_consistent hN a ha b c hb hc).ne_gt hab hbc

/-- The order is not transitive on all values: `2 ^ 53 + 1` and `2 ^ 53` share the double
`2 ^ 53`. -/
theorem compare_not_transitive :
    ¬ ∀ a b c : Value, a.compare b ≠ .gt → b.compare c ≠ .gt → a.compare c ≠ .gt := by
  intro h
  have hcol : Collide (long 9007199254740993) (double (Double.ofInt 9007199254740993))
      (long 9007199254740992) :=
    ⟨9007199254740993, 9007199254740992, rfl, rfl, by decide, by decide +kernel, rfl⟩
  obtain ⟨hux, hxv, huv⟩ := hcol.compare_eq
  have hle := h (long 9007199254740993) (double (Double.ofInt 9007199254740993))
    (long 9007199254740992) (by simp [hux]) (by simp [hxv])
  exact hle huv

/-- Integers up to `2 ^ 53` are doubles themselves, so the order is transitive where all integers
are of that size. -/
theorem compare_trans_of_exact {a b c : Value}
    (h : ∀ v ∈ a.numbers ++ b.numbers ++ c.numbers, ∀ n, v.toInt64? = some n →
      n.toInt.natAbs ≤ 2 ^ 53)
    (hab : a.compare b ≠ .gt) (hbc : b.compare c ≠ .gt) : a.compare c ≠ .gt := by
  have hN : ∀ u x v, u ∈ a.numbers ++ b.numbers ++ c.numbers →
      x ∈ a.numbers ++ b.numbers ++ c.numbers → v ∈ a.numbers ++ b.numbers ++ c.numbers →
      ¬ Collide u x v := by
    rintro u x v hu - hv ⟨m, n, hm, hn, hlt, hround, -⟩
    have hkey := Double.orderKey_ofInt_strict hlt (h v hv n hn) (h u hu m hm)
    rw [hround] at hkey
    exact lt_irrefl _ hkey
  have hcons := compare_consistent hN a (fun u hu => by simp [hu]) b c (fun u hu => by simp [hu])
    (fun u hu => by simp [hu])
  exact hcons.ne_gt hab hbc

end Value

end LambdaQuery
