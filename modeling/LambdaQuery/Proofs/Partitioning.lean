/-
**Cut in two.**  `Take` and `Skip` cut the items of a source at a place, `TakeWhile` and `SkipWhile`
before the first item for which a condition does not hold.  Of each pair one operator gives what is
before the cut and the other what is behind it, so that nothing is lost and nothing comes twice.

A condition may fail for an item.  It is asked for the items in order and for none past the first
one for which it does not hold, by both operators alike: they meet the same items with the same
answers, so both are cut short by the same failure or neither is.

Main definitions:
* `Each.IsLongest` — the longest front of a list on which a condition holds;
* `Each.Parted` — how a condition parts a list, and for which elements it is asked;
* `Each.noting`, `Each.Asks` — a condition that notes for which elements it is asked, and which
  those are in either search;
* `Query.counted`, `Query.chosen` — the calls of the two pairs of operators on a tree.

Main results:
* `Each.Parted.cases` — the two parts make up the list, or neither is there;
* `Each.parted` — **a condition parts every list**, and both searches ask it for the same elements;
* `Source.deriveWith_counted`, `Source.derive_chosen_iff` — the sources that the operators make;
* `Source.partitioning` — **both pairs of operators part the items of a source**.
-/

import LambdaQuery.Proofs.CallAcceptance
import LambdaQuery.Proofs.QuerySoundness

namespace LambdaQuery

/-! ### Lists and conditions -/

namespace Each

variable {ε α : Type} {test : α → Except ε Bool} {xs front rest asked : List α} {x : α}
  {before behind : Except ε (List α)}

/-- The longest front of the list on which the condition holds. -/
structure IsLongest (test : α → Except ε Bool) (xs front : List α) : Prop where
  isPrefix : front <+: xs
  holds : ∀ x ∈ front, test x = .ok true
  longest : ∀ other, other <+: xs → (∀ x ∈ other, test x = .ok true) → other <+: front

/-- How a condition parts a list: the elements for which it is asked, and what is before and behind
the cut.  Failing for an element, the condition spoils both. -/
inductive Parted (test : α → Except ε Bool) (xs : List α) :
    List α → Except ε (List α) → Except ε (List α) → Prop
  | whole (h : IsLongest test xs xs) : Parted test xs xs (.ok xs) (.ok [])
  | cut {front : List α} {x : α} {rest : List α} (happend : front ++ x :: rest = xs)
      (h : IsLongest test xs front) (hx : test x = .ok false) :
      Parted test xs (front ++ [x]) (.ok front) (.ok (x :: rest))
  | failed {front : List α} {x : α} {rest : List α} {e : ε} (happend : front ++ x :: rest = xs)
      (h : IsLongest test xs front) (hx : test x = .error e) :
      Parted test xs (front ++ [x]) (.error e) (.error e)

/-- Both parts fail with the same error, or both are there, make up the list, and the first of them
is the longest front on which the condition holds. -/
theorem Parted.cases (h : Parted test xs asked before behind) :
    (∃ e, before = .error e ∧ behind = .error e) ∨
      ∃ front rest, before = .ok front ∧ behind = .ok rest ∧ front ++ rest = xs ∧
        IsLongest test xs front := by
  cases h with
  | whole h => exact .inr ⟨xs, [], rfl, rfl, List.append_nil _, h⟩
  | cut happend h _ => exact .inr ⟨_, _, rfl, rfl, happend, h⟩
  | failed _ _ _ => exact .inl ⟨_, rfl, rfl⟩

/-- The condition, which also notes for which elements it is asked, in order. -/
def noting (test : α → Except ε Bool) (x : α) : ExceptT ε (StateM (List α)) Bool := do
  modify (· ++ [x])
  liftM (test x)

/-- Both searches of a list ask the condition for the given elements, in order. -/
def Asks (test : α → Except ε Bool) (xs asked : List α) : Prop :=
  ∀ noted, (takeWhile (noting test) xs).run noted = (takeWhile test xs, noted ++ asked) ∧
    (dropWhile (noting test) xs).run noted = (dropWhile test xs, noted ++ asked)

theorem run_noting (noted : List α) : (noting test x).run noted = (test x, noted ++ [x]) := by
  rw [noting]
  cases h : test x <;> rfl

/-! ### The two searches -/

theorem IsLongest.nil : IsLongest test [] [] where
  isPrefix := List.nil_prefix
  holds _ hx := absurd hx List.not_mem_nil
  longest _ hother _ := hother

theorem IsLongest.cons (h : IsLongest test xs front) (hx : test x = .ok true) :
    IsLongest test (x :: xs) (x :: front) where
  isPrefix := List.cons_prefix_cons.mpr ⟨rfl, h.isPrefix⟩
  holds := List.forall_mem_cons.mpr ⟨hx, h.holds⟩
  longest := by
    intro other hother hholds
    cases other with
    | nil => exact List.nil_prefix
    | cons y other =>
        obtain ⟨rfl, htail⟩ := List.cons_prefix_cons.mp hother
        refine List.cons_prefix_cons.mpr ⟨rfl, h.longest other htail fun z hz => ?_⟩
        exact hholds z (List.mem_cons_of_mem _ hz)

/-- No front holds the first element if the condition does not hold for it. -/
theorem IsLongest.stop (hx : test x ≠ .ok true) : IsLongest test (x :: xs) [] where
  isPrefix := List.nil_prefix
  holds _ hy := absurd hy List.not_mem_nil
  longest := by
    intro other hother hholds
    cases other with
    | nil => exact List.nil_prefix
    | cons y other =>
        obtain ⟨rfl, -⟩ := List.cons_prefix_cons.mp hother
        exact absurd (hholds y (List.mem_cons_self ..)) hx

/-- An element for which the condition holds comes to the front. -/
theorem Parted.cons (h : Parted test xs asked before behind) (hx : test x = .ok true) :
    Parted test (x :: xs) (x :: asked) (before.map (x :: ·)) behind := by
  cases h with
  | whole h => exact .whole (h.cons hx)
  | cut happend h hy => exact .cut (congrArg (x :: ·) happend) (h.cons hx) hy
  | failed happend h hy => exact .failed (congrArg (x :: ·) happend) (h.cons hx) hy

/-- The search for the front goes on past an element for which the condition holds. -/
theorem takeWhile_cons (hx : test x = .ok true) :
    takeWhile test (x :: xs) = (takeWhile test xs).map (x :: ·) := by
  rw [takeWhile, hx]
  rfl

theorem dropWhile_cons (hx : test x = .ok true) :
    dropWhile test (x :: xs) = dropWhile test xs := by
  rw [dropWhile, hx]
  rfl

/-- With the element noted, both ask for the same elements as behind it. -/
theorem Asks.cons (h : Asks test xs asked) (hx : test x = .ok true) :
    Asks test (x :: xs) (x :: asked) := by
  intro noted
  obtain ⟨hfront, hrest⟩ := h (noted ++ [x])
  rw [List.append_assoc, List.singleton_append] at hfront hrest
  constructor
  · rw [takeWhile_cons hx, takeWhile, run_bind, run_noting, hx]
    show ((takeWhile (noting test) xs >>= fun rest => pure (x :: rest)).run (noted ++ [x])) = _
    rw [run_bind, hfront]
    cases takeWhile test xs <;> rfl
  · rw [dropWhile_cons hx, dropWhile, run_bind, run_noting, hx]
    exact hrest

/-- Both searches end with an element for which the condition does not hold. -/
theorem Asks.stop (hx : test x ≠ .ok true) : Asks test (x :: xs) [x] := by
  intro noted
  simp only [takeWhile, dropWhile, run_bind, run_noting]
  cases h : test x with
  | error e => exact ⟨rfl, rfl⟩
  | ok holds =>
      cases holds with
      | false => exact ⟨rfl, rfl⟩
      | true => exact absurd h hx

/-- **A condition parts every list.**  Both searches ask it for the same elements. -/
theorem parted (test : α → Except ε Bool) (xs : List α) :
    ∃ asked, Parted test xs asked (takeWhile test xs) (dropWhile test xs) ∧ Asks test xs asked := by
  induction xs with
  | nil => exact ⟨[], .whole .nil, fun noted => by rw [List.append_nil]; exact ⟨rfl, rfl⟩⟩
  | cons x xs ih =>
      cases hx : test x with
      | error e =>
          have hne : test x ≠ .ok true := by simp [hx]
          refine ⟨[x], ?_, .stop hne⟩
          rw [takeWhile, dropWhile, hx]
          exact .failed (List.nil_append _) (.stop hne) hx
      | ok holds =>
          cases holds with
          | false =>
              have hne : test x ≠ .ok true := by simp [hx]
              refine ⟨[x], ?_, .stop hne⟩
              rw [takeWhile, dropWhile, hx]
              exact .cut (List.nil_append _) (.stop hne) hx
          | true =>
              obtain ⟨asked, hparted, hasks⟩ := ih
              refine ⟨x :: asked, ?_, hasks.cons hx⟩
              rw [takeWhile_cons hx, dropWhile_cons hx]
              exact hparted.cons hx

end Each

/-! ### Calls on a tree -/

namespace Query

variable {q : Query} {operator : Operator} {items : List Value} {n : Int32} {l : Lambda}
  {typeArgs : List Ty} {type : Ty}

/-- The call of an operator that cuts the items of a tree at a place. -/
def counted (q : Query) (operator : Operator) (n : Int32) (typeArgs : List Ty) (type : Ty) : Call :=
  ⟨operator, .count, typeArgs, [.query q, .constant (.int n) .int], type⟩

/-- The call of an operator that cuts them where a condition no longer holds. -/
def chosen (q : Query) (operator : Operator) (l : Lambda) (typeArgs : List Ty) (type : Ty) : Call :=
  ⟨operator, .predicate, typeArgs, [.query q, .function l], type⟩

/-- A place before the first item counts as the first one. -/
theorem run_take (hq : q.run = .ok (.sequence items)) :
    run (.call (q.counted .take n typeArgs type)) =
      .ok (.sequence (items.take n.toInt.toNat)) := by
  rw [counted, run_of_items rfl hq]
  rfl

theorem run_skip (hq : q.run = .ok (.sequence items)) :
    run (.call (q.counted .skip n typeArgs type)) =
      .ok (.sequence (items.drop n.toInt.toNat)) := by
  rw [counted, run_of_items rfl hq]
  rfl

theorem run_takeWhile (hq : q.run = .ok (.sequence items)) :
    run (.call (q.chosen .takeWhile l typeArgs type)) =
      (Each.takeWhile l.accepts items).map .sequence := by
  rw [chosen, run_of_items rfl hq]
  rfl

theorem run_skipWhile (hq : q.run = .ok (.sequence items)) :
    run (.call (q.chosen .skipWhile l typeArgs type)) =
      (Each.dropWhile l.accepts items).map .sequence := by
  rw [chosen, run_of_items rfl hq]
  rfl

end Query

/-! ### Sources -/

/-- Of a text that is blank nothing is left. -/
theorem Text.trim_of_isBlankText {s : String} (h : isBlankText s = true) : trim s = "" := by
  rw [trim, List.dropWhile_eq_nil_iff.mpr (List.all_eq_true.mp h)]
  rfl

namespace Source

open Signature TypePattern

variable {s s' : Source} {operator : Operator} {n : Int32} {text : String} {b : Bindings}

/-- The items of a source whose tree gives a list, or fails. -/
theorem toList_of_run {t : Ty} {q : Query} {r : QueryResult (List Value)}
    (hq : q.run = r.map .sequence) : toList ⟨t, q⟩ = r := by
  rw [toList, hq]
  cases r <;> rfl

/-- Any source may be cut at any place. -/
theorem build_counted (hop : operator = .take ∨ operator = .skip) (hs : s.Declared) :
    s.build operator .count [] [.int n] none =
      .ok (s.query.counted operator n [s.element] (.query s.element)) := by
  let sig : Signature := ⟨operator, .count, 1, [.query typeT, .concrete .int], .query typeT⟩
  have hacc : operator.accepts .count = true := by rcases hop with rfl | rfl <;> rfl
  have hks : s.constantArguments operator .count [.int n] = .ok [.constant (.int n) .int] := rfl
  refine build_of_resolve sig hacc rfl rfl hks ?_
  rw [resolve, overloads_counting hop]
  refine firstFit_of_only id (List.mem_singleton_self sig) (check_of_admits rfl ?_ rfl)
    fun _ hm _ _ => List.mem_singleton.mp hm
  simp [sig, typeT, Admits, instantiate?, Argument.type, hs.assignable, Ty.assignable]

theorem deriveWith_counted (hop : operator = .take ∨ operator = .skip) (hs : s.Declared) :
    s.deriveWith operator (.int n) =
      .ok ⟨s.element, .call (s.query.counted operator n [s.element] (.query s.element))⟩ := by
  have hlazy : operator.execution = .lazy := by rcases hop with rfl | rfl <;> rfl
  have hshape : operator.constantShape? = some .count := by rcases hop with rfl | rfl <;> rfl
  have hcall : s.constantCall operator (.int n) =
      .ok (s.query.counted operator n [s.element] (.query s.element)) := by
    rw [constantCall, hshape]
    exact build_counted hop hs
  rw [deriveWith, Operator.expect, if_pos hlazy, hcall]
  exact deriveCall_of_query hlazy rfl

/-- A blank text is no condition. -/
theorem not_derive_of_blank (hop : operator = .takeWhile ∨ operator = .skipWhile)
    (h : Text.isBlankText text = true) : s.derive operator (some text) b ≠ .ok s' := by
  have hshape : operator.expressionShape? = some .predicate := by rcases hop with rfl | rfl <;> rfl
  have htakes : operator.takesBlank = false := by rcases hop with rfl | rfl <;> rfl
  have hfunction : ∀ argument, operator.functionOf argument (some s) [s.element] (some text) b =
      .error (.missingExpression operator argument) := by
    intro argument
    rw [Operator.functionOf, Option.map_some, Text.trim_of_isBlankText h]
    rfl
  intro hd
  obtain ⟨-, -, hd⟩ := bind_eq_ok.mp hd
  obtain ⟨c, hc, -⟩ := bind_eq_ok.mp hd
  rw [expressionCall, htakes, Bool.false_and, if_neg Bool.false_ne_true, hshape] at hc
  obtain ⟨l, hl, -⟩ := bind_eq_ok.mp hc
  cases (hfunction _).symm.trans hl

/-- A source is cut by the condition of a text when the text compiles to one. -/
theorem derive_chosen_iff (hop : operator = .takeWhile ∨ operator = .skipWhile) (hs : s.Declared) :
    s.derive operator (some text) b = .ok s' ↔
      ∃ l, Compiles text [s.element] b l ∧ l.returns = .bool ∧
        s' = ⟨s.element, .call (s.query.chosen operator l [s.element] (.query s.element))⟩ := by
  have hshape : operator.expressionShape? = some .predicate := by rcases hop with rfl | rfl <;> rfl
  have hadjust : ∀ l, operator.adjust l = .ok l := by
    rcases hop with rfl | rfl <;> exact fun _ => rfl
  have hlazy : operator.execution = .lazy := by rcases hop with rfl | rfl <;> rfl
  have hacc : operator.accepts .predicate = true := by rcases hop with rfl | rfl <;> rfl
  have hfilter : operator = .filter ∨ operator = .takeWhile ∨ operator = .skipWhile := .inr hop
  by_cases ht : Text.isBlankText text = true
  · refine ⟨fun h => absurd h (not_derive_of_blank hop ht), ?_⟩
    rintro ⟨l, hl, -⟩
    cases ht.symm.trans hl.nonblank
  have ht : Text.isBlankText text = false := Bool.eq_false_iff.mpr ht
  rw [derive_of_text hshape hadjust hlazy ht, bind_eq_ok]
  refine exists_congr fun l => ?_
  rw [mapError_eq_ok, bind_eq_ok]
  constructor
  · rintro ⟨hl, c, hc, hd⟩
    have hcompiles : Compiles text [s.element] b l := ⟨ht, hl⟩
    obtain ⟨hbool, rfl⟩ := (build_predicate_iff hs hcompiles.paramTypes hacc
      (overloads_filtering hfilter) rfl).mp hc
    rw [deriveCall_of_query hlazy rfl] at hd
    exact ⟨hcompiles, hbool, (Except.ok.inj hd).symm⟩
  · rintro ⟨hl, hbool, rfl⟩
    refine ⟨hl.compiled, _, (build_predicate_iff hs hl.paramTypes hacc
      (overloads_filtering hfilter) rfl).mpr ⟨hbool, rfl⟩, deriveCall_of_query hlazy rfl⟩

theorem isOk_derive_chosen_iff (hop : operator = .takeWhile ∨ operator = .skipWhile)
    (hs : s.Declared) :
    (s.derive operator (some text) b).isOk = true ↔
      ∃ l, Compiles text [s.element] b l ∧ l.returns = .bool := by
  simp only [isOk_iff, derive_chosen_iff hop hs]
  constructor
  · rintro ⟨_, l, hl, hbool, -⟩
    exact ⟨l, hl, hbool⟩
  · rintro ⟨l, hl, hbool⟩
    exact ⟨_, l, hl, hbool, rfl⟩

/-- **Both pairs of operators part the items of a source.**  `Take` and `Skip` with the same number,
negative or larger than the number of items as it may be, are there over every source and fail over
none that gives its items: what they give makes up the list, cut behind that many items.  What
`TakeWhile` and `SkipWhile` give is how the condition parts the list, and for neither is it asked
past the first item for which it does not hold or fails.  A text is a condition for both or for
neither. -/
theorem partitioning :
    (∀ (s : Source) (xs : List Value) (n : Int32), s.Declared → s.query.run = .ok (.sequence xs) →
      ∃ front back before behind, s.take n = .ok front ∧ s.skip n = .ok back ∧
        front.toList = .ok before ∧ back.toList = .ok behind ∧ before ++ behind = xs ∧
        before.length = Nat.min n.toInt.toNat xs.length) ∧
    (∀ (q : Query) (l : Lambda) (xs : List Value) (typeArgs : List Ty) (type : Ty),
      q.run = .ok (.sequence xs) →
        ∃ asked before behind, Each.Parted l.accepts xs asked before behind ∧
          Each.Asks l.accepts xs asked ∧
          Query.run (.call (q.chosen .takeWhile l typeArgs type)) = before.map .sequence ∧
          Query.run (.call (q.chosen .skipWhile l typeArgs type)) = behind.map .sequence) ∧
    ∀ (s : Source) (xs : List Value) (text : String) (b : Bindings), s.Declared →
      s.query.run = .ok (.sequence xs) →
        (s.takeWhile text b).isOk = (s.skipWhile text b).isOk ∧
        ∀ front back, s.takeWhile text b = .ok front → s.skipWhile text b = .ok back →
          ∃ l asked, Compiles text [s.element] b l ∧
            Each.Parted l.accepts xs asked front.toList back.toList ∧
            Each.Asks l.accepts xs asked := by
  refine ⟨fun s xs n hs hxs => ?_, fun q l xs typeArgs type hxs => ?_,
    fun s xs text b hs hxs => ⟨?_, fun front back hfront hback => ?_⟩⟩
  · refine ⟨_, _, _, _, deriveWith_counted (.inl rfl) hs, deriveWith_counted (.inr rfl) hs,
      toList_of_run (r := .ok _) (Query.run_take hxs),
      toList_of_run (r := .ok _) (Query.run_skip hxs), List.take_append_drop .., ?_⟩
    exact List.length_take ..
  · obtain ⟨asked, hparted, hasks⟩ := Each.parted l.accepts xs
    exact ⟨asked, _, _, hparted, hasks, Query.run_takeWhile hxs, Query.run_skipWhile hxs⟩
  · rw [Bool.eq_iff_iff, takeWhile, skipWhile, isOk_derive_chosen_iff (.inl rfl) hs,
      isOk_derive_chosen_iff (.inr rfl) hs]
  · obtain ⟨l, hl, -, rfl⟩ := (derive_chosen_iff (.inl rfl) hs).mp hfront
    obtain ⟨l', hl', -, rfl⟩ := (derive_chosen_iff (.inr rfl) hs).mp hback
    obtain rfl := Except.ok.inj (hl.compiled.symm.trans hl'.compiled)
    obtain ⟨asked, hparted, hasks⟩ := Each.parted l.accepts xs
    refine ⟨l, asked, hl, ?_, hasks⟩
    rw [toList_of_run (Query.run_takeWhile hxs), toList_of_run (Query.run_skipWhile hxs)]
    exact hparted

/-- A place before the first item, and a condition that holds for the first item and fails for the
second: it is not asked for the third. -/
theorem partitioning_ints :
    let xs := [Value.int 3, .int 0, .int 1]
    let s : Source := ⟨.int, .root .int xs⟩
    (∃ front back before behind, s.take (-1) = .ok front ∧ s.skip (-1) = .ok back ∧
      front.toList = .ok before ∧ back.toList = .ok behind ∧ before ++ behind = xs ∧
      before.length = 0) ∧
    ∃ front back l, s.takeWhile "x => 6 / x > 1" .empty = .ok front ∧
      s.skipWhile "x => 6 / x > 1" .empty = .ok back ∧
      Compiles "x => 6 / x > 1" [.int] .empty l ∧
      front.toList = .error (.evaluation .divideByZero) ∧
      Each.Parted l.accepts xs [.int 3, .int 0] front.toList back.toList := by
  intro xs s
  obtain ⟨hcounts, -, htexts⟩ := partitioning
  have hs : s.Declared := rfl
  have hxs : s.query.run = .ok (.sequence xs) := Query.run_root ..
  let l : Lambda := .ofBody 0 [("x", .int)]
    (.binary .greater (.binary .divide (.constant (.int 6) .int) (.parameter 0 .int) .int)
      (.constant (.int 1) .int) .bool)
  have htrim : Text.trim "x => 6 / x > 1" = "x => 6 / x > 1" := by cbv
  have hparse : Term.parse "x => 6 / x > 1" = .ok (.lambda ["x"]
      (.binary .greater (.binary .divide (.integer 6) (.name "x")) (.integer 1))) := by cbv
  have hcompile : Lambda.compile "x => 6 / x > 1" [.int] .empty = .ok l := by
    rw [Lambda.compile, hparse]
    rfl
  have hblank : Text.isBlankText "x => 6 / x > 1" = false := rfl
  have hcompiles : Compiles "x => 6 / x > 1" [.int] .empty l :=
    ⟨hblank, by rw [htrim, hcompile]⟩
  have hfront := (derive_chosen_iff (.inl rfl) hs).mpr ⟨l, hcompiles, rfl, rfl⟩
  have hback := (derive_chosen_iff (.inr rfl) hs).mpr ⟨l, hcompiles, rfl, rfl⟩
  obtain ⟨l', asked, hcompiles', hparted, hasks⟩ :=
    (htexts s xs _ .empty hs hxs).2 _ _ hfront hback
  obtain rfl := Except.ok.inj (hcompiles.compiled.symm.trans hcompiles'.compiled)
  have hnoted : (Each.takeWhile (Each.noting l.accepts) xs).run [] =
      (.error (.evaluation .divideByZero), [.int 3, .int 0]) := rfl
  obtain ⟨-, rfl⟩ := Prod.mk.inj (hnoted.symm.trans (hasks []).1)
  refine ⟨hcounts s xs (-1) hs hxs, _, _, l, hfront, hback, hcompiles, ?_, hparted⟩
  exact toList_of_run (r := .error _) (Query.run_takeWhile hxs)

end Source

end LambdaQuery
