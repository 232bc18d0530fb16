/-
**Fused forms.**  An eager operator that takes a condition gives the same as a filter with the
condition followed by the operator without one, and an operator that takes a selector gives the same
as a projection by the selector followed by the operator without one.  The two ways go through
different overloads and different type arguments, yet the same calls are accepted, and what is
accepted gives the same value or the same error.

Main definitions:
* `Operator.choosers`, `Operator.totals` — the operators with an optional condition, and those with
  an optional selector;
* `Call.Agree`, `Source.Fuses` — two ways to a call agree; an operator with an expression agrees
  with its form without one over the next source.

Main results:
* `Source.computeCall_over_step` — an operator that first does what a step does runs like the
  operator over the step;
* `Source.Fuses.of_agree` — two ways agree if they do for every function of elements;
* `Source.fused_forms` — **the fused forms agree with the unfused ones**.
-/

import LambdaQuery.Proofs.CallAcceptance
import LambdaQuery.Proofs.QuerySoundness

namespace LambdaQuery

/-! ### Runs over one step more -/

section Runs

variable {operator via : Operator} {shape viaShape : Shape} {typeArgs viaArgs : List Ty} {q : Query}
  {rest viaRest : List Argument} {type viaType : Ty} {f : List Value → QueryResult (List Value)}

theorem Argument.itemsAt_source {index : Nat} :
    itemsAt operator index (.query q :: rest) 0 = q.run >>= Value.asItems := by
  rw [itemsAt]

/-- The items of a call that makes its list of the items of its own source. -/
theorem Query.run_step (hvia : via.isSingle = true)
    (hf : ∀ items, Call.onItems ⟨via, viaShape, viaArgs, .query q :: viaRest, viaType⟩ items =
      f items >>= fun values => pure (.sequence values)) :
    Query.run (.call ⟨via, viaShape, viaArgs, .query q :: viaRest, viaType⟩) >>= Value.asItems =
      (q.run >>= Value.asItems) >>= f := by
  rw [run_onItems hvia, Argument.itemsAt_source, bind_assoc]
  congr 1
  funext items
  rw [hf, bind_assoc]
  exact bind_pure (f items)

/-- An operator that first does to the items of its source what a step does runs like the operator
over that step. -/
theorem Source.computeCall_over_step {laterArgs : List Ty} (hop : operator.isSingle = true)
    (hvia : via.isSingle = true)
    (hf : ∀ items, Call.onItems ⟨via, viaShape, viaArgs, .query q :: viaRest, viaType⟩ items =
      f items >>= fun values => pure (.sequence values))
    (hitems : ∀ items later,
      Call.onItems ⟨operator, shape, typeArgs, .query q :: rest, type⟩ items =
        f items >>= Call.onItems ⟨operator, .none, laterArgs, [.query later], type⟩) :
    computeCall ⟨operator, shape, typeArgs, .query q :: rest, type⟩ =
      computeCall ⟨operator, .none, laterArgs,
        [.query (.call ⟨via, viaShape, viaArgs, .query q :: viaRest, viaType⟩)], type⟩ := by
  rw [computeCall, computeCall]
  congr 1
  funext _
  rw [Query.run_onItems hop, Query.run_onItems hop, Argument.itemsAt_source,
    Argument.itemsAt_source, Query.run_step hvia hf, bind_assoc (q.run >>= Value.asItems)]
  congr 1
  funext items
  exact hitems items _

end Runs

/-! ### Two ways to a value -/

namespace Operator

/-- The operators that take a condition if they are given one. -/
def choosers : List Operator :=
  [.count, .longCount, .any, .first, .firstOrDefault, .single, .singleOrDefault, .last,
    .lastOrDefault]

/-- The operators that take a selector if they are given one. -/
def totals : List Operator := [.sum, .average, .min, .max]

end Operator

/-- Two ways to the call of an eager operator agree: one is refused when the other is, and if none
is, both calls give the same value or fail with the same error. -/
structure Call.Agree (r r' : QueryResult Call) : Prop where
  refused : r.isOk = r'.isOk
  outcome : r.isOk = true → r >>= Source.computeCall = r' >>= Source.computeCall

/-- Two ways agree that lead under the same condition to calls that run alike. -/
theorem Call.Agree.of_iff {r r' : QueryResult Call} {accepted : Prop} {fused unfused : Call}
    (h : ∀ c, r = .ok c ↔ accepted ∧ c = fused) (h' : ∀ c, r' = .ok c ↔ accepted ∧ c = unfused)
    (hrun : Source.computeCall fused = Source.computeCall unfused) : Agree r r' := by
  refine ⟨?_, ?_⟩
  · rw [Bool.eq_iff_iff, isOk_iff, isOk_iff]
    simp [h, h']
  · intro hok
    obtain ⟨c, hc⟩ := isOk_iff.mp hok
    have ha := ((h c).mp hc).1
    rw [(h fused).mpr ⟨ha, rfl⟩, (h' unfused).mpr ⟨ha, rfl⟩]
    exact hrun

namespace Source

variable {s : Source} {operator via : Operator} {shape viaShape : Shape} {text : String}
  {b b' : Bindings} {blank : Option String}

/-- An operator with an expression agrees with its form without one over the next source, which a
lazy operator makes with the same expression.  One way is refused before anything runs when the
other is; if none is, both give the same value or fail with the same error. -/
structure Fuses (s : Source) (operator : Operator) (text : String) (b : Bindings)
    (next : QueryResult Source) (blank : Option String) (b' : Bindings) : Prop where
  refused : (s.expressionCall operator (some text) b).isOk =
    (next >>= fun s' => s'.expressionCall operator blank b').isOk
  outcome : (s.expressionCall operator (some text) b).isOk = true →
    s.compute operator (some text) b = next >>= fun s' => s'.compute operator blank b'

/-- The two ways agree if they do for every function of elements. -/
theorem Fuses.of_agree (hop : operator.expressionShape? = some shape)
    (hadjust : ∀ l, operator.adjust l = .ok l) (heager : operator.execution = .eager)
    (htakes : operator.takesBlank = true) (hvia : via.expressionShape? = some viaShape)
    (hviaAdjust : ∀ l, via.adjust l = .ok l) (hlazy : via.execution = .lazy)
    (ht : Text.isBlankText text = false) (hblank : isBlankExpression blank = true)
    (hcalls : ∀ l : Lambda, l.paramTypes = [s.element] →
      Call.Agree (s.build operator shape [l] [] none)
        (s.build via viaShape [l] [] none >>= deriveCall >>= fun s' =>
          s'.build operator .none [] [] none)) :
    s.Fuses operator text b (s.derive via (some text) b) blank b' := by
  have hcompute : ∀ (s : Source) (t : Option String) (b : Bindings),
      s.compute operator t b = s.expressionCall operator t b >>= computeCall := by
    intro s t b
    rw [compute, Operator.expect, if_pos heager]
    rfl
  have hlater : ∀ s' : Source,
      s'.expressionCall operator blank b' = s'.build operator .none [] [] none :=
    fun _ => expressionCall_of_blank htakes hblank
  have hfused := expressionCall_of_text (s := s) (b := b) hop hadjust ht
  have hnext := derive_of_text (s := s) (b := b) hvia hviaAdjust hlazy ht
  cases hl : Lambda.compile (Text.trim text) [s.element] b with
  | error e =>
      rw [hl] at hfused hnext
      refine ⟨?_, ?_⟩
      · rw [hfused, hnext]
        rfl
      · intro hok
        rw [hfused] at hok
        cases hok
  | ok l =>
      rw [hl] at hfused hnext
      obtain ⟨hrefused, houtcome⟩ := hcalls l (Lambda.compile_typed_any hl).2.1
      refine ⟨?_, ?_⟩
      · simp only [hlater, hnext]
        rw [hfused]
        exact hrefused
      · intro hok
        simp only [hcompute, hlater]
        rw [hfused] at hok ⊢
        rw [hnext]
        exact (houtcome hok).trans (bind_assoc ..)

/-- The second way leads over the source of the step. -/
theorem over_step_iff {r : QueryResult Call} {accepted : Prop} {step c : Call} {next : Source}
    {later : Source → QueryResult Call} (hr : ∀ c, r = .ok c ↔ accepted ∧ c = step)
    (hnext : deriveCall step = .ok next) :
    (r >>= deriveCall >>= later) = .ok c ↔ accepted ∧ later next = .ok c := by
  constructor
  · intro h
    obtain ⟨s', hs', hc⟩ := bind_eq_ok.mp h
    obtain ⟨c', hc', hd⟩ := bind_eq_ok.mp hs'
    obtain ⟨ha, rfl⟩ := (hr c').mp hc'
    cases hnext.symm.trans hd
    exact ⟨ha, hc⟩
  · rintro ⟨ha, hc⟩
    exact bind_eq_ok.mpr ⟨next, bind_eq_ok.mpr ⟨step, (hr step).mpr ⟨ha, rfl⟩, hnext⟩, hc⟩

section Ways

open Signature

variable {l : Lambda} (hs : s.Declared) (hl : l.paramTypes = [s.element])

include hs hl

/-- A condition given to an operator, and a filter with the condition before it. -/
theorem chooser_agree {r : Ty} (hop : operator.chosenType s.element = some r) :
    Call.Agree (s.build operator .predicate [l] [] none)
      (s.build .filter .predicate [l] [] none >>= deriveCall >>= fun s' =>
        s'.build operator .none [] [] none) := by
  have hsingle : operator.isSingle = true := by
    cases operator <;> first | rfl | cases hop
  let step : Call := ⟨.filter, .predicate, [s.element], [.query s.query, .function l],
    .query s.element⟩
  have hstep : ∀ c, s.build .filter .predicate [l] [] none = .ok c ↔ l.returns = .bool ∧ c = step :=
    fun c => build_predicate_iff hs hl rfl rfl rfl
  have hnext : deriveCall step = .ok ⟨s.element, .call step⟩ := deriveCall_of_query rfl rfl
  refine Call.Agree.of_iff (fun c => build_chosenWhere_iff hs hl hop)
    (fun c => (over_step_iff hstep hnext).trans (and_congr_right fun _ =>
      build_chosen_iff (deriveCall_declared hnext) hop)) ?_
  refine computeCall_over_step hsingle rfl (f := Each.keep l.accepts) (fun items => rfl) ?_
  intro items later
  cases operator <;> first | rfl | cases hop

/-- A selector given to an operator, and a projection by it before the operator, if both lead under
the same condition to calls of one type. -/
theorem total_agree_of_iff (typeArgs laterArgs : List Ty) (r : Ty) (accepted : Prop)
    (hop : operator ∈ Operator.totals)
    (hfused : ∀ c, s.build operator .selector [l] [] none = .ok c ↔
      accepted ∧ c = ⟨operator, .selector, typeArgs, [.query s.query, .function l], r⟩)
    (hlater : ∀ c, build ⟨l.returns, .call (s.projection l)⟩ operator .none [] [] none = .ok c ↔
      accepted ∧ c = ⟨operator, .none, laterArgs, [.query (.call (s.projection l))], r⟩) :
    Call.Agree (s.build operator .selector [l] [] none)
      (s.build .select .selector [l] [] none >>= deriveCall >>= fun s' =>
        s'.build operator .none [] [] none) := by
  have hstep : ∀ c, s.build .select .selector [l] [] none = .ok c ↔ True ∧ c = s.projection l :=
    fun c => by rw [build_select_iff hs hl, true_and]
  have hunfused : ∀ c, (s.build .select .selector [l] [] none >>= deriveCall >>= fun s' =>
      s'.build operator .none [] [] none) = .ok c ↔
        accepted ∧ c = ⟨operator, .none, laterArgs, [.query (.call (s.projection l))], r⟩ := by
    intro c
    rw [over_step_iff hstep (deriveCall_of_query rfl rfl), true_and]
    exact hlater c
  refine Call.Agree.of_iff hfused hunfused ?_
  simp only [Operator.totals, List.mem_cons, List.not_mem_nil, or_false] at hop
  refine computeCall_over_step ?_ rfl (f := Each.map fun v => l.on [v]) (fun _ => rfl) ?_
  · rcases hop with rfl | rfl | rfl | rfl <;> rfl
  · rcases hop with rfl | rfl | rfl | rfl <;> exact fun _ _ => rfl

/-- A selector given to a sum or a mean, and a projection by it before them: either way the selector
has to return numbers. -/
theorem total_agree (hop : operator = .sum ∨ operator = .average) :
    Call.Agree (s.build operator .selector [l] [] none)
      (s.build .select .selector [l] [] none >>= deriveCall >>= fun s' =>
        s'.build operator .none [] [] none) := by
  have hmem : operator ∈ Operator.totals := by
    rcases hop with rfl | rfl <;> decide
  exact total_agree_of_iff hs hl [s.element] [] _ (l.returns ∈ numbers) hmem
    (fun c => build_totalOf_iff hs hl hop)
    fun c => build_total_iff hop fun _ _ => Ty.query_assignable_iff

/-- A selector given to `Min` or `Max`, and a projection by it before them. -/
theorem extreme_agree (hop : operator = .min ∨ operator = .max) :
    Call.Agree (s.build operator .selector [l] [] none)
      (s.build .select .selector [l] [] none >>= deriveCall >>= fun s' =>
        s'.build operator .none [] [] none) := by
  have hmem : operator ∈ Operator.totals := by
    rcases hop with rfl | rfl <;> decide
  have hnext : deriveCall (s.projection l) = .ok ⟨l.returns, .call (s.projection l)⟩ :=
    deriveCall_of_query rfl rfl
  refine total_agree_of_iff hs hl [s.element, l.returns] [l.returns] l.returns True hmem
    (fun c => ?_) fun c => ?_
  · rw [build_extremeOf_iff hs hl hop, true_and]
  · rw [build_extreme_iff (deriveCall_declared hnext) hop, true_and]

end Ways

/-- **The fused forms agree with the unfused ones**, over every source and with every text that is
not blank: a condition given to an operator does the same as a filter before it, and a selector the
same as a projection before it. -/
theorem fused_forms (hs : s.Declared) (text : String) (ht : Text.isBlankText text = false)
    (b : Bindings) (blank : Option String) (hblank : isBlankExpression blank = true)
    (b' : Bindings) :
    (∀ operator ∈ Operator.choosers, s.Fuses operator text b (s.filter text b) blank b') ∧
      ∀ operator ∈ Operator.totals, s.Fuses operator text b (s.select text b) blank b' := by
  refine ⟨fun operator hop => ?_, fun operator hop => ?_⟩
  · have hchosen : ∃ r, operator.chosenType s.element = some r := by
      simp only [Operator.choosers, List.mem_cons, List.not_mem_nil, or_false] at hop
      rcases hop with rfl | rfl | rfl | rfl | rfl | rfl | rfl | rfl | rfl <;> exact ⟨_, rfl⟩
    obtain ⟨r, hr⟩ := hchosen
    have hshape : operator.expressionShape? = some .predicate ∧ operator.takesBlank = true := by
      cases operator <;> first | exact ⟨rfl, rfl⟩ | cases hr
    have hadjust : ∀ l, operator.adjust l = .ok l := by
      cases operator <;> first | exact fun _ => rfl | cases hr
    exact .of_agree hshape.1 hadjust (Operator.execution_of_chosenType hr) hshape.2 rfl
      (fun _ => rfl) rfl ht hblank fun l hl => chooser_agree hs hl hr
  · simp only [Operator.totals, List.mem_cons, List.not_mem_nil, or_false] at hop
    have hshape : operator.expressionShape? = some .selector ∧ operator.takesBlank = true ∧
        operator.execution = .eager := by
      rcases hop with rfl | rfl | rfl | rfl <;> exact ⟨rfl, rfl, rfl⟩
    have hadjust : ∀ l, operator.adjust l = .ok l := by
      rcases hop with rfl | rfl | rfl | rfl <;> exact fun _ => rfl
    refine .of_agree hshape.1 hadjust hshape.2.2 hshape.2.1 rfl (fun _ => rfl) rfl ht hblank
      fun l hl => ?_
    rcases hop with hop | hop | hop | hop
    · exact total_agree hs hl (.inl hop)
    · exact total_agree hs hl (.inr hop)
    · exact extreme_agree hs hl (.inl hop)
    · exact extreme_agree hs hl (.inr hop)

set_option maxRecDepth 1000 in
/-- The numbers above a bound one, counted either way, and the sum of the numbers doubled. -/
theorem fused_forms_doubled :
    let b : Bindings := { Bindings.empty with values := [.int 2] }
    ∃ s : Source, s.Declared ∧
      (s.expressionCall .count (some "x => x > @0") b).isOk = true ∧
      s.compute .count (some "x => x > @0") b =
        (s.filter "x => x > @0" b >>= fun s' => s'.compute .count none .empty) ∧
      (s.expressionCall .sum (some "x => x + x") b).isOk = true ∧
      s.compute .sum (some "x => x + x") b =
        (s.select "x => x + x" b >>= fun s' => s'.compute .sum (some " ") .empty) := by
  intro b
  let s : Source := ⟨.int, .root .int [.int 1, .int 2, .int 3]⟩
  have hs : s.Declared := rfl
  have hcount : (s.expressionCall .count (some "x => x > @0") b).isOk = true := by
    rw [expressionCall_of_text rfl (fun _ => rfl) (by decide)]
    cbv
  have hsum : (s.expressionCall .sum (some "x => x + x") b).isOk = true := by
    rw [expressionCall_of_text rfl (fun _ => rfl) (by decide)]
    cbv
  have hcounts := (fused_forms hs "x => x > @0" (by decide) b none rfl .empty).1 .count
    (by decide)
  have hsums := (fused_forms hs "x => x + x" (by decide) b (some " ") (by decide) .empty).2 .sum
    (by decide)
  exact ⟨s, hs, hcount, hcounts.outcome hcount, hsum, hsums.outcome hsum⟩

end Source

end LambdaQuery
