/-
**Methods and operators agree.**  The operators of queries come twice: as operators on a source, and
as methods of a list in lambda text.  The two have different rules of typing and run in different
ways, and the function that a method is given is compiled behind the parameter of the literal around
it.  Where both are accepted they give the same value, or fail with what is the same error once the
errors of lambda text count as errors of queries.

Main definitions:
* `CollectionMethod.operator?` — the operator that goes by the name of a method;
* `Operator.callType` — the type of the call of an operator whose method has a type;
* `Source.answer` — what an operator with an expression gives: a value, or the elements of a new
  source as a value.

Main results:
* `Call.onItems_bare`, `Call.onItems_function` — **the operators do to items what the methods do**;
* `Source.bare_call`, `Source.function_call` — the call of an operator, with the type that the
  method has;
* `Source.answer_of_call` — what a built call over values gives;
* `Lambda.compile_method`, `Lambda.compile_bareMethod` — the literal of a method call, whose inner
  literal is the function of the operator with its slots moved up;
* `Source.method_agrees` — **a method of a list gives what the operator gives over its values**.
-/

import LambdaQuery.Proofs.ClosedReading
import LambdaQuery.Proofs.Equality
import LambdaQuery.Proofs.FusedForms
import LambdaQuery.Proofs.Relocation

namespace LambdaQuery

/-! ### Methods by their operators -/

/-- The operator that goes by the name of the method, if there is one with an expression. -/
def CollectionMethod.operator? : CollectionMethod → Option Operator
  | count => some .count
  | longCount => some .longCount
  | any => some .any
  | all => some .all
  | sum => some .sum
  | average => some .average
  | min => some .min
  | max => some .max
  | first => some .first
  | firstOrDefault => some .firstOrDefault
  | last => some .last
  | lastOrDefault => some .lastOrDefault
  | filter => some .filter
  | select => some .select
  | distinct => some .distinct
  | contains | toList => none

/-- The type of the call of an operator whose method gives a value of the type: what is a sequence
as a value is a query as a call. -/
def Operator.callType (operator : Operator) (r : Ty) : Ty :=
  match operator.execution, r.element? with
  | .lazy, some element => .query element
  | _, _ => r

theorem Operator.callType_of_eager {operator : Operator} (h : operator.execution = .eager)
    (r : Ty) : operator.callType r = r := by
  rw [callType, h]

namespace CollectionMethod

variable {m : CollectionMethod} {operator : Operator} {element r t : Ty}

theorem isName_name (m : CollectionMethod) : isName m.name = true := by cases m <;> decide

/-- Given one argument the method takes it as a function, if at all. -/
theorem argument_cases (hm : m.operator? = some operator) :
    m.argument? 1 = none ∨ m.argument? 1 = some .predicate ∨ m.argument? 1 = some .selector := by
  cases m <;> cases hm <;> decide

/-- A method that is accepted with a function has it in its expression as it is. -/
theorem withFunction_eq_ok {source e : Expr} {function : Lambda}
    (h : m.withFunction source element function = .ok e) :
    ∃ r, m.resultType element function.returns = .ok r ∧
      e = .collection m source (some function) none r := by
  have parts (h : (m.resultType element function.returns >>= fun r =>
      pure (Expr.collection m source (some function) none r)) = .ok e) :
      ∃ r, m.resultType element function.returns = .ok r ∧
        e = .collection m source (some function) none r := by
    obtain ⟨r, hr, he⟩ := bind_eq_ok.mp h
    exact ⟨r, hr, (pure_eq_ok.mp he).symm⟩
  rw [withFunction] at h
  split at h
  · obtain ⟨_, -, h⟩ := bind_eq_ok.mp h
    exact parts h
  · exact parts h

theorem takesBlank_of_argument (hm : m.operator? = some operator)
    (ha : (m.argument? 0).isSome = true) : operator.takesBlank = true := by
  cases m <;> cases hm <;> first | rfl | cases ha

/-! ### Types -/

/-- A value of chosen elements has one type as a method and as an operator. -/
theorem resultType_chosen (hm : m.operator? = some operator)
    (hop : operator.chosenType element = some t) (v : Ty) :
    m.resultType element v = .ok t := by
  cases m <;> cases hm <;> cases hop <;> rfl

/-- So has a sum or a mean. -/
theorem resultType_total (hm : m.operator? = some operator)
    (hop : operator = .sum ∨ operator = .average) {n : Ty} (h : m.resultType element n = .ok r) :
    r = (operator.totalType n).getD n := by
  cases m <;> cases hm <;> simp at hop
  all_goals
    simp only [resultType, numericResult] at h
    split at h
    · cases h
      rfl
    · cases h

end CollectionMethod

/-! ### The same items -/

/-- The error of a collection in lambda text is the one that it is in a query. -/
theorem mapError_collection {α : Type} (r : Except CollectionError α) :
    (r.mapError EvalError.collection).mapError QueryError.ofEval = ofCollection r := by
  cases r <;> rfl

namespace Lambda

variable {l : Lambda}

/-- What a literal computes from an empty frame, as a condition of a method, is the literal as a
condition of an operator. -/
theorem condition_call :
    (fun v => (CollectionMethod.condition (fun v => l.call [v]) v).mapError QueryError.ofEval) =
      l.accepts := by
  have hholds (v : Value) : l.holds v = CollectionMethod.condition (fun v => l.call [v]) v := by
    rw [holds, test, run_bind, CollectionMethod.condition, call]
    obtain ⟨r, frame⟩ := (l.invoke [v]).run []
    cases r with
    | error e => rfl
    | ok w =>
        show ((liftResult w.asCondition : Run Bool).run frame).1 = liftResult w.asCondition
        cases w.asCondition <;> rfl
  funext v
  rw [accepts, hholds]

/-- What a method keeps of the items is what an operator keeps. -/
theorem prepare_narrows {m : CollectionMethod} (hm : m.narrows = true) (items : List Value) :
    (m.prepare items (some fun v => l.call [v])).mapError .ofEval = Each.keep l.accepts items := by
  rw [CollectionMethod.prepare, if_pos hm, Each.keep_mapError, condition_call]

/-- What a method computes from the items is what an operator computes. -/
theorem prepare_projects {m : CollectionMethod} (hm : m.projects = true) (items : List Value) :
    (m.prepare items (some fun v => l.call [v])).mapError .ofEval =
      Each.map (fun v => l.on [v]) items := by
  have hn : m.narrows = false := by cases m <;> first | rfl | cases hm
  rw [CollectionMethod.prepare, hn, if_neg Bool.false_ne_true, if_pos hm, Each.map_mapError]
  rfl

end Lambda

namespace Call

variable {m : CollectionMethod} {operator : Operator} {element r t : Ty} {shape : Shape}
  {typeArgs : List Ty} {args : List Argument} {q : Query} {l : Lambda}

/-- What an operator gives of chosen elements is what the method concludes from them. -/
theorem choose_eq_conclude {chosen : Ty} (hm : m.operator? = some operator)
    (hop : operator.chosenType element = some chosen) (items : List Value) :
    choose ⟨operator, shape, element :: typeArgs, args, t⟩ items =
      (m.conclude items none element r).mapError .ofEval := by
  have htype : typeArg ⟨operator, shape, element :: typeArgs, args, t⟩ 0 = pure element := rfl
  rw [choose, htype, pure_bind]
  cases m <;> cases hm <;> cases hop
  case count | first | last => exact (mapError_collection _).symm
  all_goals rfl

/-- **An operator without a function does what the method does without one.** -/
theorem onItems_bare (hm : m.operator? = some operator) (ha : (m.argument? 0).isSome = true)
    (ht : operator.execution = .eager → t = r) (items : List Value) :
    onItems ⟨operator, .none, if operator.isNumeric then [] else [element], [.query q], t⟩ items =
      (m.apply items none none element r : Except EvalError Value).mapError .ofEval := by
  rw [CollectionMethod.apply_none_eq, pure_bind, liftResult_except]
  cases m <;> cases hm <;> cases ha <;> first | obtain rfl := ht rfl | skip
  case distinct => rfl
  case sum | average | min | max => exact (mapError_collection _).symm
  all_goals exact choose_eq_conclude rfl rfl items

/-- **An operator with a function does what the method does with it.** -/
theorem onItems_function (hm : m.operator? = some operator)
    (hshape : operator.expressionShape? = some shape) (ht : operator.execution = .eager → t = r)
    (items : List Value) :
    onItems ⟨operator, shape, element :: typeArgs, [.query q, .function l], t⟩ items =
      (m.apply items (some fun v => l.call [v]) none element r).mapError .ofEval := by
  have happly (hall : m ≠ .all) :
      (m.apply items (some fun v => l.call [v]) none element r).mapError .ofEval =
        (m.prepare items (some fun v => l.call [v])).mapError QueryError.ofEval >>= fun chosen =>
          (m.conclude chosen none element r).mapError .ofEval := by
    rw [CollectionMethod.apply_eq hall, bind_mapError]
    simp only [liftResult_except]
  cases m <;> cases hm <;> cases hshape <;> first | obtain rfl := ht rfl | skip
  case all =>
      -- the only method that asks its function itself
      show (Each.all l.accepts items >>= fun holds => pure (Value.bool holds)) = _
      rw [← Lambda.condition_call, ← Each.all_mapError]
      exact (bind_mapError _ (fun holds => pure (Value.bool holds)) _).symm
  case filter =>
      rw [happly (by decide), Lambda.prepare_narrows rfl]
      rfl
  case select =>
      rw [happly (by decide), Lambda.prepare_projects rfl]
      rfl
  case sum | average | min | max =>
      rw [happly (by decide), Lambda.prepare_projects rfl]
      exact congrArg (Each.map _ items >>= ·) (funext fun _ => (mapError_collection _).symm)
  all_goals
    rw [happly (by decide), Lambda.prepare_narrows rfl]
    exact congrArg (Each.keep _ items >>= ·) (funext fun kept => choose_eq_conclude rfl rfl kept)

end Call

/-! ### The same calls -/

namespace Source

open Signature

variable {s : Source} {m : CollectionMethod} {operator : Operator} {shape : Shape} {r : Ty}
  {l : Lambda} {c : Call}

/-- The call of an operator without a function, for whose method there is a type as well. -/
theorem bare_call (hs : s.Declared) (hq : s.query.type = .query s.element)
    (hm : m.operator? = some operator) (ha : (m.argument? 0).isSome = true)
    (hr : m.resultType s.element s.element = .ok r)
    (h : s.build operator .none [] [] none = .ok c) :
    c = ⟨operator, .none, if operator.isNumeric then [] else [s.element], [.query s.query],
      operator.callType r⟩ := by
  have hchosen {t : Ty} (hop : operator.chosenType s.element = some t) :
      c = ⟨operator, .none, [s.element], [.query s.query], r⟩ := by
    obtain rfl : t = r :=
      Except.ok.inj ((CollectionMethod.resultType_chosen hm hop s.element).symm.trans hr)
    exact (build_chosen_iff hs hop).mp h
  have htotal (hop : operator = .sum ∨ operator = .average) :
      c = ⟨operator, .none, [], [.query s.query], r⟩ := by
    rw [CollectionMethod.resultType_total hm hop hr]
    exact ((build_total_iff hop fun _ _ => by rw [hq, Ty.query_assignable_iff]).mp h).2
  cases m <;> cases hm <;> cases ha
  case sum => exact htotal (.inl rfl)
  case average => exact htotal (.inr rfl)
  case min =>
      cases hr
      exact (build_extreme_iff hs (.inl rfl)).mp h
  case max =>
      cases hr
      exact (build_extreme_iff hs (.inr rfl)).mp h
  case distinct =>
      cases hr
      exact (build_none_iff hs rfl rfl (overloads_bare (.inl rfl)) rfl).mp h
  all_goals exact hchosen rfl

/-- The call of an operator with a function, likewise. -/
theorem function_call (hs : s.Declared) (hl : l.paramTypes = [s.element])
    (hm : m.operator? = some operator) (hshape : operator.expressionShape? = some shape)
    (hr : m.resultType s.element l.returns = .ok r)
    (h : s.build operator shape [l] [] none = .ok c) :
    ∃ typeArgs, c = ⟨operator, shape, s.element :: typeArgs, [.query s.query, .function l],
      operator.callType r⟩ := by
  have hchosen {t : Ty} (hop : operator.chosenType s.element = some t)
      (h : s.build operator .predicate [l] [] none = .ok c) :
      c = ⟨operator, .predicate, [s.element], [.query s.query, .function l], r⟩ := by
    obtain rfl : t = r :=
      Except.ok.inj ((CollectionMethod.resultType_chosen hm hop l.returns).symm.trans hr)
    exact ((build_chosenWhere_iff hs hl hop).mp h).2
  have htotal (hop : operator = .sum ∨ operator = .average)
      (h : s.build operator .selector [l] [] none = .ok c) :
      c = ⟨operator, .selector, [s.element], [.query s.query, .function l], r⟩ := by
    rw [CollectionMethod.resultType_total hm hop hr]
    exact ((build_totalOf_iff hs hl hop).mp h).2
  cases m <;> cases hm <;> cases hshape
  case sum => exact ⟨[], htotal (.inl rfl) h⟩
  case average => exact ⟨[], htotal (.inr rfl) h⟩
  case min =>
      cases hr
      exact ⟨_, (build_extremeOf_iff hs hl (.inl rfl)).mp h⟩
  case max =>
      cases hr
      exact ⟨_, (build_extremeOf_iff hs hl (.inr rfl)).mp h⟩
  case all =>
      cases hr
      exact ⟨_, ((build_predicate_iff hs hl rfl rfl rfl).mp h).2⟩
  case filter =>
      cases hr
      exact ⟨_, ((build_predicate_iff hs hl rfl rfl rfl).mp h).2⟩
  case select =>
      cases hr
      exact ⟨_, (build_select_iff hs hl).mp h⟩
  all_goals exact ⟨[], hchosen rfl h⟩

end Source

/-! ### Answers -/

/-- What an operator with an expression gives: the value of an eager operator, and the elements of
the source that a lazy one makes, as a value. -/
def Source.answer (s : Source) (operator : Operator) (text : Option String) (b : Bindings) :
    QueryResult Value :=
  match operator.execution with
  | .eager => s.compute operator text b
  | .lazy => do return .sequence (← (← s.derive operator text b).toList)

namespace Source

variable {s : Source} {m : CollectionMethod} {operator : Operator} {shape : Shape}
  {typeArgs : List Ty} {rest : List Argument} {t v r : Ty} {q : Query} {text : Option String}
  {b : Bindings} {items : List Value}

/-- The elements of a tree that gives nothing but sequences are what its run gives. -/
theorem toList_of_sequences (h : ∀ v, q.run = .ok v → ∃ values, v = .sequence values) :
    (toList ⟨t, q⟩ >>= fun values => pure (Value.sequence values)) = q.run := by
  rw [toList]
  cases hrun : q.run with
  | error e => rfl
  | ok v =>
      obtain ⟨values, rfl⟩ := h v hrun
      rfl

/-- A lazy operator with a method gives nothing but sequences. -/
theorem onItems_lazy (hm : m.operator? = some operator) (hlazy : operator.execution = .lazy)
    {w : Value} (h : Call.onItems ⟨operator, shape, typeArgs, rest, t⟩ items = .ok w) :
    ∃ values, w = .sequence values := by
  cases m <;> cases hm <;> cases hlazy
  case filter =>
      obtain ⟨_, -, h⟩ := bind_eq_ok.mp h
      obtain ⟨kept, -, h⟩ := bind_eq_ok.mp h
      exact ⟨kept, (pure_eq_ok.mp h).symm⟩
  case select =>
      obtain ⟨_, -, h⟩ := bind_eq_ok.mp h
      obtain ⟨images, -, h⟩ := bind_eq_ok.mp h
      exact ⟨images, (pure_eq_ok.mp h).symm⟩
  case distinct => exact ⟨_, (pure_eq_ok.mp h).symm⟩

/-- **A built call over values gives what its operator gives of these items.** -/
theorem answer_of_call (hm : m.operator? = some operator) (hr : m.resultType t v = .ok r)
    (hcall : expressionCall ⟨t, .root t items⟩ operator text b =
      .ok ⟨operator, shape, typeArgs, .query (.root t items) :: rest, operator.callType r⟩) :
    answer ⟨t, .root t items⟩ operator text b =
      Call.onItems ⟨operator, shape, typeArgs, .query (.root t items) :: rest,
        operator.callType r⟩ items := by
  have hsingle : operator.isSingle = true := by cases m <;> cases hm <;> rfl
  have hrun : Query.run (.call ⟨operator, shape, typeArgs, .query (.root t items) :: rest,
      operator.callType r⟩) = Call.onItems ⟨operator, shape, typeArgs,
        .query (.root t items) :: rest, operator.callType r⟩ items :=
    Query.run_of_items hsingle (Query.run_root t items)
  rw [answer]
  split
  · rename_i heager
    rw [compute, Operator.expect, if_pos heager, hcall]
    show computeCall _ = _
    rw [computeCall, Operator.expect, if_pos heager]
    exact hrun
  · rename_i hlazy
    have hquery : ∃ u, operator.callType r = .query u := by
      cases m <;> cases hm <;> cases hlazy <;> cases hr <;> exact ⟨_, rfl⟩
    obtain ⟨u, hu⟩ := hquery
    rw [derive, Operator.expect, if_pos hlazy, hcall]
    show (deriveCall _ >>= fun s' => toList s' >>= fun values => pure (Value.sequence values)) = _
    rw [deriveCall_of_query hlazy hu]
    refine (toList_of_sequences fun v hv => ?_).trans hrun
    rw [hrun] at hv
    exact onItems_lazy hm hlazy hv

end Source

/-! ### Literals of method calls -/

section Literals

variable {m : CollectionMethod} {t : Ty} {b : Bindings} {text : String}

/-- The scope in the body of the literal that a method is called in: its parameter is `s`. -/
def Scope.ofList (t : Ty) (b : Bindings) : Scope :=
  { bindings := b, params := [("s", .list t)], implicit := none }

/-- A method of `s` is the method of the list, whatever its arguments. -/
theorem Scope.term_methodCall (m : CollectionMethod) (args : List Term) :
    (Scope.ofList t b).term (.call (some (.name "s")) m.name args) =
      (Scope.ofList t b).collection m (.parameter 0 (.list t)) t args := by
  have hs : b.settings.denotes "s" "s" = true := (Settings.denotes_eq _ (by decide)).trans rfl
  have hname : (Scope.ofList t b).name "s" = .ok (.parameter 0 (.list t)) := by
    simp [Scope.name, Scope.parameter?, Scope.findLast?, Scope.settings, Scope.ofList, hs]
  exact Scope.term_method m args (by rw [Scope.term, hname]) rfl

namespace Lambda

variable {l inner : Lambda} {function : Option Lambda} {r : Ty} {items : List Value}

/-- The literal that calls a method of its parameter. -/
def ofMethod (m : CollectionMethod) (t : Ty) (function : Option Lambda) (r : Ty) : Lambda :=
  .ofBody 0 [("s", .list t)] (.collection m (.parameter 0 (.list t)) function none r)

theorem compile_of_parse {args : List Term}
    (h : Term.parse text = .ok (.lambda ["s"] (.call (some (.name "s")) m.name args))) :
    compile text [.list t] b =
      ((Scope.ofList t b).collection m (.parameter 0 (.list t)) t args).map
        (.ofBody 0 [("s", .list t)]) := by
  rw [compile, h, ← Scope.term_methodCall]
  rfl

/-- The literal of a call without an argument. -/
theorem compile_bareMethod (ht : Text.isBlankText text = true)
    (h : compile (Term.methodText m.name text) [.list t] b = .ok l) :
    ∃ r, (m.argument? 0).isSome = true ∧ m.resultType t t = .ok r ∧ l = ofMethod m t none r := by
  rw [compile_of_parse (Term.parse_methodText_of_blank m.isName_name ht), map_eq_ok] at h
  obtain ⟨e, he, rfl⟩ := h
  rw [Scope.collection] at he
  split at he
  · rename_i a ha
    obtain ⟨r, hr, he⟩ := bind_eq_ok.mp he
    cases he
    exact ⟨r, by rw [ha]; rfl, hr, rfl⟩
  · cases he

/-- **The literal of a call with a function** has the function of the text itself inside, with its
slots moved up by one. -/
theorem compile_method {operator : Operator} (hm : m.operator? = some operator)
    (hinner : compile (Text.trim text) [t] b = .ok inner)
    (havoids : ∀ u, Term.parse text = .ok u → b.settings.Avoids [("s", .list t)] u.names)
    (h : compile (Term.methodText m.name text) [.list t] b = .ok l) :
    ∃ r, m.resultType t inner.returns = .ok r ∧ l = ofMethod m t (some (inner.shift 1)) r := by
  rw [compile] at hinner
  split at hinner
  swap
  · cases hinner
  rename_i u hu
  have hu := Term.parse_of_trim hu
  have hfunction : (Scope.ofList t b).function [t] u = .ok (inner.shift 1) := by
    let top : Scope := { bindings := b, params := [], implicit := none }
    have hunder : (top.under [("s", .list t)]).function [t] u =
        (top.function [t] u).map (Lambda.shift 1) := Scope.function_under u (havoids u hu)
    rw [hinner] at hunder
    exact hunder
  rw [compile_of_parse (Term.parse_methodText m.isName_name hu), map_eq_ok] at h
  obtain ⟨e, he, rfl⟩ := h
  rw [Scope.collection_singleton, hfunction] at he
  have hwith : m.withFunction (.parameter 0 (.list t)) t (inner.shift 1) = .ok e := by
    rcases CollectionMethod.argument_cases hm with harg | harg | harg
    · rw [harg] at he
      cases he
    · rw [harg] at he
      exact he
    · rw [harg] at he
      exact he
  obtain ⟨r, hr, rfl⟩ := CollectionMethod.withFunction_eq_ok hwith
  rw [returns_shift] at hr
  exact ⟨r, hr, rfl⟩

/-- The value of such a literal on a list is what the method does to the items. -/
theorem value_ofMethod :
    (ofMethod m t function r).value [] [.sequence items] =
      m.apply items (valueOption [.sequence items] function) none t r := by
  have hlength : [Value.sequence items].length = [("s", Ty.list t)].length := rfl
  rw [ofMethod, ofBody, value, if_pos hlength, Expr.value, Expr.value, Expr.valueOption]
  rfl

/-- A typed literal run on arguments in any frame gives its value on them. -/
theorem Typed.run_invoke {C : Value → Ty → Prop} (h : l.Typed C []) (args : List Value)
    (frame : Frame) : ((l.invoke args).run frame).1 = l.value [] args := by
  have hd : Denotes [] (l.invoke args) (l.value [] args) := h.denotes rfl
  obtain ⟨_, hrun, -⟩ := hd frame List.nil_prefix
  rw [hrun]

end Lambda

end Literals

/-! ### The same answers -/

namespace Source

variable {t : Ty} {items : List Value} {s : Source} {m : CollectionMethod} {operator : Operator}
  {b : Bindings} {l : Lambda}

/-- Without a function. -/
theorem bareMethod_agrees (hs : ofValues t items = .ok s) (hm : m.operator? = some operator)
    {argument : Option String} (ht : isBlankExpression argument = true)
    (hl : Lambda.compile (Term.methodText m.name (argument.getD "")) [.list t] b = .ok l)
    (hc : (s.expressionCall operator argument b).isOk = true) (frame : Frame) :
    ((l.invoke [.sequence items]).run frame).1.mapError .ofEval = s.answer operator argument b := by
  have hblank : Text.isBlankText (argument.getD "") = true := by
    cases argument with
    | none => rfl
    | some text => exact ht
  have htyped := (Lambda.compile_typed_any hl).1
  obtain ⟨r, ha, hr, rfl⟩ := Lambda.compile_bareMethod hblank hl
  have hdeclared := ofValues_declared hs
  obtain ⟨rfl, -⟩ := ofValues_eq_ok hs
  obtain ⟨c, hcall⟩ := isOk_iff.mp hc
  have hbuild := hcall
  rw [expressionCall_of_blank (CollectionMethod.takesBlank_of_argument hm ha) ht] at hbuild
  obtain rfl := bare_call hdeclared rfl hm ha hr hbuild
  rw [htyped.run_invoke, Lambda.value_ofMethod, answer_of_call hm hr hcall,
    Call.onItems_bare hm ha fun heager => Operator.callType_of_eager heager r]
  rfl

/-- With a function, whose slots are moved up in the literal around it. -/
theorem functionMethod_agrees (hs : ofValues t items = .ok s) (hm : m.operator? = some operator)
    {text : String} (ht : Text.isBlankText text = false)
    (havoids : ∀ u, Term.parse text = .ok u → b.settings.Avoids [("s", .list t)] u.names)
    (hl : Lambda.compile (Term.methodText m.name text) [.list t] b = .ok l)
    (hc : (s.expressionCall operator (some text) b).isOk = true) (frame : Frame) :
    ((l.invoke [.sequence items]).run frame).1.mapError .ofEval =
      s.answer operator (some text) b := by
  have htyped := (Lambda.compile_typed_any hl).1
  have hdeclared := ofValues_declared hs
  obtain ⟨rfl, -⟩ := ofValues_eq_ok hs
  obtain ⟨c, hcall⟩ := isOk_iff.mp hc
  have hadjust : ∀ l, operator.adjust l = .ok l := by cases m <;> cases hm <;> exact fun _ => rfl
  obtain ⟨shape, hshape⟩ : ∃ shape, operator.expressionShape? = some shape := by
    cases h : operator.expressionShape? with
    | some shape => exact ⟨shape, rfl⟩
    | none =>
        rw [expressionCall, if_neg (by simp [isBlankExpression, ht]), h] at hcall
        cases hcall
  have hbuild := hcall
  rw [expressionCall_of_text hshape hadjust ht] at hbuild
  obtain ⟨inner, hinner, hbuild⟩ := bind_eq_ok.mp hbuild
  have hinner := mapError_eq_ok.mp hinner
  obtain ⟨hinnerTyped, hparams, -⟩ := Lambda.compile_typed_any hinner
  obtain ⟨r, hr, rfl⟩ := Lambda.compile_method hm hinner havoids hl
  obtain ⟨typeArgs, rfl⟩ := function_call hdeclared hparams hm hshape hr hbuild
  -- the list in front of the slots of the inner literal is never read
  have hvalue (v : Value) : (inner.shift 1).value [.sequence items] [v] = inner.call [v] := by
    have hmoved : (inner.shift 1).value ([.sequence items] ++ []) [v] = inner.value [] [v] :=
      hinnerTyped.value_shift rfl [v]
    rw [Lambda.call, hinnerTyped.run_invoke]
    exact hmoved
  rw [htyped.run_invoke, Lambda.value_ofMethod, Lambda.valueOption, funext hvalue,
    answer_of_call hm hr hcall,
    Call.onItems_function hm hshape fun heager => Operator.callType_of_eager heager r]

/-- **A method of a list gives what the operator gives over its values.**  Take an operator over a
source of values, with an expression or without one, and the method of the same name in the body of
a literal over the list of these values, with the text of the expression between its parentheses.
If both are accepted, the literal gives the list the value that the operator gives, where a lazy
operator counts for the list of its elements; or both fail, with the same error once that of the
literal is taken as one of queries.  The expression must not mention `s`, by which the literal calls
the list: no bare name in it may denote that parameter. -/
theorem method_agrees (hs : ofValues t items = .ok s) (hm : m.operator? = some operator)
    {argument : Option String}
    (havoids : ∀ u, Term.parse (argument.getD "") = .ok u →
      ∀ written ∈ u.names, b.settings.denotes written "s" = false)
    (hl : Lambda.compile (Term.methodText m.name (argument.getD "")) [.list t] b = .ok l)
    (hc : (s.expressionCall operator argument b).isOk = true) (frame : Frame) :
    ((l.invoke [.sequence items]).run frame).1.mapError .ofEval = s.answer operator argument b := by
  cases ht : isBlankExpression argument with
  | true => exact bareMethod_agrees hs hm ht hl hc frame
  | false =>
      cases argument with
      | none => cases ht
      | some text =>
          have havoids (u : Term) (hu : Term.parse text = .ok u) :
              b.settings.Avoids [("s", .list t)] u.names := by
            intro written hw p hp
            rw [List.mem_singleton.mp hp]
            exact havoids u hu written hw
          exact functionMethod_agrees hs hm ht havoids hl hc frame

set_option maxRecDepth 1000 in
/-- The numbers above a bound one: how many they are, which they are, and the sum of all of them, by
a method and by the operator. -/
theorem method_agrees_above :
    let b : Bindings := { Bindings.empty with values := [.int 2] }
    let items : List Value := [.int 1, .int 2, .int 3]
    ∃ s, ofValues .int items = .ok s ∧
      (∃ l, Lambda.compile (Term.methodText "Count" "x => x > @0") [.list .int] b = .ok l ∧
        (s.expressionCall .count (some "x => x > @0") b).isOk = true ∧
        ((l.invoke [.sequence items]).run []).1.mapError .ofEval =
          s.answer .count (some "x => x > @0") b) ∧
      (∃ l, Lambda.compile (Term.methodText "Where" "x => x > @0") [.list .int] b = .ok l ∧
        (s.expressionCall .filter (some "x => x > @0") b).isOk = true ∧
        ((l.invoke [.sequence items]).run []).1.mapError .ofEval =
          s.answer .filter (some "x => x > @0") b) ∧
      ∃ l, Lambda.compile (Term.methodText "Sum" "") [.list .int] b = .ok l ∧
        (s.expressionCall .sum none b).isOk = true ∧
        ((l.invoke [.sequence items]).run []).1.mapError .ofEval = s.answer .sum none b := by
  intro b items
  let s : Source := ⟨.int, .root .int items⟩
  have hs : ofValues .int items = .ok s := rfl
  have havoids : ∀ u, Term.parse "x => x > @0" = .ok u →
      ∀ written ∈ u.names, b.settings.denotes written "s" = false := by
    have hparse : Term.parse "x => x > @0" =
        .ok (.lambda ["x"] (.binary .greater (.name "x") (.positional 0))) := by cbv
    intro u hu
    rw [hparse] at hu
    cases hu
    decide
  have hnothing : ∀ u, Term.parse "" = .ok u →
      ∀ written ∈ u.names, b.settings.denotes written "s" = false := by
    have hparse : (Term.parse "").isOk = false := by cbv
    intro u hu
    rw [hu] at hparse
    cases hparse
  have hcount : (s.expressionCall .count (some "x => x > @0") b).isOk = true := by
    rw [expressionCall_of_text rfl (fun _ => rfl) (by decide)]
    cbv
  have hfilter : (s.expressionCall .filter (some "x => x > @0") b).isOk = true := by
    rw [expressionCall_of_text rfl (fun _ => rfl) (by decide)]
    cbv
  have hsum : (s.expressionCall .sum none b).isOk = true := by cbv
  have hcounting : (Lambda.compile (Term.methodText "Count" "x => x > @0") [.list .int] b).isOk
      = true := by cbv
  have hfiltering : (Lambda.compile (Term.methodText "Where" "x => x > @0") [.list .int] b).isOk
      = true := by cbv
  have hsumming : (Lambda.compile (Term.methodText "Sum" "") [.list .int] b).isOk = true := by cbv
  obtain ⟨counting, hcounting⟩ := isOk_iff.mp hcounting
  obtain ⟨filtering, hfiltering⟩ := isOk_iff.mp hfiltering
  obtain ⟨summing, hsumming⟩ := isOk_iff.mp hsumming
  refine ⟨s, hs, ⟨counting, hcounting, hcount, ?_⟩, ⟨filtering, hfiltering, hfilter, ?_⟩,
    summing, hsumming, hsum, ?_⟩
  · refine method_agrees hs (m := .count) rfl ?_ ?_ hcount []
    · exact havoids
    · exact hcounting
  · refine method_agrees hs (m := .filter) rfl ?_ ?_ hfilter []
    · exact havoids
    · exact hfiltering
  · refine method_agrees hs (m := .sum) rfl ?_ ?_ hsum []
    · exact hnothing
    · exact hsumming

end Source

end LambdaQuery
