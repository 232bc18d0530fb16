/-
**Soundness of typing for expressions.**  A text that compiles never meets an error of a tree put
together by hand: on arguments of the parameter types it gives a value of its return type, or fails
in one of five ways that depend on the data.

Main definitions:
* `EvalError.isOrdinary` — a zero divisor, a null where a value is needed, an empty collection and
  an overflow;
* `Yields` — a result is a value of a type or an ordinary error.

Main results:
* `Yields.arithmetic`, `Yields.combine_coalesce`, `Yields.conclude`, `Yields.method`, … — what each
  operator and each method yields;
* `Expr.Typed.sound` — **the value of a typed expression is one of its type**, by induction on the
  rules of typing;
* `Lambda.Typed.sound` — the same for a literal on arguments of its parameter types;
* `Lambda.invoke_compiled_sound` — compiled text, called in any frame.
-/

import LambdaQuery.Proofs.CollectionTyping
import LambdaQuery.Proofs.Denotation

namespace LambdaQuery

open Value (AllBelong)

/-! ### Ordinary errors -/

/-- Is the error one of those that data can cause? -/
def EvalError.isOrdinary : EvalError → Bool
  | divideByZero | nullValue | nullReference _ => true
  | collection .empty | collection .overflow => true
  | _ => false

/-- The result is a value of the type or an ordinary error. -/
def Yields (t : Ty) (r : Except EvalError Value) : Prop :=
  Within (fun e => e.isOrdinary = true) (fun v => v.Belongs t) r

namespace Yields

variable {v a b : Value} {s t : Ty}

/-! ### Parts of values -/

theorem fieldAt {r : RecordTy} {index : Nat} {declared name : String} (hv : v.Belongs r.toTy)
    (hf : r.fields[index]? = some (declared, t)) : Yields t (v.fieldAt index name) := by
  rcases hv.fieldValues with rfl | ⟨values, rfl, hall⟩
  · exact .error rfl
  obtain ⟨hi, hget⟩ := List.getElem?_eq_some_iff.mp hf
  have hj : index < values.length := hall.length_eq ▸ hi
  have hb := hall.get hi hj
  simp only [List.get_eq_getElem, hget] at hb
  simp only [Value.fieldAt, List.getElem?_eq_getElem hj]
  exact .ok hb

theorem groupKey (hv : v.Belongs (.grouping s t)) : Yields s v.groupKey := by
  rcases hv.key with rfl | ⟨key, elements, rfl, hk⟩
  · exact .error rfl
  · exact .ok hk

theorem unwrapped (hv : v.Belongs (.nullable t)) : Yields t v.unwrapped := by
  by_cases hn : v = .null
  · subst hn
    exact .error rfl
  · have hb : v.Belongs t := hv.of_ne_null hn rfl
    cases v with
    | null => exact absurd rfl hn
    | _ => exact .ok hb

theorem datePart (hv : v.Belongs .timestamp) (part : DatePart) : Yields .int (v.datePart part) := by
  rcases (Value.conforms_timestamp_iff rfl).mp hv.conforms with ⟨-, hn⟩ | ⟨x, rfl⟩
  · cases hn
  · exact .ok (.int _)

/-- The elements that a method works on belong to the element type of its source. -/
theorem itemsFor {e : Ty} (hv : v.Belongs t) (he : t.element? = some e) (m : CollectionMethod) :
    Within (fun e => e.isOrdinary = true) (AllBelong · e) (v.itemsFor m) := by
  rcases hv.elements he with rfl | ⟨items, hi, hall⟩
  · exact .error rfl
  · cases v with
    | null => exact .error rfl
    | _ =>
        simp only [Value.itemsFor, hi]
        exact .ok hall

theorem textFor (hv : v.Belongs .string) (m : TextMethod) :
    Within (fun e => e.isOrdinary = true) (fun _ => True) (v.textFor m) := by
  rcases (Value.conforms_string_iff rfl).mp hv.conforms with ⟨rfl, -⟩ | ⟨x, rfl⟩
  · exact .error rfl
  · exact .ok trivial

/-! ### Operators -/

/-- The values of a numeric type are null and the numbers of one kind. -/
theorem numeric_cases (hv : v.Belongs t) (ht : t.isNumeric = true) :
    (v = .null ∧ t.acceptsNull = true) ∨
      (t.base = .int ∧ ∃ n, v = .int n) ∨ (t.base = .long ∧ ∃ n, v = .long n) ∨
        (t.base = .double ∧ ∃ x, v = .double x) := by
  have hb := t.base_underlying
  rcases Ty.isNumeric_iff.mp ht with hu | hu | hu
  · rw [hu] at hb
    rcases (Value.conforms_int_iff hb.symm).mp hv.conforms with h | h
    · exact .inl h
    · exact .inr (.inl ⟨hb.symm, h⟩)
  · rw [hu] at hb
    rcases (Value.conforms_long_iff hb.symm).mp hv.conforms with h | h
    · exact .inl h
    · exact .inr (.inr (.inl ⟨hb.symm, h⟩))
  · rw [hu] at hb
    rcases (Value.conforms_double_iff hb.symm).mp hv.conforms with h | h
    · exact .inl h
    · exact .inr (.inr (.inr ⟨hb.symm, h⟩))

theorem int_belongs (hb : t.base = .int) (n : Int32) : (Value.int n).Belongs t :=
  ⟨rfl, (Value.conforms_int_iff hb).mpr (.inr ⟨n, rfl⟩)⟩

theorem long_belongs (hb : t.base = .long) (n : Int64) : (Value.long n).Belongs t :=
  ⟨rfl, (Value.conforms_long_iff hb).mpr (.inr ⟨n, rfl⟩)⟩

theorem double_belongs (hb : t.base = .double) (x : Double) : (Value.double x).Belongs t :=
  ⟨rfl, (Value.conforms_double_iff hb).mpr (.inr ⟨x, rfl⟩)⟩

theorem negate (hv : v.Belongs t) (ht : t.isNumeric = true) :
    Yields t (UnaryOp.apply .negate v) := by
  rcases numeric_cases hv ht with ⟨rfl, -⟩ | ⟨hb, n, rfl⟩ | ⟨hb, n, rfl⟩ | ⟨hb, x, rfl⟩
  · exact .ok hv
  · exact .ok (int_belongs hb _)
  · exact .ok (long_belongs hb _)
  · exact .ok (double_belongs hb _)

theorem not (hv : v.Belongs t) (ht : t.underlying = .bool) : Yields t (UnaryOp.apply .not v) := by
  have hb : t.base = .bool := by rw [← t.base_underlying, ht]; rfl
  rcases (Value.conforms_bool_iff hb).mp hv.conforms with ⟨rfl, -⟩ | ⟨b, rfl⟩
  · exact .ok hv
  · exact .ok ⟨rfl, (Value.conforms_bool_iff hb).mpr (.inr ⟨_, rfl⟩)⟩

theorem onInt (hb : t.base = .int) (op : BinaryOp) (m n : Int32) : Yields t (op.onInt m n) := by
  unfold BinaryOp.onInt
  cases op <;> simp only <;> first | exact .ok (int_belongs hb _) | skip
  all_goals
    split
    · exact .error rfl
    · exact .ok (int_belongs hb _)

theorem onLong (hb : t.base = .long) (op : BinaryOp) (m n : Int64) : Yields t (op.onLong m n) := by
  unfold BinaryOp.onLong
  cases op <;> simp only <;> first | exact .ok (long_belongs hb _) | skip
  all_goals
    split
    · exact .error rfl
    · exact .ok (long_belongs hb _)

theorem onDouble (hb : t.base = .double) (op : BinaryOp) (x y : Double) :
    (op.onDouble x y).Belongs t := by
  unfold BinaryOp.onDouble
  cases op <;> exact double_belongs hb _

/-- Arithmetic on two values of one numeric type stays in the type; only a zero divisor is
refused. -/
theorem arithmetic (op : BinaryOp) (ha : a.Belongs t) (hb : b.Belongs t) (ht : t.isNumeric = true) :
    Yields t (op.arithmetic a b) := by
  rcases numeric_cases ha ht with ⟨rfl, hn⟩ | ⟨hk, m, rfl⟩ | ⟨hk, m, rfl⟩ | ⟨hk, x, rfl⟩
  · exact .ok ha
  all_goals
    rcases numeric_cases hb ht with ⟨rfl, -⟩ | ⟨hl, n, rfl⟩ | ⟨hl, n, rfl⟩ | ⟨hl, y, rfl⟩
    · exact .ok hb
  · exact onInt hk op m n
  all_goals try (rw [hk] at hl; cases hl)
  · exact onLong hk op m n
  · exact .ok (onDouble hk op x y)

/-- The logical operators have a boolean for whatever their operands are. -/
theorem combine_logic {op : BinaryOp} (ho : op = .and ∨ op = .or) (left : Value)
    {rhs : Except EvalError Value} (hr : Yields s rhs) : Yields .bool (op.combine left rhs) := by
  have both : Yields .bool (rhs >>= fun v => pure (Value.bool v.isTrue)) :=
    Within.bind hr fun v _ => .ok (.bool _)
  unfold BinaryOp.combine
  rcases ho with rfl | rfl
  · cases left with
    | bool b =>
        cases b with
        | false => exact .ok (.bool false)
        | true => exact both
    | _ => exact both
  · cases left with
    | bool b =>
        cases b with
        | false => exact both
        | true => exact .ok (.bool true)
    | _ => exact both

/-- The other operators but `??` are applied to the values of both operands. -/
theorem combine_strict {op : BinaryOp} (ho : op ≠ .and ∧ op ≠ .or ∧ op ≠ .coalesce) (left : Value)
    {rhs : Except EvalError Value} (hr : Yields s rhs)
    (h : ∀ right, right.Belongs s → Yields t (op.apply left right)) :
    Yields t (op.combine left rhs) := by
  have strict : Yields t (rhs >>= fun v => liftResult (op.apply left v)) :=
    Within.bind hr fun v hv => by
      rw [liftResult_except]
      exact h v hv
  unfold BinaryOp.combine
  cases op with
  | and => exact absurd rfl ho.1
  | or => exact absurd rfl ho.2.1
  | coalesce => exact absurd rfl ho.2.2
  | _ => exact strict

theorem comparison {op : BinaryOp} (ho : op.isComparison = true) (a b : Value) :
    Yields .bool (op.apply a b) := by
  cases op <;> simp [BinaryOp.isComparison] at ho <;> exact .ok (.bool _)

/-- The first operand of `??` may be null at a type without null; then the second one counts. -/
theorem combine_coalesce {left : Value} {rhs : Except EvalError Value}
    (hl : left ≠ .null → left.Belongs t) (hr : Yields t rhs) :
    Yields t (BinaryOp.coalesce.combine left rhs) := by
  unfold BinaryOp.combine
  cases left with
  | null => exact hr
  | _ => exact .ok (hl (by simp))

/-! ### Methods of texts -/

theorem ofCollection {allowed : CollectionError → Prop} {r : Except CollectionError Value}
    (h : Within allowed (fun v => v.Belongs t) r)
    (he : ∀ e, allowed e → e = .empty ∨ e = .overflow) :
    Yields t (r.mapError .collection) :=
  h.mapError fun e hae => by
    rcases he e hae with rfl | rfl <;> rfl

/-- A test of a text against its argument, which is a text or null. -/
theorem test {m : TextMethod} {args : List Value} (ha : ∀ v ∈ args, v.Belongs .string)
    (hl : args ≠ []) (f : List Char → Bool) :
    Yields .bool ((m.argument args).map fun part => .bool (f part)) := by
  cases args with
  | nil => exact absurd rfl hl
  | cons v args =>
      rcases (Value.conforms_string_iff rfl).mp (ha v (List.mem_cons_self ..)).conforms with
        ⟨rfl, -⟩ | ⟨x, rfl⟩
      · exact .error rfl
      · exact .ok (.bool _)

theorem textMethod {m : TextMethod} (hm : m ≠ .length) (target : String) {args : List Value}
    (ha : ∀ v ∈ args, v.Belongs .string) (hl : args.length = m.arity) :
    Yields m.resultType (m.apply target args) := by
  have hne : m.isTest = true → args ≠ [] := by
    rintro ht rfl
    simp [TextMethod.arity, ht] at hl
  cases m with
  | length => exact absurd rfl hm
  | toUpper | toLower | trim => exact .ok (.string _)
  | startsWith | endsWith | contains => exact test ha (hne rfl) _

theorem textLength (target : String) (args : List Value) :
    Yields .int (TextMethod.apply .length target args) := by
  rw [TextMethod.apply]
  exact ofCollection (Collection.count_within _) fun e he => .inr he

/-! ### Methods of collections -/

variable {m : CollectionMethod} {element worked : Ty} {items : List Value}

/-- The type of what a method works on: what its function computes, or the elements. -/
def workedOn (m : CollectionMethod) (element computed : Ty) : Ty :=
  if m.projects then computed else element

/-- A method other than `all` gives a value of its result type for items of the type that it works
on. -/
theorem conclude (hm : m ≠ .all) (argument : Option Value) {computed : Ty}
    (hr : m.resultType element computed = .ok t)
    (hi : AllBelong items (workedOn m element computed)) :
    Yields t (m.conclude items argument element t) := by
  -- only the sum and the mean ask for numbers, and both take their type from them
  have number : (m = .sum ∨ m = .average) → computed.isNumeric = true ∧
      t = if m = .average then Signature.averageType computed else computed := by
    intro hm
    have hr : m.numericResult computed = .ok t := by rcases hm with rfl | rfl <;> exact hr
    rw [CollectionMethod.numericResult] at hr
    split at hr
    · rename_i hn
      exact ⟨hn, (Except.ok.inj hr).symm⟩
    · cases hr
  unfold CollectionMethod.conclude
  cases m with
  | all => exact absurd rfl hm
  | count =>
      cases hr
      exact ofCollection (Collection.count_within _) fun e he => .inr he
  | longCount =>
      cases hr
      exact .ok (.long _)
  | any =>
      cases hr
      exact .ok (.bool _)
  | sum =>
      obtain ⟨hn, rfl⟩ := number (.inl rfl)
      exact ofCollection (Collection.sum_within hi hn) fun e he => .inr he
  | average =>
      obtain ⟨hn, rfl⟩ := number (.inr rfl)
      exact ofCollection (Collection.average_within hi hn) fun e he => .inl he
  | min | max =>
      cases hr
      exact ofCollection (Collection.extreme_within _ hi) fun e he => .inl he
  | first =>
      cases hr
      exact ofCollection (Collection.first_within hi) fun e he => .inl he
  | last =>
      cases hr
      exact ofCollection (Collection.last_within hi) fun e he => .inl he
  | firstOrDefault =>
      cases hr
      exact .ok (Collection.firstOrDefault_belongs hi)
  | lastOrDefault =>
      cases hr
      exact .ok (Collection.lastOrDefault_belongs hi)
  | filter | select =>
      cases hr
      exact .ok (.sequence hi)
  | toList =>
      cases hr
      exact .ok (.list hi)
  | distinct =>
      cases hr
      exact .ok (.sequence fun v hv => hi v (Collection.mem_of_mem_distinct hv))
  | contains =>
      cases hr
      exact .ok (.bool _)

/-- A method without a function works on the elements as they are. -/
theorem method_none (ha : m.argument? 0 = some .none ∨ m = .contains)
    (argument : Option Value) (hr : m.resultType element element = .ok t)
    (hi : AllBelong items element) :
    Yields t (m.apply items none argument element t) := by
  have hm : m ≠ .all := by
    rintro rfl
    simp [CollectionMethod.argument?] at ha
  have hi : AllBelong items (workedOn m element element) := by
    rw [workedOn]
    split <;> exact hi
  rw [CollectionMethod.apply_none_eq, pure_bind, liftResult_except]
  exact conclude hm argument hr hi

theorem condition {f : Value → Except EvalError Value} (h : Yields .bool (f v)) :
    Within (fun e => e.isOrdinary = true) (fun _ => True) (CollectionMethod.condition f v) := by
  refine Within.bind h fun b hb => ?_
  rw [liftResult_except]
  rcases (Value.conforms_bool_iff rfl).mp hb.conforms with ⟨rfl, -⟩ | ⟨b, rfl⟩
  · exact .ok trivial
  · exact .ok trivial

/-- What a method works on, once its function has gone through the items. -/
theorem prepare {computed : Ty} {f : Value → Except EvalError Value}
    (ha : (m.argument? 1 = some .predicate ∧ computed = .bool) ∨ m.argument? 1 = some .selector)
    (hi : AllBelong items element) (hf : ∀ v ∈ items, Yields computed (f v)) :
    Within (fun e => e.isOrdinary = true) (AllBelong · (workedOn m element computed))
      (m.prepare items (some f)) := by
  unfold CollectionMethod.prepare workedOn
  by_cases hn : m.narrows = true
  · have hp : m.projects = false := by
      cases m <;> simp_all [CollectionMethod.narrows, CollectionMethod.projects]
    have hb : computed = .bool := by
      rcases ha with ⟨-, hb⟩ | ha
      · exact hb
      · cases m <;> simp [CollectionMethod.narrows, CollectionMethod.argument?] at hn ha
    subst hb
    simp only [hn, hp, if_true, Bool.false_eq_true, if_false]
    exact (Within.each_keep fun v hv => condition (hf v hv)).imp fun ys hys v hv => hi v (hys v hv)
  · by_cases hp : m.projects = true
    · simp only [hn, hp, if_true]
      exact Within.each_map hf
    · simp only [hn, hp]
      exact .ok hi

/-- A method with a function gives a value of its result type. -/
theorem method_some {computed : Ty} {f : Value → Except EvalError Value}
    (ha : (m.argument? 1 = some .predicate ∧ computed = .bool) ∨ m.argument? 1 = some .selector)
    (argument : Option Value) (hr : m.resultType element computed = .ok t)
    (hi : AllBelong items element) (hf : ∀ v ∈ items, Yields computed (f v)) :
    Yields t (m.apply items (some f) argument element t) := by
  by_cases hm : m = .all
  · subst hm
    cases hr
    have hb : computed = .bool := by
      rcases ha with ⟨-, hb⟩ | ha
      · exact hb
      · cases ha
    subst hb
    have hall := Within.each_all fun v hv => condition (hf v hv)
    exact hall.bind fun b _ => .ok (.bool b)
  · rw [CollectionMethod.apply_eq hm]
    refine Within.bind (prepare ha hi hf) fun xs hxs => ?_
    rw [liftResult_except]
    exact conclude hm argument hr hxs

end Yields

/-! ### Expressions -/

/-- The values of an environment belong to the types of the parameters, slot by slot. -/
def Environment (Γ : List Ty) (env : List Value) : Prop :=
  List.Forall₂ (fun t v => v.Belongs t) Γ env

theorem Environment.slot {Γ : List Ty} {env : List Value} (h : Environment Γ env) {slot : Nat}
    {t : Ty} (ht : Γ[slot]? = some t) : Yields t (slotValue env slot) := by
  obtain ⟨hi, rfl⟩ := List.getElem?_eq_some_iff.mp ht
  have hj : slot < env.length := h.length_eq ▸ hi
  have hb := h.get hi hj
  simp only [slotValue, List.getElem?_eq_getElem hj]
  exact .ok hb

theorem Environment.append {Γ Δ : List Ty} {env args : List Value} (h : Environment Γ env)
    (ha : Environment Δ args) : Environment (Γ ++ Δ) (env ++ args) :=
  List.rel_append h ha

/-- The values of members belong to their types, one by one. -/
theorem values_within {env : List Value} : ∀ {es : List Expr},
    (∀ e ∈ es, Yields e.type (e.value env)) →
      Within (fun e => e.isOrdinary = true)
        (fun vs => List.Forall₂ (fun t v => v.Belongs t) (es.map Expr.type) vs)
        (Expr.values env es) := by
  intro es
  induction es with
  | nil =>
      intro _
      exact .ok .nil
  | cons e es ih =>
      intro h
      have he := h e (List.mem_cons_self ..)
      have hes := ih fun e' he' => h e' (List.mem_cons_of_mem _ he')
      rw [Expr.values]
      exact Within.bind he fun v hv => hes.bind fun vs hvs => .ok (.cons hv hvs)

/-- What a conversion of the first operand of `??` leaves is null or a value of the common type. -/
theorem convertTo_coalesce {env : List Value} {e : Expr} {t : Ty}
    (hw : e.type.underlying.Widens t) (h : Yields e.type (e.value env)) :
    Within (fun e => e.isOrdinary = true) (fun v => v ≠ .null → v.Belongs t)
      ((e.convertTo t).value env) := by
  rw [Expr.convertTo]
  split
  · rename_i ht
    subst ht
    exact h.imp fun v hv _ => hv
  · rw [Expr.value]
    refine Within.bind h fun v hv => .ok fun hn => ?_
    have hv' : v ≠ .null := fun hv => hn (Value.convert_eq_null_iff.mpr hv)
    exact (hv.of_ne_null hv' e.type.base_underlying.symm).convert hw

/-- **The value of a typed expression is one of its type**, or the expression fails with an ordinary
error.  The induction is on the rules of typing. -/
theorem Expr.Typed.sound {Γ : List Ty} {e : Expr} (h : e.Typed Value.Belongs Γ) :
    ∀ {env : List Value}, Environment Γ env → Yields e.type (e.value env) := by
  induction h with
  | constant h =>
      intro env _
      rw [Expr.value]
      exact .ok h
  | parameter h =>
      intro env henv
      rw [Expr.value]
      exact henv.slot h
  | field _ hr hf ih =>
      intro env henv
      rw [Expr.value]
      exact Within.bind (ih henv) fun v hv => Yields.fieldAt (hr ▸ hv) hf
  | key _ hg ih =>
      intro env henv
      rw [Expr.value]
      exact Within.bind (ih henv) fun v hv => Yields.groupKey (hg ▸ hv)
  | convert _ hw ih =>
      intro env henv
      rw [Expr.value]
      exact Within.bind (ih henv) fun v hv => .ok (hv.convert hw)
  | unwrap _ hn ih =>
      intro env henv
      rw [Expr.value]
      exact Within.bind (ih henv) fun v hv => Yields.unwrapped (hn ▸ hv)
  | negate _ hn ih =>
      intro env henv
      rw [Expr.value]
      exact Within.bind (ih henv) fun v hv => Yields.negate hv hn
  | not _ hb ih =>
      intro env henv
      rw [Expr.value]
      exact Within.bind (ih henv) fun v hv => Yields.not hv hb
  | concat _ _ ihl ihr =>
      intro env henv
      rw [Expr.value]
      exact Within.bind (ihl henv) fun left _ =>
        Yields.combine_strict (by simp) left (ihr henv) fun right _ => .ok (.string _)
  | logic ho _ _ _ _ ihl ihr =>
      intro env henv
      rw [Expr.value]
      exact Within.bind (ihl henv) fun left _ => Yields.combine_logic ho left (ihr henv)
  | @arithmetic _ op lhs rhs t ho _ _ hlt hrt hn ihl ihr =>
      intro env henv
      rw [Expr.value]
      refine Within.bind (ihl henv) fun left hl => ?_
      rw [hlt] at hl
      -- both operands are of one numeric type, which is the type of the result
      refine Yields.combine_strict ?_ left (hrt ▸ ihr henv) fun right hr => ?_
      · cases op <;> simp [BinaryOp.isArithmetic] at ho ⊢
      · have ha := Yields.arithmetic op hl hr hn
        cases op <;> simp [BinaryOp.isArithmetic] at ho <;> exact ha
  | @comparison _ op lhs rhs ho _ _ ihl ihr =>
      intro env henv
      rw [Expr.value]
      refine Within.bind (ihl henv) fun left _ => ?_
      refine Yields.combine_strict ?_ left (ihr henv) fun right _ => Yields.comparison ho left right
      cases op <;> simp [BinaryOp.isComparison] at ho ⊢
  | coalesce _ hw _ hrt ihl ihr =>
      intro env henv
      rw [Expr.value]
      exact Within.bind (convertTo_coalesce hw (ihl henv)) fun left hl =>
        Yields.combine_coalesce hl (hrt ▸ ihr henv)
  | cond _ _ _ h1t _ h2t iht ih1 ih2 =>
      intro env henv
      rw [Expr.value]
      refine Within.bind (iht henv) fun v _ => ?_
      split
      · exact h1t ▸ ih1 henv
      · exact h2t ▸ ih2 henv
  | record _ hr ih =>
      intro env henv
      rw [Expr.value]
      refine Within.bind (values_within fun e he => ih e he henv) fun vs hvs => .ok (.record ?_)
      rw [hr, List.forall₂_map_left_iff] at hvs
      exact hvs
  | bareMethod _ he ha ht ih =>
      intro env henv
      unfold Expr.value Expr.valueOption Lambda.valueOption
      rw [he]
      refine Within.bind (ih henv) fun v hv => ?_
      exact Within.bind (Yields.itemsFor hv he _) fun items hi =>
        Yields.method_none (.inl ha) none ht hi
  | itemMethod _ he _ ihs ihi =>
      intro env henv
      unfold Expr.value Expr.valueOption Lambda.valueOption
      rw [he]
      refine Within.bind (ihs henv) fun v hv => ?_
      refine Within.bind (Yields.itemsFor hv he _) fun items hi => ?_
      refine Within.bind (P := fun _ => True) ?_ fun argument _ =>
        Yields.method_none (.inr rfl) argument rfl hi
      exact Within.bind (ihi henv) fun v _ => .ok trivial
  | functionMethod _ he _ ha ht ihs ihb =>
      intro env henv
      unfold Expr.value Expr.valueOption Lambda.valueOption
      rw [he]
      refine Within.bind (ihs henv) fun v hv => ?_
      refine Within.bind (Yields.itemsFor hv he _) fun items hi => ?_
      refine Yields.method_some ha none ht hi fun u hu => ?_
      -- the literal sees the whole environment, and its argument after it
      have hb := ihb (henv.append (.cons (hi u hu) .nil))
      simp only [Lambda.value, Lambda.ofBody, List.length_singleton, if_true]
      rwa [henv.length_eq, List.take_length]
  | length _ hs ih =>
      intro env henv
      rw [Expr.value]
      refine Within.bind (ih henv) fun v hv => ?_
      refine Within.bind (Yields.textFor (hs ▸ hv) _) fun s _ => ?_
      exact Within.bind (values_within fun e he => by cases he) fun vs _ => Yields.textLength s vs
  | @text _ m target args hm _ hs _ hat hc ih iha =>
      intro env henv
      rw [Expr.value]
      refine Within.bind (ih henv) fun v hv => ?_
      refine Within.bind (Yields.textFor (hs ▸ hv) _) fun s _ => ?_
      refine Within.bind (values_within fun e he => iha e he henv) fun vs hvs => ?_
      refine Yields.textMethod hm s ?_ ?_
      · -- an argument is of a type that may stand for a text
        intro v hv
        obtain ⟨i, hi, rfl⟩ := List.getElem_of_mem hv
        have hj : i < (args.map Expr.type).length := hvs.length_eq ▸ hi
        have hb := hvs.get hj hi
        simp only [List.get_eq_getElem, List.getElem_map] at hb
        exact hb.of_assignable (hat _ (List.getElem_mem _))
      · rw [← hvs.length_eq, List.length_map, hc]
  | datePart _ hd ih =>
      intro env henv
      rw [Expr.value]
      exact Within.bind (ih henv) fun v hv => Yields.datePart (hd ▸ hv) _

/-- What a typed expression evaluates to belongs to its type. -/
theorem Expr.Typed.belongs {Γ : List Ty} {e : Expr} (h : e.Typed Value.Belongs Γ)
    {env : List Value} (henv : Environment Γ env) {v : Value} (hv : e.value env = .ok v) :
    v.Belongs e.type := by
  have hyields := h.sound henv
  rw [hv] at hyields
  cases hyields with
  | ok hv => exact hv

/-- **A typed literal on arguments of its parameter types gives a value of its return type**, or
fails with an ordinary error. -/
theorem Lambda.Typed.sound {Γ : List Ty} {l : Lambda} (h : l.Typed Value.Belongs Γ)
    {env args : List Value} (henv : Environment Γ env) (ha : Environment l.paramTypes args) :
    Yields l.returns (l.value env args) := by
  obtain ⟨hbase, hbody, hret⟩ := h
  obtain ⟨base, params, body, returns⟩ := l
  have hlen : args.length = params.length := by
    simpa [Lambda.paramTypes, Lambda.params] using ha.length_eq.symm
  simp only [Lambda.base] at hbase
  have hv := hbody.sound (henv.append ha)
  simp only [Lambda.value, hlen, if_true, hbase, henv.length_eq, List.take_length]
  exact hv.imp fun v hv => hv.of_assignable hret

/-- **Compiled text is sound**: called in any frame on arguments of the parameter types, it gives a
value of its return type or fails with an ordinary error. -/
theorem Lambda.invoke_compiled_sound {text : String} {types : List Ty} {b : Bindings} {l : Lambda}
    (hb : b.All fun v => v.Belongs v.typeOf) (h : Lambda.compile text types b = .ok l)
    {args : List Value} (ha : Environment types args) (frame : Frame) :
    Yields l.returns ((l.invoke args).run frame).1 := by
  obtain ⟨ht, rfl, -⟩ := Lambda.compile_typed (fun _ _ h => h) hb h
  have hd : Denotes [] (l.invoke args) (l.value [] args) := ht.denotes rfl
  obtain ⟨frame', hrun, -⟩ := hd frame List.nil_prefix
  rw [hrun]
  exact ht.sound .nil ha

/-- A sum of quotients, with nulls passed over and the divisor taken from the bindings. -/
theorem invoke_compiled_sound_quotients :
    let b : Bindings := { Bindings.empty with values := [.int 2] }
    let source : Value := .sequence [.int 6, .null, .int 4]
    ∃ l,
      Lambda.compile "it.Where(x => x != null).Sum(x => x / @0)" [.list (.nullable .int)] b =
        .ok l ∧
      Yields l.returns ((l.invoke [source]).run []).1 := by
  intro b source
  have hok : (Lambda.compile "it.Where(x => x != null).Sum(x => x / @0)" [.list (.nullable .int)]
      b).isOk = true := by cbv
  have hb : b.All fun v => v.Belongs v.typeOf := by
    refine ⟨fun v hv => ?_, fun entry he => by cases he⟩
    rw [List.mem_singleton.mp hv]
    exact .int 2
  obtain ⟨l, h⟩ := isOk_iff.mp hok
  exact ⟨l, h, Lambda.invoke_compiled_sound hb h (.cons (by decide) .nil) []⟩

end LambdaQuery
