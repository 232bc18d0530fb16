/-
**Bound values cannot alter a program.**  What a text is compiled to depends on the bindings through
their settings, the names of the variables and the types of the values.  The values themselves go
into constants and are never looked at: a text that is bound may hold quotes, operators or whole
lambdas, and stays a text.

So over all bindings of one shape a text has one outcome.  It is an error, or a family of literals
that read the bindings in constants alone: each of these holds what stands in one fixed place of
the bindings, and all the other nodes, the constants of the text among them, do not change.

Main definitions:
* `Bindings.Matches` — the bindings have the same shape: settings, names and types;
* `Bindings.Place` — a place for a value in the bindings;
* `Expr.Uniform`, `Lambda.Uniform` — the family reads the bindings in constants alone;
* `Bindings.Determined` — over all bindings of a shape the computation has one error, or its results
  are one such family.

Main results:
* `Bindings.lookup?_eq_at` — the place of a variable depends on the names and the settings;
* `Scope.term_determined` — **the outcome of a term**, by recursion on the term;
* `Lambda.compile_determined` — **the outcome of a text**.
-/

import LambdaQuery.Proofs.Relocation

namespace LambdaQuery

/-! ### Bindings of one shape -/

namespace Bindings

/-- The bindings differ in nothing but their values, and in these not in the types. -/
structure Matches (b b' : Bindings) : Prop where
  settings : b.settings = b'.settings
  values : b.values.map Value.typeOf = b'.values.map Value.typeOf
  named : (b.named.map fun entry => (entry.1, entry.2.typeOf)) =
    b'.named.map fun entry => (entry.1, entry.2.typeOf)

/-- A place for a value. -/
inductive Place
  | positional (index : Nat)
  /-- The variable that was set as the first, the second, … -/
  | named (index : Nat)

/-- The value in a place. -/
def at? (b : Bindings) : Place → Option Value
  | .positional index => b.values[index]?
  | .named index => b.named[index]?.map (·.2)

/-- The place of the first name that passes a test. -/
def firstPlace? (names : List String) (test : String → Bool) : Option Place :=
  (names.findIdx? test).map .named

/-- The place of a variable. -/
def place? (b : Bindings) (written : String) : Option Place :=
  (firstPlace? (b.named.map (·.1)) (· == written)).or
    (firstPlace? (b.named.map (·.1)) (b.settings.denotes written))

variable {b b' : Bindings}

theorem Matches.refl (b : Bindings) : b.Matches b := ⟨rfl, rfl, rfl⟩

theorem Matches.names (h : b.Matches b') : b.named.map (·.1) = b'.named.map (·.1) := by
  have hnames := congrArg (List.map Prod.fst) h.named
  simpa [Function.comp_def] using hnames

/-- The values in one place have one type. -/
theorem Matches.typeOf_at? (h : b.Matches b') (p : Place) :
    (b.at? p).map Value.typeOf = (b'.at? p).map Value.typeOf := by
  cases p with
  | positional index =>
      have hvalues := congrArg (·[index]?) h.values
      simpa [at?] using hvalues
  | named index =>
      have hnamed := congrArg (fun l => l[index]?.map Prod.snd) h.named
      simpa [at?, Function.comp_def] using hnamed

theorem Matches.place? (h : b.Matches b') (written : String) :
    b.place? written = b'.place? written := by
  rw [Bindings.place?, Bindings.place?, h.names, h.settings]

/-- The first entry whose name passes a test stands in the place of that name. -/
theorem find?_eq_getElem? (named : List (String × Value)) (test : String → Bool) :
    named.find? (fun entry => test entry.1) =
      ((named.map (·.1)).findIdx? test).bind (named[·]?) := by
  induction named with
  | nil => rfl
  | cons entry named ih =>
      rw [List.find?_cons, List.map_cons, List.findIdx?_cons]
      cases test entry.1 with
      | true => rfl
      | false =>
          simp only [ih, Bool.false_eq_true, if_false, Option.bind_map]
          rfl

theorem lookup_eq_find? (named : List (String × Value)) (written : String) :
    named.lookup written = (named.find? fun entry => entry.1 == written).map (·.2) := by
  induction named with
  | nil => rfl
  | cons entry named ih =>
      rw [List.lookup_cons, List.find?_cons, ih, BEq.comm]
      cases entry.1 == written with
      | true => rfl
      | false => rfl

theorem firstPlace?_bind_at? (b : Bindings) (test : String → Bool) :
    (firstPlace? (b.named.map (·.1)) test).bind b.at? =
      (b.named.find? fun entry => test entry.1).map (·.2) := by
  rw [firstPlace?, find?_eq_getElem?, Option.bind_map, Option.map_bind]
  rfl

/-- **A variable is the value in its place.** -/
theorem lookup?_eq_at (b : Bindings) (written : String) :
    b.lookup? written = (b.place? written).bind b.at? := by
  have exact := firstPlace?_bind_at? b (· == written)
  have other := firstPlace?_bind_at? b (b.settings.denotes written)
  rw [lookup?, place?, lookup_eq_find?]
  cases hp : firstPlace? (b.named.map (·.1)) (· == written) with
  | none =>
      rw [hp, Option.bind_none] at exact
      rw [Option.none_or, other, ← exact, Option.none_or]
  | some p =>
      -- a name that is found has an entry in its place
      rw [hp, Option.bind_some] at exact
      rw [Option.some_or, Option.bind_some, ← exact]
      obtain ⟨index, hindex, rfl⟩ := Option.map_eq_some_iff.mp hp
      obtain ⟨hlt, -⟩ := List.findIdx?_eq_some_iff_getElem.mp hindex
      have hlt : index < b.named.length := by simpa using hlt
      rw [at?, List.getElem?_eq_getElem hlt]
      rfl

end Bindings

/-! ### Uniform families -/

/-- The expressions, one for each bindings, are made of the same nodes and read the bindings in
constants alone: `constant` is a constant of the text, `bound` holds what stands in a place. -/
inductive Expr.Uniform : (Bindings → Expr) → Prop
  | constant (v : Value) (t : Ty) : Uniform fun _ => .constant v t
  | bound (p : Bindings.Place) (t : Ty) : Uniform fun b => .constant ((b.at? p).getD .null) t
  | parameter (slot : Nat) (t : Ty) : Uniform fun _ => .parameter slot t
  | field {target : Bindings → Expr} (index : Nat) (name : String) (t : Ty)
      (ht : Uniform target) : Uniform fun b => .field (target b) index name t
  | key {target : Bindings → Expr} (t : Ty) (ht : Uniform target) :
      Uniform fun b => .key (target b) t
  | convert {operand : Bindings → Expr} (t : Ty) (ho : Uniform operand) :
      Uniform fun b => .convert (operand b) t
  | unwrap {operand : Bindings → Expr} (t : Ty) (ho : Uniform operand) :
      Uniform fun b => .unwrap (operand b) t
  | unary {operand : Bindings → Expr} (op : UnaryOp) (t : Ty) (ho : Uniform operand) :
      Uniform fun b => .unary op (operand b) t
  | binary {lhs rhs : Bindings → Expr} (op : BinaryOp) (t : Ty) (hl : Uniform lhs)
      (hr : Uniform rhs) : Uniform fun b => .binary op (lhs b) (rhs b) t
  | cond {test ifTrue ifFalse : Bindings → Expr} (t : Ty) (ht : Uniform test)
      (h1 : Uniform ifTrue) (h2 : Uniform ifFalse) :
      Uniform fun b => .cond (test b) (ifTrue b) (ifFalse b) t
  | record (r : RecordTy) {members : List (Bindings → Expr)} (hm : ∀ e ∈ members, Uniform e) :
      Uniform fun b => .record r (members.map (· b))
  | method {source : Bindings → Expr} (m : CollectionMethod) (t : Ty) (hs : Uniform source) :
      Uniform fun b => .collection m (source b) none none t
  | itemMethod {source item : Bindings → Expr} (m : CollectionMethod) (t : Ty)
      (hs : Uniform source) (hi : Uniform item) :
      Uniform fun b => .collection m (source b) none (some (item b)) t
  | functionMethod {source body : Bindings → Expr} (m : CollectionMethod) (t : Ty) (base : Nat)
      (params : List (String × Ty)) (returns : Ty) (hs : Uniform source) (hb : Uniform body) :
      Uniform fun b =>
        .collection m (source b) (some (.mk base params (body b) returns)) none t
  | text {target : Bindings → Expr} (m : TextMethod) (t : Ty) {args : List (Bindings → Expr)}
      (ht : Uniform target) (ha : ∀ e ∈ args, Uniform e) :
      Uniform fun b => .text m (target b) (args.map (· b)) t
  | datePart {target : Bindings → Expr} (part : DatePart) (t : Ty) (ht : Uniform target) :
      Uniform fun b => .datePart part (target b) t

/-- The literals have one base, the same parameters and one return type, and their bodies read the
bindings in constants alone. -/
inductive Lambda.Uniform : (Bindings → Lambda) → Prop
  | mk (base : Nat) (params : List (String × Ty)) (returns : Ty) {body : Bindings → Expr}
      (hb : Expr.Uniform body) : Uniform fun b => .mk base params (body b) returns

/-- Lists of uniform families. -/
inductive Expr.UniformAll : (Bindings → List Expr) → Prop
  | mk (es : List (Bindings → Expr)) (he : ∀ e ∈ es, Uniform e) : UniformAll fun b => es.map (· b)

/-- Lists of names with uniform families. -/
inductive Expr.UniformMembers : (Bindings → List (String × Expr)) → Prop
  | mk (ms : List (String × (Bindings → Expr))) (hm : ∀ m ∈ ms, Uniform m.2) :
      UniformMembers fun b => ms.map fun m => (m.1, m.2 b)

/-! ### Determined computations -/

namespace Bindings

variable {ε α β : Type} {b₀ : Bindings} {U : (Bindings → α) → Prop} {V : (Bindings → β) → Prop}

/-- Over all bindings of the shape the computation has one error, or its results are one of the
families. -/
inductive Determined (b₀ : Bindings) (U : (Bindings → α) → Prop) (r : Bindings → Except ε α) : Prop
  | error (e : ε) (h : ∀ b, b.Matches b₀ → r b = .error e)
  | ok (f : Bindings → α) (hf : U f) (h : ∀ b, b.Matches b₀ → r b = .ok (f b))

/-- Likewise for something that may not be there. -/
inductive Chosen (b₀ : Bindings) (U : (Bindings → α) → Prop) (o : Bindings → Option α) : Prop
  | missing (h : ∀ b, b.Matches b₀ → o b = none)
  | found (f : Bindings → α) (hf : U f) (h : ∀ b, b.Matches b₀ → o b = some (f b))

namespace Determined

theorem pure {f : Bindings → α} (hf : U f) :
    Determined b₀ U fun b => (Except.ok (f b) : Except ε α) :=
  .ok f hf fun _ _ => rfl

theorem throw (e : ε) : Determined b₀ U fun _ => (Except.error e : Except ε α) :=
  .error e fun _ _ => rfl

/-- Two computations that agree over the shape are determined together. -/
theorem congr {r r' : Bindings → Except ε α} (hr : Determined b₀ U r)
    (h : ∀ b, b.Matches b₀ → r' b = r b) : Determined b₀ U r' := by
  cases hr with
  | error e he => exact .error e fun b hb => (h b hb).trans (he b hb)
  | ok f hf hr => exact .ok f hf fun b hb => (h b hb).trans (hr b hb)

/-- A sequence is determined if its parts are. -/
theorem bind {r : Bindings → Except ε α} {k : Bindings → α → Except ε β}
    (hr : Determined b₀ U r) (hk : ∀ f, U f → Determined b₀ V fun b => k b (f b)) :
    Determined b₀ V fun b => r b >>= k b := by
  cases hr with
  | error e he =>
      refine .error e fun b hb => ?_
      rw [he b hb]
      rfl
  | ok f hf hr =>
      refine (hk f hf).congr fun b hb => ?_
      rw [hr b hb]
      rfl

/-- A sequence whose first part does not depend on the bindings. -/
theorem bind_const {r : Except ε α} {k : Bindings → α → Except ε β}
    (hk : ∀ a, Determined b₀ V fun b => k b a) : Determined b₀ V fun b => r >>= k b := by
  cases r with
  | error e => exact throw e
  | ok a => exact hk a

/-- Likewise where it depends on the shape of the bindings. -/
theorem bind_fixed {r : Bindings → Except ε α} {k : Bindings → α → Except ε β}
    (hr : ∃ r₀, ∀ b, b.Matches b₀ → r b = r₀) (hk : ∀ a, Determined b₀ V fun b => k b a) :
    Determined b₀ V fun b => r b >>= k b := by
  obtain ⟨r₀, hr⟩ := hr
  refine (bind_const (r := r₀) hk).congr fun b hb => ?_
  rw [hr b hb]

theorem map {r : Bindings → Except ε α} {g : Bindings → α → β} (hr : Determined b₀ U r)
    (hg : ∀ f, U f → V fun b => g b (f b)) : Determined b₀ V fun b => (r b).map (g b) := by
  cases hr with
  | error e he =>
      refine .error e fun b hb => ?_
      rw [he b hb]
      rfl
  | ok f hf hr =>
      refine .ok _ (hg f hf) fun b hb => ?_
      rw [hr b hb]
      rfl

/-- A choice by a condition that does not depend on the bindings. -/
theorem ite {c : Prop} [Decidable c] {r r' : Bindings → Except ε α} (hr : Determined b₀ U r)
    (hr' : Determined b₀ U r') : Determined b₀ U fun b => if c then r b else r' b := by
  by_cases hc : c
  · exact hr.congr fun b _ => if_pos hc
  · exact hr'.congr fun b _ => if_neg hc

end Determined

namespace Chosen

theorem pure {f : Bindings → α} (hf : U f) : Chosen b₀ U fun b => some (f b) :=
  .found f hf fun _ _ => rfl

theorem absent : Chosen b₀ U fun _ => none :=
  .missing fun _ _ => rfl

theorem congr {o o' : Bindings → Option α} (ho : Chosen b₀ U o)
    (h : ∀ b, b.Matches b₀ → o' b = o b) : Chosen b₀ U o' := by
  cases ho with
  | missing hn => exact .missing fun b hb => (h b hb).trans (hn b hb)
  | found f hf ho => exact .found f hf fun b hb => (h b hb).trans (ho b hb)

theorem ite {c : Prop} [Decidable c] {o o' : Bindings → Option α} (ho : Chosen b₀ U o)
    (ho' : Chosen b₀ U o') : Chosen b₀ U fun b => if c then o b else o' b := by
  by_cases hc : c
  · exact ho.congr fun b _ => if_pos hc
  · exact ho'.congr fun b _ => if_neg hc

/-- Something that is found whatever the bindings, and what is made of it. -/
theorem map_const {γ : Type} (o : Option γ) {g : Bindings → γ → α} (hg : ∀ a, U fun b => g b a) :
    Chosen b₀ U fun b => o.map (g b) := by
  cases o with
  | none => exact absent
  | some a => exact pure (hg a)

/-- The second choice stands where there is no first one. -/
theorem or {o o' : Bindings → Option α} (ho : Chosen b₀ U o) (ho' : Chosen b₀ U o') :
    Chosen b₀ U fun b => (o b).or (o' b) := by
  cases ho with
  | missing hn =>
      refine ho'.congr fun b hb => ?_
      rw [hn b hb, Option.none_or]
  | found f hf ho =>
      refine .found f hf fun b hb => ?_
      rw [ho b hb, Option.some_or]

/-- What is there is the result, and what is not there is an error. -/
theorem determined {o : Bindings → Option α} {r : Bindings → Except ε α} (e : ε)
    (ho : Chosen b₀ U o)
    (hsome : ∀ b a, o b = some a → r b = .ok a)
    (hnone : ∀ b, b.Matches b₀ → o b = none → r b = .error e) : Determined b₀ U r := by
  cases ho with
  | missing hn => exact .error e fun b hb => hnone b hb (hn b hb)
  | found f hf ho => exact .ok f hf fun b hb => hsome b _ (ho b hb)

end Chosen

end Bindings

namespace Expr.Uniform

open Bindings (Determined)

variable {b₀ : Bindings} {e lhs rhs : Bindings → Expr}

/-! ### Operators -/

/-- The expressions of a uniform family have one type. -/
theorem type_eq (he : Uniform e) : ∃ t, ∀ b, (e b).type = t := by
  cases he with
  | record r hm => exact ⟨r.toTy, fun _ => by rw [Expr.type]⟩
  | _ => exact ⟨_, fun _ => by rw [Expr.type]⟩

theorem convertTo (he : Uniform e) (t : Ty) : Uniform fun b => (e b).convertTo t := by
  obtain ⟨s, hs⟩ := he.type_eq
  simp only [Expr.convertTo, hs]
  split
  · exact he
  · exact .convert t he

theorem expectBool (he : Uniform e) :
    ∃ r : Except CompileError Unit, ∀ b, (e b).expectBool = r := by
  obtain ⟨s, hs⟩ := he.type_eq
  exact ⟨_, fun b => by rw [Expr.expectBool, hs]⟩

theorem promoted (op : BinaryOp) (result : Ty → Ty) (hl : Uniform lhs) (hr : Uniform rhs) :
    Determined b₀ Uniform fun b => Expr.promoted op (lhs b) (rhs b) result := by
  obtain ⟨s, hs⟩ := hl.type_eq
  obtain ⟨t, ht⟩ := hr.type_eq
  simp only [Expr.promoted, hs, ht]
  cases Ty.promote s t with
  | none => exact .throw _
  | some u => exact .pure (.binary op _ (hl.convertTo u) (hr.convertTo u))

theorem ofBinary (op : BinaryOp) (hl : Uniform lhs) (hr : Uniform rhs) :
    Determined b₀ Uniform fun b => Expr.ofBinary op (lhs b) (rhs b) := by
  obtain ⟨s, hs⟩ := hl.type_eq
  obtain ⟨t, ht⟩ := hr.type_eq
  unfold Expr.ofBinary
  simp only [hs, ht]
  cases op with
  | and | or => exact .ite (.pure (.binary _ _ hl hr)) (.throw _)
  | add => exact .ite (.pure (.binary _ _ hl hr)) (hl.promoted _ _ hr)
  | subtract | multiply | divide | modulo => exact hl.promoted _ _ hr
  | concat => exact .pure (.binary _ _ hl hr)
  | equal | notEqual =>
      cases Ty.unify s t with
      | none => exact .throw _
      | some u =>
          exact .ite (.pure (.binary _ _ (hl.convertTo u) (hr.convertTo u)))
            (.pure (.binary _ _ hl hr))
  | less | lessEqual | greater | greaterEqual =>
      exact .ite (hl.promoted _ _ hr) (.ite (.pure (.binary _ _ hl hr)) (.throw _))
  | coalesce =>
      refine .ite ?_ (.throw _)
      cases Ty.unify s.underlying t with
      | none => exact .throw _
      | some u => exact .pure (.binary _ _ (hl.convertTo u) (hr.convertTo u))

theorem ofUnary (op : UnaryOp) (he : Uniform e) :
    Determined b₀ Uniform fun b => Expr.ofUnary op (e b) := by
  obtain ⟨s, hs⟩ := he.type_eq
  unfold Expr.ofUnary
  simp only [hs]
  cases op with
  | negate | not => exact .ite (.pure (.unary _ s he)) (.throw _)

theorem ofCond {test : Bindings → Expr} (hc : Uniform test) (hl : Uniform lhs) (hr : Uniform rhs) :
    Determined b₀ Uniform fun b => Expr.ofCond (test b) (lhs b) (rhs b) := by
  obtain ⟨s, hs⟩ := hl.type_eq
  obtain ⟨t, ht⟩ := hr.type_eq
  simp only [Expr.ofCond, hs, ht]
  cases Ty.unify s t with
  | none => exact .throw _
  | some u => exact .pure (.cond u hc (hl.convertTo u) (hr.convertTo u))

/-! ### Methods of collections -/

theorem withItem (m : CollectionMethod) (element : Ty) {item : Bindings → Expr} (he : Uniform e)
    (hi : Uniform item) :
    Determined b₀ Uniform fun b => m.withItem (e b) element (item b) := by
  obtain ⟨t, ht⟩ := hi.type_eq
  simp only [CollectionMethod.withItem, ht]
  cases Ty.unify element t with
  | none => exact .throw _
  | some u => exact .pure (.itemMethod m _ he (hi.convertTo u))

theorem withFunction (m : CollectionMethod) (element : Ty) {l : Bindings → Lambda}
    (he : Uniform e) (hl : Lambda.Uniform l) :
    Determined b₀ Uniform fun b => m.withFunction (e b) element (l b) := by
  obtain ⟨base, params, returns, hb⟩ := hl
  obtain ⟨r, hr⟩ := hb.expectBool
  simp only [CollectionMethod.withFunction, Lambda.body, Lambda.returns, hr]
  refine .ite ?_ ?_
  · refine Determined.bind_const fun _ => Determined.bind_const fun t => ?_
    exact .pure (.functionMethod m t base params returns he hb)
  · refine Determined.bind_const fun t => ?_
    exact .pure (.functionMethod m t base params returns he hb)

end Expr.Uniform

/-! ### Names -/

namespace Scope

open Bindings (Chosen Determined)

/-- The scope with other bindings. -/
def rebind (s : Scope) (b : Bindings) : Scope := { s with bindings := b }

variable {s : Scope} {b : Bindings}

theorem extendImplicit_rebind (hb : b.settings = s.settings) (t : Ty) :
    (s.rebind b).extendImplicit t = (s.extendImplicit t).rebind b := by
  have hsettings : (s.rebind b).settings = s.settings := hb
  rw [extendImplicit, hsettings]
  rfl

/-! Which parameters, members and methods there are depends on the settings of the bindings
alone. -/

theorem parameter?_rebind (hb : b.settings = s.settings) (written : String) :
    (s.rebind b).parameter? written = s.parameter? written := by
  have hsettings : (s.rebind b).settings = s.settings := hb
  rw [parameter?, hsettings]
  rfl

theorem member?_rebind (hb : b.settings = s.settings) (target : Expr) (written : String) :
    (s.rebind b).member? target written = s.member? target written := by
  have hsettings : (s.rebind b).settings = s.settings := hb
  rw [member?, member?, hsettings]

theorem collectionMethod_rebind (hb : b.settings = s.settings) (target : Expr)
    (written : String) :
    (s.rebind b).collectionMethod target written = s.collectionMethod target written := by
  have hsettings : (s.rebind b).settings = s.settings := hb
  rw [collectionMethod, collectionMethod, hsettings]

theorem textMethod_rebind (hb : b.settings = s.settings) (target : Expr) (written : String) :
    (s.rebind b).textMethod target written = s.textMethod target written := by
  have hsettings : (s.rebind b).settings = s.settings := hb
  rw [textMethod, textMethod, hsettings]

/-- Parameters are the same for all bindings. -/
theorem uniform_parameter? {written : String} {e : Expr} (he : s.parameter? written = some e) :
    Expr.Uniform fun _ => e := by
  obtain ⟨⟨slot, t⟩, -, rfl⟩ := Option.map_eq_some_iff.mp he
  exact .parameter slot t

theorem uniform_implicit? {e : Expr} (he : s.implicit? = some e) : Expr.Uniform fun _ => e := by
  simp only [implicit?, Option.bind_eq_bind, Option.bind_eq_some_iff, Option.pure_def,
    Option.some.injEq] at he
  obtain ⟨slot, -, ⟨name, t⟩, -, rfl⟩ := he
  exact .parameter slot t

/-- **What stands in a place becomes a constant** of a type that is the same for all bindings. -/
theorem chosen_at (b₀ : Bindings) (p : Bindings.Place) :
    Chosen b₀ Expr.Uniform fun b => (b.at? p).map constantOf := by
  cases hp : b₀.at? p with
  | none =>
      refine .missing fun b hb => ?_
      have htype := hb.typeOf_at? p
      rw [hp, Option.map_none, Option.map_eq_none_iff] at htype
      rw [htype, Option.map_none]
  | some v₀ =>
      refine .found _ (.bound p v₀.typeOf) fun b hb => ?_
      have htype := hb.typeOf_at? p
      rw [hp, Option.map_some] at htype
      obtain ⟨v, hv, ht⟩ := Option.map_eq_some_iff.mp htype
      rw [hv, Option.map_some, Option.getD_some, constantOf, ht]

theorem chosen_lookup? (b₀ : Bindings) (written : String) :
    Chosen b₀ Expr.Uniform fun b => (b.lookup? written).map constantOf := by
  cases hp : b₀.place? written with
  | none =>
      refine .missing fun b hb => ?_
      rw [Bindings.lookup?_eq_at, hb.place?, hp]
      rfl
  | some p =>
      have hat : ∀ b : Bindings, b.Matches b₀ →
          (b.lookup? written).map constantOf = (b.at? p).map constantOf := by
        intro b hb
        rw [Bindings.lookup?_eq_at, hb.place?, hp, Option.bind_some]
      cases chosen_at b₀ p with
      | missing h => exact .missing fun b hb => (hat b hb).trans (h b hb)
      | found f hf h => exact .found f hf fun b hb => (hat b hb).trans (h b hb)

/-- Members depend on the settings and on the type of what they are read from. -/
theorem chosen_member? {target : Bindings → Expr} (ht : Expr.Uniform target) (written : String) :
    Chosen s.bindings Expr.Uniform fun b => (s.rebind b).member? (target b) written := by
  obtain ⟨t, htype⟩ := ht.type_eq
  refine Chosen.congr ?_ fun b hb => member?_rebind hb.settings (target b) written
  unfold member?
  simp only [htype]
  cases t with
  | record name fields =>
      exact .map_const _ fun found => .field found.index found.name found.type ht
  | grouping key _ => exact .ite (.pure (.key key ht)) (.ite (.pure (.method _ _ ht)) .absent)
  | list _ | sequence _ | query _ | orderedQuery _ => exact .ite (.pure (.method _ _ ht)) .absent
  | string =>
      have hlength : Expr.Uniform fun b => .text .length (target b) [] .int :=
        @Expr.Uniform.text _ .length .int [] ht (by simp)
      exact .ite (.pure hlength) .absent
  | nullable inner =>
      refine .ite (.pure (.binary _ _ ht (.constant .null _))) (.ite (.pure (.unwrap inner ht)) ?_)
      exact .absent
  | timestamp => exact .map_const _ fun part => .datePart part _ ht
  | _ => exact .absent

theorem determined_member {target : Bindings → Expr} (ht : Expr.Uniform target)
    (written : String) :
    Determined s.bindings Expr.Uniform fun b => (s.rebind b).member (target b) written := by
  obtain ⟨t, htype⟩ := ht.type_eq
  refine Chosen.determined (.unresolvedMember written t) (chosen_member? ht written) ?_ ?_
  · intro b e he
    rw [member, he]
  · intro b _ he
    rw [member, he, htype]

/-- **What a bare name denotes.** -/
theorem determined_name (written : String) :
    Determined s.bindings Expr.Uniform fun b => (s.rebind b).name written := by
  have hparameter : Chosen s.bindings Expr.Uniform fun b => (s.rebind b).parameter? written := by
    refine Chosen.congr ?_ fun b hb => parameter?_rebind hb.settings written
    cases hp : s.parameter? written with
    | none => exact .absent
    | some e => exact .pure (uniform_parameter? hp)
  have hmember : Chosen s.bindings Expr.Uniform fun b =>
      (s.rebind b).implicit?.bind fun it => (s.rebind b).member? it written := by
    show Chosen s.bindings Expr.Uniform fun b =>
      s.implicit?.bind fun it => (s.rebind b).member? it written
    cases hi : s.implicit? with
    | none => exact .absent
    | some it => exact chosen_member? (uniform_implicit? hi) written
  refine Chosen.determined (.unresolvedMember written (s.implicit?.map Expr.type))
    (hparameter.or (hmember.or (chosen_lookup? s.bindings written))) ?_ ?_
  · intro b e he
    rw [name]
    simp only [rebind] at he ⊢
    rw [he]
  · intro b _ he
    rw [name]
    simp only [rebind] at he ⊢
    rw [he]
    rfl

theorem collectionMethod_fixed {target : Bindings → Expr} (ht : Expr.Uniform target)
    (written : String) : ∃ r, ∀ b : Bindings, b.Matches s.bindings →
      (s.rebind b).collectionMethod (target b) written = r := by
  obtain ⟨t, htype⟩ := ht.type_eq
  exact ⟨_, fun b hb => by rw [collectionMethod_rebind hb.settings, collectionMethod, htype]⟩

theorem textMethod_fixed {target : Bindings → Expr} (ht : Expr.Uniform target)
    (written : String) : ∃ r, ∀ b : Bindings, b.Matches s.bindings →
      (s.rebind b).textMethod (target b) written = r := by
  obtain ⟨t, htype⟩ := ht.type_eq
  exact ⟨_, fun b hb => by rw [textMethod_rebind hb.settings, textMethod, htype]⟩

theorem determined_implicitTarget (method : String) :
    Determined s.bindings Expr.Uniform fun b => (s.rebind b).implicitTarget method := by
  show Determined s.bindings Expr.Uniform fun _ => s.implicitTarget method
  rw [implicitTarget]
  cases hi : s.implicit? with
  | none => exact .throw _
  | some it => exact .pure (uniform_implicit? hi)

/-! ### Function literals -/

theorem uniform_ofBody (base : Nat) (params : List (String × Ty)) {body : Bindings → Expr}
    (hb : Expr.Uniform body) : Lambda.Uniform fun b => .ofBody base params (body b) := by
  obtain ⟨t, ht⟩ := hb.type_eq
  simp only [Lambda.ofBody, ht]
  exact .mk base params t hb

theorem determined_explicit {types : List Ty} {names : List String}
    (body : Scope → Except CompileError Expr)
    (h : ∀ params, Determined s.bindings Expr.Uniform fun b => body ((s.extend params).rebind b)) :
    Determined s.bindings Lambda.Uniform fun b => (s.rebind b).explicit types names body := by
  refine .ite (.throw _) ?_
  exact (h (names.zip types)).map fun f hf => uniform_ofBody s.params.length (names.zip types) hf

theorem determined_bare {types : List Ty} (body : Scope → Except CompileError Expr)
    (h : ∀ t, Determined s.bindings Expr.Uniform fun b => body ((s.extendImplicit t).rebind b)) :
    Determined s.bindings Lambda.Uniform fun b => (s.rebind b).bare types body := by
  unfold bare
  split
  · rename_i t
    have hmap := (h t).map (V := Lambda.Uniform) fun f hf =>
      uniform_ofBody s.params.length [(s.settings.implicitParameter, t)] hf
    refine hmap.congr fun b hb => ?_
    have hsettings : (s.rebind b).settings = s.settings := hb.settings
    rw [extendImplicit_rebind hb.settings, hsettings]
    rfl
  · exact .throw _

end Scope

/-! ### Terms -/

section Terms

open Bindings (Determined)

/-- A record has one type over all bindings. -/
theorem Scope.uniform_record {f : Bindings → List (String × Expr)} (hf : Expr.UniformMembers f) :
    Expr.Uniform fun b =>
      .record { name := none, fields := (f b).map fun (name, e) => (name, e.type) }
        ((f b).map (·.2)) := by
  obtain ⟨ms, hm⟩ := hf
  have hfields : ∀ b : Bindings, ((ms.map fun m => (m.1, m.2 b)).map fun (name, e) =>
      (name, e.type)) = ms.map fun m => (m.1, (m.2 .empty).type) := by
    intro b
    rw [List.map_map]
    refine List.map_congr_left fun m hmem => ?_
    obtain ⟨t, ht⟩ := (hm m hmem).type_eq
    simp [ht]
  simp only [hfields]
  have hmembers : ∀ e ∈ ms.map (·.2), Expr.Uniform e := by
    simpa using fun e name he => hm (name, e) he
  have hrecord := Expr.Uniform.record
    { name := none, fields := ms.map fun m => (m.1, (m.2 .empty).type) } hmembers
  simpa [Function.comp_def] using hrecord

/-- The method of a name on a target that is there. -/
theorem Scope.determined_methodOn {s : Scope} {args : List Term} (text : String)
    {on : Bindings → Expr} (ho : Expr.Uniform on)
    (hcollection : ∀ m element, Determined s.bindings Expr.Uniform fun b =>
      (s.rebind b).collection m (on b) element args)
    (htexts : Determined s.bindings Expr.UniformAll fun b => (s.rebind b).texts args) :
    Determined s.bindings Expr.Uniform fun b => (s.rebind b).methodOn (on b) text args := by
  obtain ⟨t, ht⟩ := ho.type_eq
  simp only [methodOn, ht]
  cases t.element? with
  | some element =>
      exact .bind_fixed (collectionMethod_fixed ho text) fun m => hcollection m element
  | none =>
      refine .bind_fixed (textMethod_fixed ho text) fun m => .bind_const fun _ => ?_
      refine htexts.bind fun fs hfs => ?_
      obtain ⟨es, hes⟩ := hfs
      exact .pure (.text m m.resultType ho hes)

mutual

/-- **The outcome of a term** over all bindings of the shape of those in its scope. -/
theorem Scope.term_determined : ∀ (t : Term) (s : Scope),
    Determined s.bindings Expr.Uniform fun b => (s.rebind b).term t
  | .string _, s | .long _, s | .float _, s | .bool _, s | .null, s => by
    simp only [Scope.term]
    exact .pure (.constant ..)
  | .integer n, s => by
    simp only [Scope.term]
    exact .ite (.pure (.constant ..)) (.pure (.constant ..))
  | .name text, s => by
    simp only [Scope.term]
    exact determined_name text
  | .positional index, s => by
    simp only [Scope.term]
    refine Bindings.Chosen.determined (.missingPositional index)
      (chosen_at s.bindings (.positional index)) ?_ ?_
    · intro b e he
      obtain ⟨v, hv, rfl⟩ := Option.map_eq_some_iff.mp he
      simp only [Bindings.at?] at hv
      simp only [rebind, hv]
    · intro b _ he
      have hv := Option.map_eq_none_iff.mp he
      simp only [Bindings.at?] at hv
      simp only [rebind, hv]
  | .named text, s => by
    simp only [Scope.term]
    refine Bindings.Chosen.determined (.unknownVariable text)
      (chosen_lookup? s.bindings text) ?_ ?_
    · intro b e he
      obtain ⟨v, hv, rfl⟩ := Option.map_eq_some_iff.mp he
      simp only [rebind, hv]
    · intro b _ he
      have hv := Option.map_eq_none_iff.mp he
      simp only [rebind, hv]
  | .member target text, s => by
    simp only [Scope.term]
    exact (Scope.term_determined target s).bind fun f hf => determined_member hf text
  | .call (some target) text args, s => by
    simp only [Scope.term_call_some]
    exact (Scope.term_determined target s).bind fun f hf => determined_methodOn text hf
      (fun m element => Scope.collection_determined args s m hf element)
      (Scope.texts_determined args s)
  | .call none text args, s => by
    simp only [Scope.term_call_none]
    exact (determined_implicitTarget text).bind fun f hf => determined_methodOn text hf
      (fun m element => Scope.collection_determined args s m hf element)
      (Scope.texts_determined args s)
  | .binary op lhs rhs, s => by
    simp only [Scope.term]
    exact (Scope.term_determined lhs s).bind fun l hl =>
      (Scope.term_determined rhs s).bind fun r hr => hl.ofBinary op hr
  | .unary op operand, s => by
    simp only [Scope.term]
    exact (Scope.term_determined operand s).bind fun f hf => hf.ofUnary op
  | .cond test ifTrue ifFalse, s => by
    simp only [Scope.term]
    refine (Scope.term_determined test s).bind fun c hc => ?_
    obtain ⟨r, hr⟩ := hc.expectBool
    simp only [hr]
    exact Determined.bind_const fun _ =>
      (Scope.term_determined ifTrue s).bind fun l hl =>
        (Scope.term_determined ifFalse s).bind fun r hr => hc.ofCond hl hr
  | .lambda _ _, s => by
    simp only [Scope.term]
    exact .throw _
  | .record ms, s => by
    simp only [Scope.term]
    exact (Scope.members_determined ms s []).bind fun f hf => .pure (uniform_record hf)
termination_by t => (sizeOf t, 0)

/-- So is the outcome of a function literal determined. -/
theorem Scope.function_determined (t : Term) (s : Scope) (types : List Ty) :
    Determined s.bindings Lambda.Uniform fun b => (s.rebind b).function types t := by
  unfold Scope.function
  split
  · rename_i names inside
    exact determined_explicit (fun inner => inner.term inside) fun params =>
      Scope.term_determined inside (s.extend params)
  · exact determined_bare (fun inner => inner.term t) fun u =>
      Scope.term_determined t (s.extendImplicit u)
termination_by (sizeOf t, 1)

/-- So is that of a method of a collection. -/
theorem Scope.collection_determined : ∀ (args : List Term) (s : Scope) (m : CollectionMethod)
    {source : Bindings → Expr}, Expr.Uniform source → ∀ element : Ty,
    Determined s.bindings Expr.Uniform fun b => (s.rebind b).collection m (source b) element args
  | [], s, m, source, hs, element => by
    simp only [Scope.collection]
    split
    · exact Determined.bind_const fun t => .pure (.method m t hs)
    · exact .throw _
  | [arg], s, m, source, hs, element => by
    simp only [collection_singleton]
    split
    · exact (Scope.term_determined arg s).bind fun f hf => hs.withItem m element hf
    · exact (Scope.function_determined arg s [element]).bind fun l hl =>
        hs.withFunction m element hl
    · exact (Scope.function_determined arg s [element]).bind fun l hl =>
        hs.withFunction m element hl
    · exact .throw _
  | _ :: _ :: args, s, m, source, hs, element => by
    simp only [Scope.collection]
    exact .throw _
termination_by args => (sizeOf args, 0)

theorem Scope.texts_determined : ∀ (args : List Term) (s : Scope),
    Determined s.bindings Expr.UniformAll fun b => (s.rebind b).texts args
  | [], s => by
    simp only [Scope.texts]
    exact .pure (.mk [] (by simp))
  | arg :: rest, s => by
    simp only [Scope.texts]
    refine (Scope.term_determined arg s).bind fun f hf => ?_
    obtain ⟨t, ht⟩ := hf.type_eq
    simp only [ht]
    refine .ite ?_ (.throw _)
    refine (Scope.texts_determined rest s).bind fun fs hfs => ?_
    obtain ⟨es, hes⟩ := hfs
    exact .pure (.mk (f :: es) (by simpa using ⟨hf, hes⟩))
termination_by args => (sizeOf args, 0)

theorem Scope.members_determined : ∀ (ms : List (Option String × Term)) (s : Scope)
    (before : List String),
    Determined s.bindings Expr.UniformMembers fun b => (s.rebind b).members before ms
  | [], s, before => by
    simp only [Scope.members]
    exact .pure (.mk [] (by simp))
  | (written, value) :: rest, s, before => by
    simp only [Scope.members]
    refine Determined.bind_const fun name => ?_
    refine (Scope.term_determined value s).bind fun f hf => ?_
    refine (Scope.members_determined rest s _).bind fun fs hfs => ?_
    obtain ⟨es, hes⟩ := hfs
    exact .pure (.mk ((name, f) :: es) (by simpa using ⟨hf, fun a b h => hes (a, b) h⟩))
termination_by ms => (sizeOf ms, 0)

end

end Terms

/-! ### Texts -/

namespace Lambda

/-- **The outcome of a text** over all bindings of one shape is one error, or literals with one
base, the same parameters, one return type and bodies that read the bindings in constants alone. -/
theorem compile_determined (text : String) (types : List Ty) (b₀ : Bindings) :
    (∃ e, ∀ b, b.Matches b₀ → compile text types b = .error e) ∨
      ∃ base params returns body, Expr.Uniform body ∧
        ∀ b, b.Matches b₀ → compile text types b = .ok (mk base params (body b) returns) := by
  cases hp : Term.parse text with
  | error e =>
      refine .inl ⟨.malformed e, fun b _ => ?_⟩
      rw [compile, hp]
  | ok t =>
      have hfunction := Scope.function_determined t
        { bindings := b₀, params := [], implicit := none } types
      cases hfunction with
      | error e he =>
          refine .inl ⟨e, fun b hb => ?_⟩
          rw [compile, hp]
          exact he b hb
      | ok f hf h =>
          obtain ⟨base, params, returns, hbody⟩ := hf
          refine .inr ⟨base, params, returns, _, hbody, fun b hb => ?_⟩
          rw [compile, hp]
          exact h b hb

/-- A text bound to `@0` that looks like the rest of a condition is compared as a text. -/
theorem compile_determined_quotes :
    let text := "x => x == @0 || x == Name"
    let plain : Bindings :=
      { Bindings.empty with values := [.string "a"], named := [("Name", .string "b")] }
    let hostile : Bindings :=
      { Bindings.empty with
        values := [.string "\" || true || x == \""], named := [("Name", .string "\" || true")] }
    hostile.Matches plain ∧
      ∃ base params returns body, Expr.Uniform body ∧
        compile text [.string] plain = .ok (mk base params (body plain) returns) ∧
        compile text [.string] hostile = .ok (mk base params (body hostile) returns) := by
  intro text plain hostile
  have hmatches : hostile.Matches plain := ⟨rfl, by decide, by decide⟩
  have hok : (compile text [.string] plain).isOk = true := by cbv
  refine ⟨hmatches, ?_⟩
  rcases compile_determined text [.string] plain with ⟨e, he⟩ | ⟨base, params, returns, body, hu, h⟩
  · rw [he plain (.refl plain)] at hok
    cases hok
  · exact ⟨base, params, returns, body, hu, h plain (.refl plain), h hostile hmatches⟩

end Lambda

end LambdaQuery
