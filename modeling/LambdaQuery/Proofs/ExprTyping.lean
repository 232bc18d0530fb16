/-
**The expressions that typing a term makes.**  `Scope.term` is a function; the shape of what it
returns is given here as rules, one for each kind of node, so that properties of compiled text can
be proved by induction on them.

The rules are over the types of the parameters in scope, by slot.  What is required of a constant
is a parameter of the rules: `Value.Belongs` for the soundness of evaluation, nothing at all for
properties that do not depend on the values.

Main definitions:
* `Expr.Typed` — the rules;
* `Lambda.Typed` — a function literal whose body is typed under its own parameters;
* `Bindings.All` — a property of all the values that a text may refer to.

Main results:
* `Scope.term_typed` — **every expression made from a term is typed**, in the parameters of its
  scope;
* `Lambda.compile_typed` — a compiled text is a typed literal over the given parameter types, and it
  returns the type of its body.
-/

import LambdaQuery.Expr.Typing
import LambdaQuery.Proofs.ValueTyping
import LambdaQuery.Proofs.Outcome

namespace LambdaQuery

/-! ### The rules -/

/-- The expression is made of the nodes that typing makes, over parameters of the given types. -/
inductive Expr.Typed (C : Value → Ty → Prop) : List Ty → Expr → Prop
  | constant {Γ : List Ty} {v : Value} {t : Ty} (h : C v t) : Typed C Γ (.constant v t)
  | parameter {Γ : List Ty} {slot : Nat} {t : Ty} (h : Γ[slot]? = some t) :
      Typed C Γ (.parameter slot t)
  | field {Γ : List Ty} {target : Expr} {r : RecordTy} {index : Nat} {name : String} {t : Ty}
      (ht : Typed C Γ target) (hr : target.type = r.toTy) (hf : r.fields[index]? = some (name, t)) :
      Typed C Γ (.field target index name t)
  | key {Γ : List Ty} {target : Expr} {k e : Ty} (ht : Typed C Γ target)
      (hg : target.type = .grouping k e) : Typed C Γ (.key target k)
  | convert {Γ : List Ty} {operand : Expr} {t : Ty} (ho : Typed C Γ operand)
      (hw : operand.type.Widens t) : Typed C Γ (.convert operand t)
  | unwrap {Γ : List Ty} {operand : Expr} {t : Ty} (ho : Typed C Γ operand)
      (hn : operand.type = .nullable t) : Typed C Γ (.unwrap operand t)
  | negate {Γ : List Ty} {operand : Expr} (ho : Typed C Γ operand)
      (hn : operand.type.isNumeric = true) : Typed C Γ (.unary .negate operand operand.type)
  | not {Γ : List Ty} {operand : Expr} (ho : Typed C Γ operand)
      (hb : operand.type.underlying = .bool) : Typed C Γ (.unary .not operand operand.type)
  | concat {Γ : List Ty} {lhs rhs : Expr} (hl : Typed C Γ lhs) (hr : Typed C Γ rhs) :
      Typed C Γ (.binary .concat lhs rhs .string)
  | logic {Γ : List Ty} {op : BinaryOp} {lhs rhs : Expr} (ho : op = .and ∨ op = .or)
      (hl : Typed C Γ lhs) (hr : Typed C Γ rhs) (hlt : lhs.type = .bool) (hrt : rhs.type = .bool) :
      Typed C Γ (.binary op lhs rhs .bool)
  | arithmetic {Γ : List Ty} {op : BinaryOp} {lhs rhs : Expr} {t : Ty} (ho : op.isArithmetic = true)
      (hl : Typed C Γ lhs) (hr : Typed C Γ rhs) (hlt : lhs.type = t) (hrt : rhs.type = t)
      (hn : t.isNumeric = true) : Typed C Γ (.binary op lhs rhs t)
  | comparison {Γ : List Ty} {op : BinaryOp} {lhs rhs : Expr} (ho : op.isComparison = true)
      (hl : Typed C Γ lhs) (hr : Typed C Γ rhs) : Typed C Γ (.binary op lhs rhs .bool)
  /-- The first operand of `??` is converted as if it were not null. -/
  | coalesce {Γ : List Ty} {lhs rhs : Expr} {t : Ty} (hl : Typed C Γ lhs)
      (hw : lhs.type.underlying.Widens t) (hr : Typed C Γ rhs) (hrt : rhs.type = t) :
      Typed C Γ (.binary .coalesce (lhs.convertTo t) rhs t)
  | cond {Γ : List Ty} {test ifTrue ifFalse : Expr} {t : Ty} (ht : Typed C Γ test)
      (htt : test.type = .bool) (h1 : Typed C Γ ifTrue) (h1t : ifTrue.type = t)
      (h2 : Typed C Γ ifFalse) (h2t : ifFalse.type = t) : Typed C Γ (.cond test ifTrue ifFalse t)
  | record {Γ : List Ty} {r : RecordTy} {members : List Expr}
      (hm : ∀ e ∈ members, Typed C Γ e) (hr : members.map Expr.type = r.fields.map (·.2)) :
      Typed C Γ (.record r members)
  /-- A method that works on all the elements as they are. -/
  | bareMethod {Γ : List Ty} {m : CollectionMethod} {source : Expr} {element t : Ty}
      (hs : Typed C Γ source) (he : source.type.element? = some element)
      (ha : m.argument? 0 = some .none) (ht : m.resultType element element = .ok t) :
      Typed C Γ (.collection m source none none t)
  | itemMethod {Γ : List Ty} {source item : Expr} {element : Ty} (hs : Typed C Γ source)
      (he : source.type.element? = some element) (hi : Typed C Γ item) :
      Typed C Γ (.collection .contains source none (some item) .bool)
  /-- A method with a function of the elements, which is a condition or computes a value. -/
  | functionMethod {Γ : List Ty} {m : CollectionMethod} {source : Expr} {element t : Ty}
      {name : String} {body : Expr} (hs : Typed C Γ source)
      (he : source.type.element? = some element) (hb : Typed C (Γ ++ [element]) body)
      (ha : (m.argument? 1 = some .predicate ∧ body.type = .bool) ∨ m.argument? 1 = some .selector)
      (ht : m.resultType element body.type = .ok t) :
      Typed C Γ (.collection m source (some (.ofBody Γ.length [(name, element)] body)) none t)
  | length {Γ : List Ty} {target : Expr} (ht : Typed C Γ target) (hs : target.type = .string) :
      Typed C Γ (.text .length target [] .int)
  | text {Γ : List Ty} {m : TextMethod} {target : Expr} {args : List Expr} (hm : m ≠ .length)
      (ht : Typed C Γ target) (hs : target.type = .string) (ha : ∀ e ∈ args, Typed C Γ e)
      (hat : ∀ e ∈ args, e.type.assignable .string = true) (hc : args.length = m.arity) :
      Typed C Γ (.text m target args m.resultType)
  | datePart {Γ : List Ty} {part : DatePart} {target : Expr} (ht : Typed C Γ target)
      (hd : target.type = .timestamp) : Typed C Γ (.datePart part target .int)

/-- The literal stands under parameters of the given types: its own parameters follow them, its body
is typed, and it returns a type that its body may stand for. -/
structure Lambda.Typed (C : Value → Ty → Prop) (Γ : List Ty) (l : Lambda) : Prop where
  base : l.base = Γ.length
  body : l.body.Typed C (Γ ++ l.paramTypes)
  returns : l.body.type.assignable l.returns = true

/-- All the values that a text may refer to have the property. -/
def Bindings.All (P : Value → Prop) (b : Bindings) : Prop :=
  (∀ v ∈ b.values, P v) ∧ ∀ entry ∈ b.named, P entry.2

theorem Bindings.All.lookup? {P : Value → Prop} {b : Bindings} (h : b.All P) {name : String}
    {v : Value} (hv : b.lookup? name = some v) : P v := by
  rw [Bindings.lookup?] at hv
  rcases Option.or_eq_some_iff.mp hv with hv | ⟨-, hv⟩
  · obtain ⟨l₁, l₂, hl, -⟩ := List.lookup_eq_some_iff.mp hv
    exact h.2 (name, v) (by simp [hl])
  · obtain ⟨entry, he, rfl⟩ := Option.map_eq_some_iff.mp hv
    exact h.2 entry (List.mem_of_find?_eq_some he)

/-! ### Operators -/

namespace Expr

variable {C : Value → Ty → Prop} {Γ : List Ty}

theorem type_convertTo (e : Expr) (t : Ty) : (e.convertTo t).type = t := by
  rw [convertTo]
  split
  · assumption
  · rfl

theorem Typed.convertTo {e : Expr} {t : Ty} (he : e.Typed C Γ) (hw : e.type.Widens t) :
    (e.convertTo t).Typed C Γ := by
  rw [Expr.convertTo]
  split
  · exact he
  · exact .convert he hw

theorem isNumeric_of_promote {s t u : Ty} (h : Ty.promote s t = some u) : u.isNumeric = true := by
  obtain ⟨i, j, -, -, hu, -⟩ := Ty.promote_spec h
  simp [Ty.isNumeric, hu]

/-- Operands of an arithmetic operator or a comparison in their common type. -/
theorem promoted_typed {op : BinaryOp} {lhs rhs e : Expr} {result : Ty → Ty} (hl : lhs.Typed C Γ)
    (hr : rhs.Typed C Γ)
    (hop : (op.isArithmetic = true ∧ result = id) ∨
      (op.isComparison = true ∧ result = fun _ => .bool))
    (h : promoted op lhs rhs result = .ok e) : e.Typed C Γ := by
  rw [promoted] at h
  split at h
  · rename_i t ht
    obtain ⟨hwl, hwr⟩ := Ty.widens_of_promote ht
    cases h
    rcases hop with ⟨ho, rfl⟩ | ⟨ho, rfl⟩
    · exact .arithmetic ho (hl.convertTo hwl) (hr.convertTo hwr) (type_convertTo ..)
        (type_convertTo ..) (isNumeric_of_promote ht)
    · exact .comparison ho (hl.convertTo hwl) (hr.convertTo hwr)
  · cases h

/-- An operator that typing accepts makes a typed expression of typed operands. -/
theorem ofBinary_typed {op : BinaryOp} {lhs rhs e : Expr} (hl : lhs.Typed C Γ) (hr : rhs.Typed C Γ)
    (h : ofBinary op lhs rhs = .ok e) : e.Typed C Γ := by
  unfold ofBinary at h
  cases op with
  | and | or =>
      simp only at h
      split at h
      · rename_i ht
        cases h
        exact .logic (by simp) hl hr ht.1 ht.2
      · cases h
  | add =>
      simp only at h
      split at h
      · -- with a text on one side `+` joins texts
        cases h
        exact .concat hl hr
      · exact promoted_typed hl hr (.inl ⟨rfl, rfl⟩) h
  | subtract | multiply | divide | modulo => exact promoted_typed hl hr (.inl ⟨rfl, rfl⟩) h
  | concat =>
      cases h
      exact .concat hl hr
  | equal | notEqual =>
      simp only at h
      split at h
      · rename_i t ht
        obtain ⟨hwl, hwr⟩ := Ty.widens_of_unify ht
        split at h
        · cases h
          exact .comparison rfl (hl.convertTo hwl) (hr.convertTo hwr)
        · cases h
          exact .comparison rfl hl hr
      · cases h
  | less | lessEqual | greater | greaterEqual =>
      simp only at h
      split at h
      · exact promoted_typed hl hr (.inr ⟨rfl, rfl⟩) h
      split at h
      · cases h
        exact .comparison rfl hl hr
      · cases h
  | coalesce =>
      simp only at h
      split at h
      · split at h
        · rename_i t ht
          obtain ⟨hwl, hwr⟩ := Ty.widens_of_unify ht
          cases h
          exact .coalesce hl hwl (hr.convertTo hwr) (type_convertTo ..)
        · cases h
      · cases h

theorem ofUnary_typed {op : UnaryOp} {operand e : Expr} (ho : operand.Typed C Γ)
    (h : ofUnary op operand = .ok e) : e.Typed C Γ := by
  unfold ofUnary at h
  cases op with
  | negate =>
      simp only at h
      split at h
      · rename_i hn
        cases h
        exact .negate ho hn
      · cases h
  | not =>
      simp only [beq_iff_eq] at h
      split at h
      · rename_i hb
        cases h
        exact .not ho hb
      · cases h

theorem expectBool_eq_ok {e : Expr} {u : Unit} (h : e.expectBool = .ok u) : e.type = .bool := by
  rw [expectBool] at h
  split at h
  · assumption
  · cases h

theorem ofCond_typed {test ifTrue ifFalse e : Expr} (ht : test.Typed C Γ) (htt : test.type = .bool)
    (h1 : ifTrue.Typed C Γ) (h2 : ifFalse.Typed C Γ) (h : ofCond test ifTrue ifFalse = .ok e) :
    e.Typed C Γ := by
  rw [ofCond] at h
  split at h
  · rename_i t hu
    obtain ⟨hw1, hw2⟩ := Ty.widens_of_unify hu
    cases h
    exact .cond ht htt (h1.convertTo hw1) (type_convertTo ..) (h2.convertTo hw2)
      (type_convertTo ..)
  · cases h

end Expr

/-! ### Methods of collections -/

namespace CollectionMethod

variable {C : Value → Ty → Prop} {Γ : List Ty} {source : Expr} {element : Ty}

theorem withItem_typed {item e : Expr} {m : CollectionMethod} (hm : m.argument? 1 = some .item)
    (hs : source.Typed C Γ) (he : source.type.element? = some element) (hi : item.Typed C Γ)
    (h : m.withItem source element item = .ok e) : e.Typed C Γ := by
  have hm : m = .contains := by
    cases m <;> simp [argument?] at hm
    rfl
  subst hm
  rw [withItem] at h
  split at h
  · rename_i t ht
    cases h
    exact .itemMethod hs he (hi.convertTo (Ty.widens_of_unify ht).2)
  · cases h

theorem withFunction_typed {name : String} {body e : Expr} {m : CollectionMethod}
    (hm : m.argument? 1 = some .predicate ∨ m.argument? 1 = some .selector)
    (hs : source.Typed C Γ) (he : source.type.element? = some element)
    (hb : body.Typed C (Γ ++ [element]))
    (h : m.withFunction source element (.ofBody Γ.length [(name, element)] body) = .ok e) :
    e.Typed C Γ := by
  rw [withFunction] at h
  rcases hm with hm | hm
  · simp only [hm, if_true, bind_eq_ok, pure_eq_ok] at h
    obtain ⟨_, hbool, t, ht, rfl⟩ := h
    exact .functionMethod hs he hb (.inl ⟨hm, Expr.expectBool_eq_ok hbool⟩) ht
  · simp only [hm, Option.some.injEq, reduceCtorEq, if_false, bind_eq_ok, pure_eq_ok] at h
    obtain ⟨t, ht, rfl⟩ := h
    exact .functionMethod hs he hb (.inr hm) ht

end CollectionMethod

/-! ### Names -/

namespace RecordTy

theorem find?_spec {r : RecordTy} {test : String → Bool} {found : Found}
    (h : r.find? test = some found) : r.fields[found.index]? = some (found.name, found.type) := by
  simp only [find?, Option.bind_eq_bind, Option.bind_eq_some_iff, Option.pure_def,
    Option.some.injEq] at h
  obtain ⟨index, -, ⟨name, t⟩, ht, rfl⟩ := h
  exact ht

/-- The place of a field that was looked up holds its name and type. -/
theorem field?_spec {r : RecordTy} {name : String} {ignoreCase : Bool} {found : Found}
    (h : r.field? name ignoreCase = some found) :
    r.fields[found.index]? = some (found.name, found.type) := by
  rw [field?] at h
  rcases Option.or_eq_some_iff.mp h with h | ⟨-, h⟩
  · exact find?_spec h
  · split at h
    · exact find?_spec h
    · cases h

end RecordTy

open Scope

namespace Scope

variable {C : Value → Ty → Prop} {s : Scope} {e : Expr}

/-- The types of the parameters in scope, by slot. -/
def types (s : Scope) : List Ty := s.params.map (·.2)

/-- A literal may be any value of its type, and what the text refers to any value of its own
type. -/
structure Grants (C : Value → Ty → Prop) (s : Scope) : Prop where
  literal : ∀ v t, v.Belongs t → C v t
  bound : s.bindings.All fun v => C v v.typeOf

theorem Grants.of_bindings {s' : Scope} (hC : s.Grants C) (h : s'.bindings = s.bindings) :
    s'.Grants C :=
  ⟨hC.literal, h ▸ hC.bound⟩

theorem types_getElem? {slot : Nat} {name : String} {t : Ty}
    (h : s.params[slot]? = some (name, t)) : s.types[slot]? = some t := by
  simp [types, h]

theorem implicit?_typed (h : s.implicit? = some e) : e.Typed C s.types := by
  simp only [implicit?, Option.bind_eq_bind, Option.bind_eq_some_iff, Option.pure_def,
    Option.some.injEq] at h
  obtain ⟨slot, -, ⟨name, t⟩, ht, rfl⟩ := h
  exact .parameter (types_getElem? ht)

/-- What `findLast?` finds is one of the entries that the name denotes, at its place. -/
theorem findLast?_eq_some {settings : Settings} {written : String} :
    ∀ {params : List (String × Ty)} {slot found : Nat} {t : Ty},
      findLast? settings written slot params = some (found, t) →
        ∃ i name, found = slot + i ∧ params[i]? = some (name, t) ∧
          settings.denotes written name = true := by
  intro params
  induction params with
  | nil =>
      intro slot found t h
      simp [findLast?] at h
  | cons entry params ih =>
      obtain ⟨name, u⟩ := entry
      intro slot found t h
      rw [findLast?] at h
      rcases Option.or_eq_some_iff.mp h with h | ⟨-, h⟩
      · obtain ⟨i, name', hi, ht, hn⟩ := ih h
        exact ⟨i + 1, name', by omega, by simpa using ht, hn⟩
      · split at h
        · rename_i hn
          cases h
          exact ⟨0, name, rfl, rfl, hn⟩
        · cases h

theorem parameter?_typed {written : String} (h : s.parameter? written = some e) :
    e.Typed C s.types := by
  obtain ⟨⟨slot, t⟩, hf, rfl⟩ := Option.map_eq_some_iff.mp h
  obtain ⟨i, name, hi, ht, -⟩ := findLast?_eq_some hf
  rw [hi, Nat.zero_add]
  exact .parameter (types_getElem? ht)

/-- The number of the elements of a collection, which is read like a field. -/
theorem count_typed {target : Expr} {element : Ty} (ht : target.Typed C s.types)
    (he : target.type.element? = some element) :
    (Expr.collection .count target none none .int).Typed C s.types :=
  .bareMethod ht he rfl rfl

theorem member?_typed (hC : s.Grants C) {target : Expr} {written : String}
    (ht : target.Typed C s.types) (h : s.member? target written = some e) : e.Typed C s.types := by
  rw [member?] at h
  cases htt : target.type with
  | record name fields =>
      simp only [htt] at h
      obtain ⟨found, hf, rfl⟩ := Option.map_eq_some_iff.mp h
      exact .field (r := ⟨name, fields⟩) ht htt (RecordTy.field?_spec hf)
  | grouping key element =>
      simp only [htt] at h
      split at h
      · cases h
        exact .key ht htt
      split at h
      · cases h
        exact count_typed ht (congrArg Ty.element? htt)
      · cases h
  | list element | sequence element | query element | orderedQuery element =>
      simp only [htt] at h
      split at h
      · cases h
        exact count_typed ht (congrArg Ty.element? htt)
      · cases h
  | string =>
      simp only [htt] at h
      split at h
      · cases h
        exact .length ht htt
      · cases h
  | nullable inner =>
      simp only [htt] at h
      split at h
      · cases h
        exact .comparison rfl ht (.constant (hC.literal _ _ (.of_null rfl)))
      split at h
      · cases h
        exact .unwrap ht htt
      · cases h
  | timestamp =>
      simp only [htt] at h
      obtain ⟨part, -, rfl⟩ := Option.map_eq_some_iff.mp h
      exact .datePart ht htt
  | _ => simp [htt] at h

theorem member_typed (hC : s.Grants C) {target : Expr} {written : String}
    (ht : target.Typed C s.types) (h : s.member target written = .ok e) : e.Typed C s.types := by
  rw [member] at h
  split at h
  · rename_i e' he
    cases h
    exact member?_typed hC ht he
  · cases h

/-- A bare name is a parameter, a member of the implicit parameter or a variable. -/
theorem name_typed (hC : s.Grants C) {written : String} (h : s.name written = .ok e) :
    e.Typed C s.types := by
  unfold name at h
  simp only at h
  split at h
  · rename_i e' he
    cases h
    rcases Option.or_eq_some_iff.mp he with he | ⟨-, he⟩
    · exact parameter?_typed he
    rcases Option.or_eq_some_iff.mp he with he | ⟨-, he⟩
    · obtain ⟨it, hi, hm⟩ := Option.bind_eq_some_iff.mp he
      exact member?_typed hC (implicit?_typed hi) hm
    · obtain ⟨v, hv, rfl⟩ := Option.map_eq_some_iff.mp he
      exact .constant (hC.bound.lookup? hv)
  · cases h

theorem implicitTarget_typed {method : String} (h : s.implicitTarget method = .ok e) :
    e.Typed C s.types := by
  rw [implicitTarget] at h
  split at h
  · rename_i it hi
    cases h
    exact implicit?_typed hi
  · cases h

theorem textMethod_eq_ok {target : Expr} {written : String} {m : TextMethod}
    (h : s.textMethod target written = .ok m) : target.type = .string ∧ m ≠ .length := by
  rw [textMethod] at h
  split at h
  · rename_i m' hs hm
    cases h
    refine ⟨hs, ?_⟩
    rintro rfl
    have hm := List.mem_of_find?_eq_some hm
    simp [TextMethod.callable] at hm
  · cases h

/-! ### Function literals -/

theorem types_extend (params : List (String × Ty)) :
    (s.extend params).types = s.types ++ params.map (·.2) := by
  simp [types, extend]

theorem types_extendImplicit (t : Ty) : (s.extendImplicit t).types = s.types ++ [t] := by
  simp [types, extendImplicit]

/-- A literal made from a term, explicit or bare: its body is the expression of the term or of a
part of it, in a scope with further parameters of the given types. -/
theorem function_eq_ok {types : List Ty} {t : Term} {l : Lambda}
    (h : s.function types t = .ok l) :
    ∃ (inner : Scope) (inside : Term) (params : List (String × Ty)) (body : Expr),
      sizeOf inside ≤ sizeOf t ∧ inner.bindings = s.bindings ∧ inner.types = s.types ++ types ∧
        params.map (·.2) = types ∧ inner.term inside = .ok body ∧
          l = .ofBody s.types.length params body := by
  unfold function at h
  split at h
  · rename_i names inside
    rw [explicit] at h
    split at h
    · cases h
    · rename_i hl
      have hl : names.length = types.length := by simpa using hl
      have hp : (names.zip types).map (·.2) = types := List.map_snd_zip (by omega)
      obtain ⟨body, hb, rfl⟩ := map_eq_ok.mp h
      refine ⟨s.extend (names.zip types), inside, names.zip types, body, ?_, rfl, ?_, hp, hb, ?_⟩
      · simp
      · rw [types_extend, hp]
      · simp [Scope.types]
  · unfold bare at h
    split at h
    · rename_i u
      obtain ⟨body, hb, rfl⟩ := map_eq_ok.mp h
      -- a bare term is its own body, so it does not get smaller here
      refine ⟨s.extendImplicit u, t, [(s.settings.implicitParameter, u)], body, Nat.le_refl _,
        rfl, ?_, rfl, hb, ?_⟩
      · exact types_extendImplicit u
      · simp [Scope.types]
    · cases h

/-- A method call on a target that is there.  It does not depend on where the target comes from. -/
def methodOn (s : Scope) (on : Expr) (text : String) (args : List Term) :
    Except CompileError Expr :=
  match on.type.element? with
  | some element => do s.collection (← s.collectionMethod on text) on element args
  | none => do
    let m ← s.textMethod on text
    m.expectArity args.length
    return .text m on (← s.texts args) m.resultType

theorem term_call_some (t : Term) (text : String) (args : List Term) :
    s.term (.call (some t) text args) = s.term t >>= fun on => s.methodOn on text args := by
  rw [term]
  rfl

theorem term_call_none (text : String) (args : List Term) :
    s.term (.call none text args) =
      s.implicitTarget text >>= fun on => s.methodOn on text args := by
  rw [term]
  rfl

theorem methodOn_eq_ok {on : Expr} {text : String} {args : List Term}
    (h : s.methodOn on text args = .ok e) :
    (∃ element m, on.type.element? = some element ∧ s.collection m on element args = .ok e) ∨
      (∃ m es, s.textMethod on text = .ok m ∧ m.expectArity args.length = .ok () ∧
        s.texts args = .ok es ∧ e = .text m on es m.resultType) := by
  rw [methodOn] at h
  split at h
  · rename_i element he
    obtain ⟨m, -, h⟩ := bind_eq_ok.mp h
    exact .inl ⟨element, m, he, h⟩
  · simp only [bind_eq_ok, pure_eq_ok] at h
    obtain ⟨m, hm, _, hn, es, ha, rfl⟩ := h
    exact .inr ⟨m, es, hm, hn, ha, rfl⟩

/-- The parts of a method call: its target, written or implicit, and what it is of the target. -/
theorem call_eq_ok {target : Option Term} {text : String} {args : List Term}
    (h : s.term (.call target text args) = .ok e) :
    ∃ on, ((∃ t, target = some t ∧ s.term t = .ok on) ∨ s.implicitTarget text = .ok on) ∧
      ((∃ element m, on.type.element? = some element ∧
          s.collection m on element args = .ok e) ∨
        (∃ m es, s.textMethod on text = .ok m ∧ m.expectArity args.length = .ok () ∧
          s.texts args = .ok es ∧ e = .text m on es m.resultType)) := by
  cases target with
  | some t =>
      obtain ⟨on, ht, h⟩ := bind_eq_ok.mp (term_call_some t text args ▸ h)
      exact ⟨on, .inl ⟨t, rfl, ht⟩, methodOn_eq_ok h⟩
  | none =>
      obtain ⟨on, ht, h⟩ := bind_eq_ok.mp (term_call_none text args ▸ h)
      exact ⟨on, .inr ht, methodOn_eq_ok h⟩

/-- A method of a collection with one argument takes it as an item or as a function. -/
theorem collection_singleton_eq_ok {m : CollectionMethod} {source : Expr} {element : Ty}
    {arg : Term} (h : s.collection m source element [arg] = .ok e) :
    (m.argument? 1 = some .item ∧
      ∃ item, s.term arg = .ok item ∧ m.withItem source element item = .ok e) ∨
    ((m.argument? 1 = some .predicate ∨ m.argument? 1 = some .selector) ∧
      ∃ l, s.function [element] arg = .ok l ∧ m.withFunction source element l = .ok e) := by
  have literal : ∀ {l : Except CompileError Lambda}, l = s.function [element] arg →
      (l >>= fun l => m.withFunction source element l) = .ok e →
        ∃ l, s.function [element] arg = .ok l ∧ m.withFunction source element l = .ok e := by
    rintro l rfl h
    exact bind_eq_ok.mp h
  rw [Scope.collection] at h
  simp only at h
  split at h
  · rename_i hm
    exact .inl ⟨hm, bind_eq_ok.mp h⟩
  · rename_i hm
    refine .inr ⟨.inl hm, ?_⟩
    split at h
    · exact literal rfl h
    · exact literal (by unfold function; split <;> simp_all) h
  · rename_i hm
    refine .inr ⟨.inr hm, ?_⟩
    split at h
    · exact literal rfl h
    · exact literal (by unfold function; split <;> simp_all) h
  · cases h

/-! ### Terms -/

variable (hC : s.Grants C)
include hC

theorem literal_typed {v : Value} {t : Ty} (h : v.Belongs t) :
    (Expr.constant v t).Typed C s.types :=
  .constant (hC.literal v t h)

end Scope

section Terms

variable {C : Value → Ty → Prop}

mutual

/-- **Every expression made from a term is typed** under the parameters in scope. -/
theorem Scope.term_typed : ∀ (t : Term) {s : Scope} {e : Expr}, s.Grants C →
    s.term t = .ok e → e.Typed C s.types
  | .string text, s, e, hC, h => by
    simp only [Scope.term, Except.ok.injEq] at h
    exact h ▸ literal_typed hC (.string text)
  | .integer n, s, e, hC, h => by
    simp only [Scope.term] at h
    split at h
    · cases h
      exact literal_typed hC (.int _)
    · cases h
      exact literal_typed hC (.long _)
  | .long n, s, e, hC, h => by
    simp only [Scope.term, Except.ok.injEq] at h
    exact h ▸ literal_typed hC (.long _)
  | .float x, s, e, hC, h => by
    simp only [Scope.term, Except.ok.injEq] at h
    exact h ▸ literal_typed hC (.double x)
  | .bool b, s, e, hC, h => by
    simp only [Scope.term, Except.ok.injEq] at h
    exact h ▸ literal_typed hC (.bool b)
  | .null, s, e, hC, h => by
    simp only [Scope.term, Except.ok.injEq] at h
    exact h ▸ literal_typed hC (.of_null rfl)
  | .name text, s, e, hC, h => by
    simp only [Scope.term] at h
    exact name_typed hC h
  | .positional index, s, e, hC, h => by
    simp only [Scope.term] at h
    split at h
    · rename_i v hv
      cases h
      exact .constant (hC.bound.1 v (List.mem_of_getElem? hv))
    · cases h
  | .named text, s, e, hC, h => by
    simp only [Scope.term] at h
    split at h
    · rename_i v hv
      cases h
      exact .constant (hC.bound.lookup? hv)
    · cases h
  | .member target text, s, e, hC, h => by
    simp only [Scope.term, bind_eq_ok] at h
    obtain ⟨target', ht, h⟩ := h
    exact member_typed hC (Scope.term_typed target hC ht) h
  | .call target text args, s, e, hC, h => by
    obtain ⟨on, ht, h⟩ := call_eq_ok h
    have ht : on.Typed C s.types := by
      rcases ht with ⟨t, rfl, ht⟩ | ht
      · exact Scope.term_typed t hC ht
      · exact implicitTarget_typed ht
    rcases h with ⟨element, m, he, h⟩ | ⟨m, es, hm, hn, ha, rfl⟩
    · exact Scope.collection_typed args hC ht he h
    · obtain ⟨hs, hm⟩ := textMethod_eq_ok hm
      obtain ⟨hl, ha⟩ := Scope.texts_typed args hC ha
      refine .text hm ht hs (fun e he => (ha e he).1) (fun e he => (ha e he).2) ?_
      -- the number of arguments was checked before they were read
      rw [hl]
      rw [TextMethod.expectArity] at hn
      split at hn
      · assumption
      · cases hn
  | .binary op lhs rhs, s, e, hC, h => by
    simp only [Scope.term, bind_eq_ok] at h
    obtain ⟨lhs', hl, rhs', hr, h⟩ := h
    exact Expr.ofBinary_typed (Scope.term_typed lhs hC hl) (Scope.term_typed rhs hC hr) h
  | .unary op operand, s, e, hC, h => by
    simp only [Scope.term, bind_eq_ok] at h
    obtain ⟨operand', ho, h⟩ := h
    exact Expr.ofUnary_typed (Scope.term_typed operand hC ho) h
  | .cond test ifTrue ifFalse, s, e, hC, h => by
    simp only [Scope.term, bind_eq_ok] at h
    obtain ⟨test', ht, _, hb, ifTrue', h1, ifFalse', h2, h⟩ := h
    exact Expr.ofCond_typed (Scope.term_typed test hC ht) (Expr.expectBool_eq_ok hb)
      (Scope.term_typed ifTrue hC h1) (Scope.term_typed ifFalse hC h2) h
  | .lambda names body, s, e, hC, h => by
    simp only [Scope.term, reduceCtorEq] at h
  | .record ms, s, e, hC, h => by
    simp only [Scope.term, bind_eq_ok, pure_eq_ok] at h
    obtain ⟨ms', hm, rfl⟩ := h
    refine .record ?_ (by simp)
    intro e he
    obtain ⟨m, hm', rfl⟩ := List.mem_map.mp he
    exact Scope.members_typed ms hC hm m hm'

/-- So is every method of a collection. -/
theorem Scope.collection_typed : ∀ (args : List Term) {s : Scope} {m : CollectionMethod}
    {source : Expr} {element : Ty} {e : Expr}, s.Grants C → source.Typed C s.types →
    source.type.element? = some element → s.collection m source element args = .ok e →
      e.Typed C s.types
  | [], s, m, source, element, e, hC, hs, he, h => by
    simp only [Scope.collection] at h
    split at h
    · rename_i a ha
      simp only [bind_eq_ok, pure_eq_ok] at h
      obtain ⟨t, ht, rfl⟩ := h
      refine .bareMethod hs he ?_ ht
      cases m <;> simp_all [CollectionMethod.argument?]
    · cases h
  | [arg], s, m, source, element, e, hC, hs, he, h => by
    rcases collection_singleton_eq_ok h with ⟨hm, item, hi, h⟩ | ⟨hm, l, hl, h⟩
    · exact CollectionMethod.withItem_typed hm hs he (Scope.term_typed arg hC hi) h
    · obtain ⟨inner, inside, params, body, hsize, hbind, htypes, hp, hb, rfl⟩ := function_eq_ok hl
      have hb := Scope.term_typed inside (hC.of_bindings hbind) hb
      obtain ⟨⟨name, t⟩, rfl, rfl⟩ : ∃ p, params = [p] ∧ p.2 = element := by
        simpa [List.map_eq_singleton_iff] using hp
      exact CollectionMethod.withFunction_typed hm hs he (htypes ▸ hb) h
  | _ :: _ :: _, s, m, source, element, e, hC, hs, he, h => by
    simp only [Scope.collection, reduceCtorEq] at h

theorem Scope.texts_typed : ∀ (args : List Term) {s : Scope} {es : List Expr}, s.Grants C →
    s.texts args = .ok es →
      es.length = args.length ∧
        ∀ e ∈ es, e.Typed C s.types ∧ e.type.assignable .string = true
  | [], s, es, hC, h => by
    simp only [Scope.texts, Except.ok.injEq] at h
    subst h
    simp
  | arg :: rest, s, es, hC, h => by
    simp only [Scope.texts, bind_eq_ok] at h
    obtain ⟨e, he, h⟩ := h
    split at h
    · rename_i ha
      simp only [bind_eq_ok, pure_eq_ok] at h
      obtain ⟨es', hes, rfl⟩ := h
      obtain ⟨hl, hall⟩ := Scope.texts_typed rest hC hes
      refine ⟨by simp [hl], ?_⟩
      intro e' he'
      rcases List.mem_cons.mp he' with rfl | he'
      · exact ⟨Scope.term_typed arg hC he, ha⟩
      · exact hall e' he'
    · cases h

theorem Scope.members_typed : ∀ (ms : List (Option String × Term)) {s : Scope}
    {before : List String} {es : List (String × Expr)}, s.Grants C →
    s.members before ms = .ok es → ∀ m ∈ es, m.2.Typed C s.types
  | [], s, before, es, hC, h => by
    simp only [Scope.members, Except.ok.injEq] at h
    subst h
    simp
  | (written, value) :: rest, s, before, es, hC, h => by
    simp only [Scope.members, bind_eq_ok, pure_eq_ok] at h
    obtain ⟨name, -, e, he, es', hes, rfl⟩ := h
    intro m hm
    rcases List.mem_cons.mp hm with rfl | hm
    · exact Scope.term_typed value hC he
    · exact Scope.members_typed rest hC hes m hm

end

/-- A function literal made from a term is typed over the given parameter types. -/
theorem Scope.function_typed {s : Scope} {types : List Ty} {t : Term} {l : Lambda}
    (hC : s.Grants C) (h : s.function types t = .ok l) :
    l.Typed C s.types ∧ l.paramTypes = types ∧ l.returns = l.body.type := by
  obtain ⟨inner, inside, params, body, -, hbind, htypes, rfl, hb, rfl⟩ := function_eq_ok h
  have hb := Scope.term_typed inside (hC.of_bindings hbind) hb
  rw [htypes] at hb
  refine ⟨⟨rfl, hb, ?_⟩, rfl, rfl⟩
  unfold Ty.assignable
  simp [Lambda.ofBody, Lambda.body, Lambda.returns]

/-- **A compiled text is a typed literal** over the given parameter types, which returns the type of
its body. -/
theorem Lambda.compile_typed {text : String} {types : List Ty} {b : Bindings} {l : Lambda}
    (hC : ∀ v t, v.Belongs t → C v t) (hb : b.All fun v => C v v.typeOf)
    (h : Lambda.compile text types b = .ok l) :
    l.Typed C [] ∧ l.paramTypes = types ∧ l.returns = l.body.type := by
  rw [Lambda.compile] at h
  split at h
  · exact Scope.function_typed (s := { bindings := b, params := [], implicit := none }) ⟨hC, hb⟩ h
  · cases h

/-- Every compiled text is typed, whatever the values are that it refers to. -/
theorem Lambda.compile_typed_any {text : String} {types : List Ty} {b : Bindings} {l : Lambda}
    (h : Lambda.compile text types b = .ok l) :
    l.Typed (fun _ _ => True) [] ∧ l.paramTypes = types ∧ l.returns = l.body.type :=
  Lambda.compile_typed (fun _ _ _ => trivial) ⟨fun _ _ => trivial, fun _ _ => trivial⟩ h

end Terms

end LambdaQuery
