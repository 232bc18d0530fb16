/-
**Terms among further parameters.**  A term may be compiled with further parameters in scope: a
literal that is written inside another one stands behind the parameters of that one, and an argument
that is written as the body of a literal stands in front of those of the literal.  Its names, types
and errors stay the same as long as none of them means one of the further parameters, and its
expression is the one that it would have without them with every slot past a place, and the base of
every literal in it, moved up.  So is its value: the further values are there and are never read.

Main definitions:
* `Expr.raise`, `Lambda.raise` — an expression and a literal with the slots from a place on, and the
  bases, moved up;
* `Scope.among` — a scope with further parameters put in at a place among its own;
* `Term.names` — the bare names of a term;
* `Settings.Avoids` — none of the names denotes one of the parameters.

Main results:
* `Scope.term_among`, `Scope.function_among` — **typing among further parameters moves the slots**,
  and fails with the same error where it fails;
* `Expr.Typed.value_raise`, `Lambda.Typed.value_raise` — **a moved expression has the same value**
  among the values of the further parameters.
-/

import LambdaQuery.Proofs.Denotation

namespace LambdaQuery

/-! ### Moved expressions -/

/-- The place of a slot when so many further ones are put in before a place. -/
def raised (cut n slot : Nat) : Nat := if slot < cut then slot else n + slot

theorem raised_of_lt {cut n slot : Nat} (h : slot < cut) : raised cut n slot = slot := if_pos h

theorem raised_of_le {cut n slot : Nat} (h : cut ≤ slot) : raised cut n slot = n + slot :=
  if_neg (Nat.not_lt.mpr h)

/-- What stands in a slot stands in the moved one when the further ones are put in. -/
theorem getElem?_raised {α : Type} (front outer back : List α) (slot : Nat) :
    (front ++ (outer ++ back))[raised front.length outer.length slot]? =
      (front ++ back)[slot]? := by
  by_cases hslot : slot < front.length
  · rw [raised_of_lt hslot, List.getElem?_append_left hslot, List.getElem?_append_left hslot]
  · have hle := Nat.not_lt.mp hslot
    rw [raised_of_le hle, List.getElem?_append_right (by omega),
      List.getElem?_append_right (by omega), List.getElem?_append_right hle]
    congr 1
    omega

mutual

/-- The expression with its slots from a place on moved up. -/
def Expr.raise (cut n : Nat) : Expr → Expr
  | .constant v t => .constant v t
  | .parameter slot t => .parameter (raised cut n slot) t
  | .field target index name t => .field (target.raise cut n) index name t
  | .key target t => .key (target.raise cut n) t
  | .convert operand t => .convert (operand.raise cut n) t
  | .unwrap operand t => .unwrap (operand.raise cut n) t
  | .unary op operand t => .unary op (operand.raise cut n) t
  | .binary op lhs rhs t => .binary op (lhs.raise cut n) (rhs.raise cut n) t
  | .cond test ifTrue ifFalse t =>
    .cond (test.raise cut n) (ifTrue.raise cut n) (ifFalse.raise cut n) t
  | .record r members => .record r (Expr.raiseAll cut n members)
  | .collection m source function argument t =>
    .collection m (source.raise cut n) (Lambda.raiseOption cut n function)
      (Expr.raiseOption cut n argument) t
  | .text m target args t => .text m (target.raise cut n) (Expr.raiseAll cut n args) t
  | .datePart part target t => .datePart part (target.raise cut n) t

def Expr.raiseAll (cut n : Nat) : List Expr → List Expr
  | [] => []
  | e :: es => e.raise cut n :: Expr.raiseAll cut n es

def Expr.raiseOption (cut n : Nat) : Option Expr → Option Expr
  | none => none
  | some e => some (e.raise cut n)

/-- The literal with its base and the slots of its body moved up likewise. -/
def Lambda.raise (cut n : Nat) : Lambda → Lambda
  | .mk base params body returns => .mk (raised cut n base) params (body.raise cut n) returns

def Lambda.raiseOption (cut n : Nat) : Option Lambda → Option Lambda
  | none => none
  | some l => some (l.raise cut n)

end

attribute [simp] Expr.raise Expr.raiseOption Lambda.raise Lambda.raiseOption

namespace Expr

variable {cut n : Nat}

@[simp] theorem raiseAll_eq_map (es : List Expr) : raiseAll cut n es = es.map (raise cut n) := by
  induction es with
  | nil => rfl
  | cons e es ih => rw [raiseAll, ih, List.map_cons]

@[simp] theorem type_raise (e : Expr) : (e.raise cut n).type = e.type := by
  cases e <;> simp only [raise, type]

theorem convertTo_raise (e : Expr) (t : Ty) :
    (e.raise cut n).convertTo t = (e.convertTo t).raise cut n := by
  rw [convertTo, convertTo, type_raise]
  split
  · rfl
  · rw [raise]

/-! ### Operators -/

theorem promoted_raise (op : BinaryOp) (lhs rhs : Expr) (result : Ty → Ty) :
    promoted op (lhs.raise cut n) (rhs.raise cut n) result =
      (promoted op lhs rhs result).map (raise cut n) := by
  rw [promoted, promoted, type_raise, type_raise]
  split
  · rw [convertTo_raise, convertTo_raise, Except.map, raise]
  · rfl

theorem ofBinary_raise (op : BinaryOp) (lhs rhs : Expr) :
    ofBinary op (lhs.raise cut n) (rhs.raise cut n) = (ofBinary op lhs rhs).map (raise cut n) := by
  unfold ofBinary
  simp only [type_raise, promoted_raise, convertTo_raise]
  cases op with
  | _ =>
    simp only
    repeat' split
    all_goals simp only [Except.map, raise]

theorem ofUnary_raise (op : UnaryOp) (operand : Expr) :
    ofUnary op (operand.raise cut n) = (ofUnary op operand).map (raise cut n) := by
  unfold ofUnary
  simp only [type_raise]
  cases op with
  | _ =>
    simp only
    split <;> simp only [Except.map, raise]

theorem expectBool_raise (e : Expr) : (e.raise cut n).expectBool = e.expectBool := by
  rw [expectBool, expectBool, type_raise]

theorem ofCond_raise (test ifTrue ifFalse : Expr) :
    ofCond (test.raise cut n) (ifTrue.raise cut n) (ifFalse.raise cut n) =
      (ofCond test ifTrue ifFalse).map (raise cut n) := by
  unfold ofCond
  simp only [type_raise, convertTo_raise]
  split <;> simp only [Except.map, raise]

end Expr

@[simp] theorem Lambda.returns_raise (l : Lambda) (n : Nat) :
    (l.raise cut n).returns = l.returns := by
  cases l
  rw [raise, returns, returns]

/-! ### Scopes with further parameters -/

/-- None of the written names denotes one of the parameters. -/
def Settings.Avoids (settings : Settings) (outer : List (String × Ty)) (names : List String) :
    Prop :=
  ∀ written ∈ names, ∀ p ∈ outer, settings.denotes written p.1 = false

namespace Scope

/-- The scope with further parameters put in at a place among its own. -/
def among (cut : Nat) (outer : List (String × Ty)) (s : Scope) : Scope :=
  { s with
    params := s.params.take cut ++ (outer ++ s.params.drop cut)
    implicit := s.implicit.map (raised cut outer.length) }

variable {cut : Nat} {outer : List (String × Ty)} {s : Scope}

/-- Slots from the place on are moved. -/
theorem findLast?_raise (settings : Settings) (written : String) (n : Nat) :
    ∀ (params : List (String × Ty)) (slot : Nat), cut ≤ slot →
      findLast? settings written (n + slot) params =
        (findLast? settings written slot params).map fun (found, t) => (raised cut n found, t) := by
  intro params
  induction params with
  | nil => exact fun _ _ => rfl
  | cons p params ih =>
      intro slot hslot
      obtain ⟨name, t⟩ := p
      rw [findLast?, findLast?, Nat.add_assoc, ih (slot + 1) (Nat.le_succ_of_le hslot)]
      cases findLast? settings written (slot + 1) params with
      | some _ => rfl
      | none =>
          simp only [Option.map_none, Option.none_or]
          split
          · rw [Option.map_some, raised_of_le hslot]
          · rfl

/-- Parameters that a name does not denote are passed over. -/
theorem findLast?_append (settings : Settings) (written : String) :
    ∀ (outer params : List (String × Ty)) (slot : Nat),
      (∀ p ∈ outer, settings.denotes written p.1 = false) →
        findLast? settings written slot (outer ++ params) =
          findLast? settings written (outer.length + slot) params := by
  intro outer params
  induction outer with
  | nil => exact fun _ _ => by rw [List.nil_append, List.length_nil, Nat.zero_add]
  | cons p outer ih =>
      intro slot h
      obtain ⟨name, t⟩ := p
      rw [List.cons_append, findLast?, ih _ fun q hq => h q (List.mem_cons_of_mem _ hq),
        h _ (List.mem_cons_self ..), List.length_cons, Nat.add_right_comm, Nat.add_assoc]
      simp

/-- Put in among others, they are passed over as well. -/
theorem findLast?_among (settings : Settings) (written : String) (outer back : List (String × Ty))
    (h : ∀ p ∈ outer, settings.denotes written p.1 = false) :
    ∀ (front : List (String × Ty)) (slot : Nat),
      findLast? settings written slot (front ++ (outer ++ back)) =
        (findLast? settings written slot (front ++ back)).map fun (found, t) =>
          (raised (slot + front.length) outer.length found, t) := by
  intro front
  induction front with
  | nil =>
      intro slot
      rw [List.nil_append, List.nil_append, findLast?_append _ _ _ _ _ h]
      exact findLast?_raise settings written outer.length back slot (Nat.le_refl _)
  | cons p front ih =>
      intro slot
      obtain ⟨name, t⟩ := p
      rw [List.cons_append, List.cons_append, findLast?, findLast?, ih (slot + 1),
        List.length_cons, Nat.add_right_comm, Nat.add_assoc]
      cases findLast? settings written (slot + 1) (front ++ back) with
      | some _ => rfl
      | none =>
          simp only [Option.map_none, Option.none_or]
          split
          · rw [Option.map_some, raised_of_lt (by omega)]
          · rfl

theorem parameter?_among (hcut : cut ≤ s.params.length) {written : String}
    (h : ∀ p ∈ outer, s.settings.denotes written p.1 = false) :
    (s.among cut outer).parameter? written =
      (s.parameter? written).map (Expr.raise cut outer.length) := by
  have hfind := findLast?_among s.settings written outer (s.params.drop cut) h (s.params.take cut) 0
  rw [List.take_append_drop, List.length_take, Nat.min_eq_left hcut, Nat.zero_add] at hfind
  show (findLast? s.settings written 0
    (s.params.take cut ++ (outer ++ s.params.drop cut))).map _ = _
  rw [hfind, parameter?, Option.map_map, Option.map_map]
  congr 1

theorem implicit?_among (hcut : cut ≤ s.params.length) :
    (s.among cut outer).implicit? = s.implicit?.map (Expr.raise cut outer.length) := by
  unfold implicit?
  cases hi : s.implicit with
  | none => simp [among, hi]
  | some slot =>
      have hslot := getElem?_raised (s.params.take cut) outer (s.params.drop cut) slot
      rw [List.length_take, Nat.min_eq_left hcut, List.take_append_drop] at hslot
      simp only [among, hi, Option.map_some, Option.bind_eq_bind, Option.bind_some, hslot]
      cases s.params[slot]? <;> rfl

theorem member?_among (target : Expr) (written : String) :
    (s.among cut outer).member? (target.raise cut outer.length) written =
      (s.member? target written).map (Expr.raise cut outer.length) := by
  have hsettings : (s.among cut outer).settings = s.settings := rfl
  unfold member?
  simp only [Expr.type_raise, hsettings]
  cases target.type with
  | record name fields =>
      rw [Option.map_map]
      rfl
  | timestamp =>
      rw [Option.map_map]
      rfl
  | _ =>
      simp only
      repeat' split
      all_goals simp [Expr.raise, Expr.raiseOption, Lambda.raiseOption, Expr.raiseAll]

theorem member_among (target : Expr) (written : String) :
    (s.among cut outer).member (target.raise cut outer.length) written =
      (s.member target written).map (Expr.raise cut outer.length) := by
  rw [member, member, member?_among, Expr.type_raise]
  cases s.member? target written <;> rfl

theorem name_among (hcut : cut ≤ s.params.length) {written : String}
    (h : ∀ p ∈ outer, s.settings.denotes written p.1 = false) :
    (s.among cut outer).name written = (s.name written).map (Expr.raise cut outer.length) := by
  have hvariable : (s.among cut outer).bindings = s.bindings := rfl
  have hconstant : ∀ v, Expr.raise cut outer.length (constantOf v) = constantOf v := fun v => by
    rw [constantOf, Expr.raise]
  unfold name
  rw [parameter?_among hcut h, implicit?_among hcut, hvariable]
  cases s.parameter? written with
  | some e => rfl
  | none =>
      cases s.implicit? with
      | none => cases s.bindings.lookup? written <;> simp [Except.map, hconstant]
      | some it =>
          simp only [Option.map_some, Option.bind_some, Option.map_none, Option.none_or,
            member?_among, Expr.type_raise]
          cases s.member? it written with
          | some e => rfl
          | none => cases s.bindings.lookup? written <;> simp [Except.map, hconstant]

theorem implicitTarget_among (hcut : cut ≤ s.params.length) (method : String) :
    (s.among cut outer).implicitTarget method =
      (s.implicitTarget method).map (Expr.raise cut outer.length) := by
  rw [implicitTarget, implicitTarget, implicit?_among hcut]
  cases s.implicit? <;> rfl

theorem collectionMethod_among (target : Expr) (written : String) :
    (s.among cut outer).collectionMethod (target.raise cut outer.length) written =
      s.collectionMethod target written := by
  rw [collectionMethod, collectionMethod, Expr.type_raise]
  rfl

theorem textMethod_among (target : Expr) (written : String) :
    (s.among cut outer).textMethod (target.raise cut outer.length) written =
      s.textMethod target written := by
  rw [textMethod, textMethod, Expr.type_raise]
  rfl

end Scope

/-! ### Methods of collections -/

namespace CollectionMethod

variable {cut n : Nat}

theorem withItem_raise (m : CollectionMethod) (source : Expr) (element : Ty) (item : Expr) :
    m.withItem (source.raise cut n) element (item.raise cut n) =
      (m.withItem source element item).map (Expr.raise cut n) := by
  unfold withItem
  simp only [Expr.type_raise, Expr.convertTo_raise]
  split <;> simp only [Except.map, Expr.raise, Lambda.raiseOption, Expr.raiseOption]

theorem withFunction_raise (m : CollectionMethod) (source : Expr) (element : Ty) (l : Lambda) :
    m.withFunction (source.raise cut n) element (l.raise cut n) =
      (m.withFunction source element l).map (Expr.raise cut n) := by
  obtain ⟨base, params, body, returns⟩ := l
  have hresult : (do
      let t ← m.resultType element returns
      pure (Expr.collection m (source.raise cut n)
        (some ((Lambda.mk base params body returns).raise cut n)) none t)) =
      (do
        let t ← m.resultType element returns
        pure (Expr.collection m source (some (.mk base params body returns)) none t)).map
          (Expr.raise cut n) := by
    refine bind_map_comm fun t => ?_
    simp only [pure, Except.pure, Except.map, Expr.raise, Lambda.raiseOption, Expr.raiseOption]
  rw [withFunction, withFunction]
  split
  · have hbool : (body.raise cut n).expectBool = body.expectBool := Expr.expectBool_raise body
    rw [Lambda.raise, Lambda.body, Lambda.body, hbool]
    exact bind_map_comm fun _ => hresult
  · exact hresult

end CollectionMethod

/-! ### Bare names -/

mutual

/-- The bare names of a term: those that are neither members nor methods nor variables behind
`@`. -/
def Term.names : Term → List String
  | .name text => [text]
  | .member target _ => target.names
  | .call target _ args => Term.namesOption target ++ Term.namesAll args
  | .binary _ lhs rhs => lhs.names ++ rhs.names
  | .unary _ operand => operand.names
  | .cond test ifTrue ifFalse => test.names ++ (ifTrue.names ++ ifFalse.names)
  | .lambda _ body => body.names
  | .record members => Term.namesOfMembers members
  | _ => []

def Term.namesOption : Option Term → List String
  | none => []
  | some t => t.names

def Term.namesAll : List Term → List String
  | [] => []
  | t :: ts => t.names ++ Term.namesAll ts

def Term.namesOfMembers : List (Option String × Term) → List String
  | [] => []
  | (_, value) :: rest => value.names ++ Term.namesOfMembers rest

end

theorem Settings.avoids_append {settings : Settings} {outer : List (String × Ty)}
    {names names' : List String} :
    settings.Avoids outer (names ++ names') ↔
      settings.Avoids outer names ∧ settings.Avoids outer names' := by
  simp only [Settings.Avoids, List.mem_append, or_imp, forall_and]

/-! ### Function literals -/

namespace Scope

variable {cut : Nat} {outer : List (String × Ty)} {s : Scope}

theorem extend_among (hcut : cut ≤ s.params.length) (params : List (String × Ty)) :
    (s.among cut outer).extend params = (s.extend params).among cut outer := by
  simp [extend, among, List.take_append_of_le_length hcut, List.drop_append_of_le_length hcut]

theorem length_params_among (hcut : cut ≤ s.params.length) :
    (s.among cut outer).params.length = raised cut outer.length s.params.length := by
  rw [raised_of_le hcut]
  simp only [among, List.length_append, List.length_take, List.length_drop]
  omega

theorem extendImplicit_among (hcut : cut ≤ s.params.length) (t : Ty) :
    (s.among cut outer).extendImplicit t = (s.extendImplicit t).among cut outer := by
  rw [extendImplicit, length_params_among hcut]
  simp [extendImplicit, among, settings, List.take_append_of_le_length hcut,
    List.drop_append_of_le_length hcut]

theorem ofBody_raise (hcut : cut ≤ s.params.length) (params : List (String × Ty)) (body : Expr) :
    Lambda.ofBody (s.among cut outer).params.length params (body.raise cut outer.length) =
      (Lambda.ofBody s.params.length params body).raise cut outer.length := by
  rw [length_params_among hcut]
  simp [Lambda.ofBody, Lambda.raise]

theorem explicit_among (hcut : cut ≤ s.params.length) {types : List Ty} {names : List String}
    (body : Scope → Except CompileError Expr)
    (h : ∀ params, body ((s.extend params).among cut outer) =
      (body (s.extend params)).map (Expr.raise cut outer.length)) :
    (s.among cut outer).explicit types names body =
      (s.explicit types names body).map (Lambda.raise cut outer.length) := by
  rw [explicit, explicit]
  split
  · rfl
  · simp only [extend_among hcut, h]
    cases body (s.extend (names.zip types)) with
    | error e => rfl
    | ok e => exact congrArg Except.ok (ofBody_raise hcut ..)

theorem bare_among (hcut : cut ≤ s.params.length) {types : List Ty}
    (body : Scope → Except CompileError Expr)
    (h : ∀ t, body ((s.extendImplicit t).among cut outer) =
      (body (s.extendImplicit t)).map (Expr.raise cut outer.length)) :
    (s.among cut outer).bare types body =
      (s.bare types body).map (Lambda.raise cut outer.length) := by
  unfold bare
  split
  · rename_i t
    simp only [extendImplicit_among hcut, h]
    cases body (s.extendImplicit t) with
    | error e => rfl
    | ok e => exact congrArg Except.ok (ofBody_raise hcut ..)
  · rfl

/-- Inside a literal the place is still among the parameters. -/
theorem le_length_extend (hcut : cut ≤ s.params.length) (params : List (String × Ty)) :
    cut ≤ (s.extend params).params.length := by
  simp only [extend, List.length_append]
  omega

theorem le_length_extendImplicit (hcut : cut ≤ s.params.length) (t : Ty) :
    cut ≤ (s.extendImplicit t).params.length :=
  le_length_extend hcut _

end Scope

theorem CollectionMethod.ofName?_name (m : CollectionMethod) (ignoreCase : Bool) :
    ofName? ignoreCase m.name = some m := by
  cases ignoreCase <;> cases m <;> decide

namespace Scope

variable {cut : Nat} {outer : List (String × Ty)} {s : Scope}

/-- The method of a name on a target that is there. -/
theorem methodOn_among {args : List Term} (text : String) (on : Expr)
    (hcollection : ∀ m element,
      (s.among cut outer).collection m (on.raise cut outer.length) element args =
        (s.collection m on element args).map (Expr.raise cut outer.length))
    (htexts : (s.among cut outer).texts args =
      (s.texts args).map (List.map (Expr.raise cut outer.length))) :
    (s.among cut outer).methodOn (on.raise cut outer.length) text args =
      (s.methodOn on text args).map (Expr.raise cut outer.length) := by
  rw [methodOn, methodOn, Expr.type_raise, collectionMethod_among, textMethod_among]
  split
  · exact bind_map_comm fun m => hcollection m _
  · refine bind_map_comm fun m => bind_map_comm fun _ => ?_
    rw [htexts]
    refine map_bind_comm fun es => ?_
    simp only [pure, Except.pure, Except.map, Expr.raise, Expr.raiseAll_eq_map]

/-- A method of a collection by its name. -/
theorem term_method {target : Term} {source : Expr} {element : Ty} (m : CollectionMethod)
    (args : List Term) (hsource : s.term target = .ok source)
    (helement : source.type.element? = some element) :
    s.term (.call (some target) m.name args) = s.collection m source element args := by
  rw [term_call_some, hsource]
  show s.methodOn source m.name args = _
  rw [methodOn, helement]
  simp only [collectionMethod, CollectionMethod.ofName?_name]
  rfl

/-- A method with one argument takes it as an item or as a function. -/
theorem collection_singleton (m : CollectionMethod) (source : Expr) (element : Ty) (arg : Term) :
    s.collection m source element [arg] =
      match m.argument? 1 with
      | some .item => s.term arg >>= m.withItem source element
      | some .predicate => s.function [element] arg >>= m.withFunction source element
      | some .selector => s.function [element] arg >>= m.withFunction source element
      | _ => .error (.argumentCount m.name 1) := by
  rw [Scope.collection]
  cases m.argument? 1 with
  | none => rfl
  | some a =>
      cases a with
      | none | item => rfl
      | predicate | selector => cases arg <;> rfl

end Scope

/-! ### Terms -/

section Terms

variable {cut : Nat} {outer : List (String × Ty)}

open Scope Settings

mutual

/-- **Typing under further parameters moves the slots** of the expression, as long as none of the
names means one of these parameters. -/
theorem Scope.term_among : ∀ (t : Term) {s : Scope}, cut ≤ s.params.length →
    s.settings.Avoids outer t.names →
    (s.among cut outer).term t = (s.term t).map (Expr.raise cut outer.length)
  | .string _, s, _, _ | .long _, s, _, _ | .float _, s, _, _ | .bool _, s, _, _
  | .null, s, _, _ => by
    simp only [Scope.term, Except.map, Expr.raise]
  | .integer n, s, _, _ => by
    simp only [Scope.term]
    split <;> simp only [Except.map, Expr.raise]
  | .name text, s, hcut, h => by
    simp only [Scope.term]
    exact name_among hcut fun p hp => h text (by simp [Term.names]) p hp
  | .positional index, s, _, _ => by
    have hvalues : (s.among cut outer).bindings = s.bindings := rfl
    simp only [Scope.term, hvalues]
    split <;> simp only [Except.map, constantOf, Expr.raise]
  | .named text, s, _, _ => by
    have hvalues : (s.among cut outer).bindings = s.bindings := rfl
    simp only [Scope.term, hvalues]
    split <;> simp only [Except.map, constantOf, Expr.raise]
  | .member target text, s, hcut, h => by
    simp only [Scope.term]
    rw [Scope.term_among target hcut (by simpa only [Term.names] using h)]
    exact map_bind_comm fun target => member_among target text
  | .call (some target) text args, s, hcut, h => by
    simp only [Term.names, Term.namesOption, avoids_append] at h
    rw [term_call_some, term_call_some, Scope.term_among target hcut h.1]
    exact map_bind_comm fun on => methodOn_among text on
      (fun m element => Scope.collection_among args m on element hcut h.2)
      (Scope.texts_among args hcut h.2)
  | .call none text args, s, hcut, h => by
    simp only [Term.names, Term.namesOption, List.nil_append] at h
    rw [term_call_none, term_call_none, implicitTarget_among hcut]
    exact map_bind_comm fun on => methodOn_among text on
      (fun m element => Scope.collection_among args m on element hcut h)
      (Scope.texts_among args hcut h)
  | .binary op lhs rhs, s, hcut, h => by
    simp only [Term.names, avoids_append] at h
    simp only [Scope.term]
    rw [Scope.term_among lhs hcut h.1, Scope.term_among rhs hcut h.2]
    exact map_bind_comm fun lhs => map_bind_comm fun rhs => Expr.ofBinary_raise op lhs rhs
  | .unary op operand, s, hcut, h => by
    simp only [Scope.term]
    rw [Scope.term_among operand hcut (by simpa only [Term.names] using h)]
    exact map_bind_comm fun operand => Expr.ofUnary_raise op operand
  | .cond test ifTrue ifFalse, s, hcut, h => by
    simp only [Term.names, avoids_append] at h
    simp only [Scope.term]
    rw [Scope.term_among test hcut h.1, Scope.term_among ifTrue hcut h.2.1,
      Scope.term_among ifFalse hcut h.2.2]
    refine map_bind_comm fun test => ?_
    rw [Expr.expectBool_raise]
    exact bind_map_comm fun _ => map_bind_comm fun ifTrue => map_bind_comm fun ifFalse =>
      Expr.ofCond_raise test ifTrue ifFalse
  | .lambda _ _, s, _, _ => by
    simp only [Scope.term, Except.map]
  | .record ms, s, hcut, h => by
    simp only [Scope.term]
    rw [Scope.members_among ms [] hcut (by simpa only [Term.names] using h)]
    refine map_bind_comm fun ms => ?_
    simp [pure, Except.pure, Except.map, Expr.raise, Function.comp_def]

termination_by t => (sizeOf t, 0)

/-- So does the typing of a function literal. -/
theorem Scope.function_among (t : Term) {s : Scope} {types : List Ty}
    (hcut : cut ≤ s.params.length) (h : s.settings.Avoids outer t.names) :
    (s.among cut outer).function types t =
      (s.function types t).map (Lambda.raise cut outer.length) := by
  unfold Scope.function
  split
  · rename_i names inside
    simp only [Term.names] at h
    exact explicit_among hcut (fun inner => inner.term inside) fun params =>
      Scope.term_among inside (le_length_extend hcut params) h
  · exact bare_among hcut (fun inner => inner.term t) fun type =>
      Scope.term_among t (le_length_extendImplicit hcut type) h
termination_by (sizeOf t, 1)

/-- So does that of a method of a collection. -/
theorem Scope.collection_among : ∀ (args : List Term) {s : Scope} (m : CollectionMethod)
    (source : Expr) (element : Ty), cut ≤ s.params.length →
    s.settings.Avoids outer (Term.namesAll args) →
    (s.among cut outer).collection m (source.raise cut outer.length) element args =
      (s.collection m source element args).map (Expr.raise cut outer.length)
  | [], s, m, source, element, _, _ => by
    simp only [Scope.collection]
    split
    · refine bind_map_comm fun t => ?_
      simp only [pure, Except.pure, Except.map, Expr.raise, Lambda.raiseOption, Expr.raiseOption]
    · rfl
  | [arg], s, m, source, element, hcut, h => by
    simp only [Term.namesAll, List.append_nil] at h
    rw [collection_singleton, collection_singleton]
    split
    · rw [Scope.term_among arg hcut h]
      exact map_bind_comm fun item => CollectionMethod.withItem_raise m source element item
    · rw [Scope.function_among arg hcut h]
      exact map_bind_comm fun l => CollectionMethod.withFunction_raise m source element l
    · rw [Scope.function_among arg hcut h]
      exact map_bind_comm fun l => CollectionMethod.withFunction_raise m source element l
    · rfl
  | _ :: _ :: args, s, m, source, element, _, _ => by
    simp only [Scope.collection, Except.map]

termination_by args => (sizeOf args, 0)

theorem Scope.texts_among : ∀ (args : List Term) {s : Scope}, cut ≤ s.params.length →
    s.settings.Avoids outer (Term.namesAll args) →
    (s.among cut outer).texts args = (s.texts args).map (List.map (Expr.raise cut outer.length))
  | [], s, _, _ => by
    simp only [Scope.texts, Except.map, List.map_nil]
  | arg :: rest, s, hcut, h => by
    simp only [Term.namesAll, avoids_append] at h
    simp only [Scope.texts]
    rw [Scope.term_among arg hcut h.1, Scope.texts_among rest hcut h.2]
    refine map_bind_comm fun e => ?_
    rw [Expr.type_raise]
    split
    · exact map_bind_comm fun es => rfl
    · rfl

termination_by args => (sizeOf args, 0)

theorem Scope.members_among : ∀ (ms : List (Option String × Term)) {s : Scope}
    (before : List String), cut ≤ s.params.length →
    s.settings.Avoids outer (Term.namesOfMembers ms) →
    (s.among cut outer).members before ms =
      (s.members before ms).map (List.map fun (name, e) => (name, e.raise cut outer.length))
  | [], s, before, _, _ => by
    simp only [Scope.members, Except.map, List.map_nil]
  | (written, value) :: rest, s, before, hcut, h => by
    simp only [Term.namesOfMembers, avoids_append] at h
    simp only [Scope.members]
    rw [Scope.term_among value hcut h.1]
    refine bind_map_comm fun name => map_bind_comm fun e => ?_
    rw [Scope.members_among rest _ hcut h.2]
    exact map_bind_comm fun ms => rfl
termination_by ms => (sizeOf ms, 0)

end

end Terms

/-! ### Values -/

section Values

variable {C : Value → Ty → Prop} {Γ : List Ty} {front outer back : List Value}

theorem slotValue_raised {slot : Nat} (h : slot < (front ++ back).length) :
    slotValue (front ++ (outer ++ back)) (raised front.length outer.length slot) =
      slotValue (front ++ back) slot := by
  unfold slotValue
  rw [getElem?_raised, List.getElem?_eq_getElem h]

/-- A moved literal has the same value if its body has. -/
theorem Lambda.value_raise {l : Lambda} {args : List Value} (hb : l.base = (front ++ back).length)
    (hbody : args.length = l.params.length →
      (l.body.raise front.length outer.length).value (front ++ (outer ++ (back ++ args))) =
        l.body.value (front ++ (back ++ args))) :
    (l.raise front.length outer.length).value (front ++ (outer ++ back)) args =
      l.value (front ++ back) args := by
  obtain ⟨base, params, body, returns⟩ := l
  simp only [Lambda.base] at hb
  subst hb
  have hbase : raised front.length outer.length (front ++ back).length =
      (front ++ (outer ++ back)).length := by
    rw [raised_of_le (by simp)]
    simp only [List.length_append]
    omega
  rw [Lambda.raise, Lambda.value, Lambda.value, hbase]
  split
  · rename_i hl
    rw [List.take_length, List.take_length, List.append_assoc, List.append_assoc, List.append_assoc]
    exact hbody hl
  · rfl

theorem Expr.values_raise {es : List Expr}
    (h : ∀ e ∈ es, (e.raise front.length outer.length).value (front ++ (outer ++ back)) =
      e.value (front ++ back)) :
    Expr.values (front ++ (outer ++ back)) (es.map (Expr.raise front.length outer.length)) =
      Expr.values (front ++ back) es := by
  induction es with
  | nil => rfl
  | cons e es ih =>
      rw [List.map_cons, Expr.values, Expr.values, h e (List.mem_cons_self ..),
        ih fun e' he' => h e' (List.mem_cons_of_mem _ he')]

/-- **A moved expression has the same value** among the values of further parameters.  The induction
is on the rules of typing, which keep the slots below the number of parameters; the values behind
the further ones grow with the literals around. -/
theorem Expr.Typed.value_raise {e : Expr} (h : e.Typed C Γ) :
    ∀ {back : List Value}, (front ++ back).length = Γ.length →
      (e.raise front.length outer.length).value (front ++ (outer ++ back)) =
        e.value (front ++ back) := by
  induction h with
  | constant _ =>
      intro back _
      rw [Expr.raise, Expr.value, Expr.value]
  | parameter h =>
      intro back hl
      rw [Expr.raise, Expr.value, Expr.value]
      refine slotValue_raised ?_
      rw [hl]
      exact (List.getElem?_eq_some_iff.mp h).1
  | field _ _ _ ih | key _ _ ih | convert _ _ ih | unwrap _ _ ih | negate _ _ ih | not _ _ ih
  | datePart _ _ ih =>
      intro back hl
      rw [Expr.raise, Expr.value, Expr.value, ih hl]
  | concat _ _ ihl ihr =>
      intro back hl
      rw [Expr.raise, Expr.value, Expr.value, ihl hl, ihr hl]
  | logic _ _ _ _ _ ihl ihr =>
      intro back hl
      rw [Expr.raise, Expr.value, Expr.value, ihl hl, ihr hl]
  | arithmetic _ _ _ _ _ _ ihl ihr =>
      intro back hl
      rw [Expr.raise, Expr.value, Expr.value, ihl hl, ihr hl]
  | comparison _ _ _ ihl ihr =>
      intro back hl
      rw [Expr.raise, Expr.value, Expr.value, ihl hl, ihr hl]
  | @coalesce _ lhs rhs t _ _ _ _ ihl ihr =>
      intro back hl
      have hlhs : ((lhs.convertTo t).raise front.length outer.length).value
          (front ++ (outer ++ back)) = (lhs.convertTo t).value (front ++ back) := by
        unfold Expr.convertTo
        split
        · exact ihl hl
        · rw [Expr.raise, Expr.value, Expr.value, ihl hl]
      rw [Expr.raise, Expr.value, Expr.value, hlhs, ihr hl]
  | cond _ _ _ _ _ _ iht ih1 ih2 =>
      intro back hl
      rw [Expr.raise, Expr.value, Expr.value, iht hl, ih1 hl, ih2 hl]
  | record _ _ ih =>
      intro back hl
      rw [Expr.raise, Expr.raiseAll_eq_map, Expr.value, Expr.value,
        Expr.values_raise fun e he => ih e he hl]
  | bareMethod _ _ _ _ ih =>
      intro back hl
      rw [Expr.raise, Expr.value, Expr.value, ih hl, Expr.type_raise, Lambda.raiseOption,
        Expr.raiseOption]
      rfl
  | itemMethod _ _ _ ihs ihi =>
      intro back hl
      rw [Expr.raise, Expr.value, Expr.value, ihs hl, Expr.type_raise, Lambda.raiseOption,
        Expr.raiseOption, Expr.valueOption, Expr.valueOption, ihi hl]
      rfl
  | @functionMethod Γ _ _ element _ name body _ _ _ _ _ ihs ihb =>
      intro back hl
      have hvalue : ∀ v, ((Lambda.ofBody Γ.length [(name, element)] body).raise front.length
          outer.length).value (front ++ (outer ++ back)) [v] =
          (Lambda.ofBody Γ.length [(name, element)] body).value (front ++ back) [v] :=
        fun v => Lambda.value_raise hl.symm fun _ => ihb (by simp [← hl, Nat.add_assoc])
      rw [Expr.raise, Expr.value, Expr.value, ihs hl, Expr.type_raise, Lambda.raiseOption,
        Expr.raiseOption, Lambda.valueOption, Lambda.valueOption, funext hvalue]
      rfl
  | length _ _ ih =>
      intro back hl
      rw [Expr.raise, Expr.value, Expr.value, ih hl]
      rfl
  | text _ _ _ _ _ _ ih iha =>
      intro back hl
      rw [Expr.raise, Expr.raiseAll_eq_map, Expr.value, Expr.value, ih hl,
        Expr.values_raise fun e he => iha e he hl]

/-- **A moved literal has the same value** on the same arguments. -/
theorem Lambda.Typed.value_raise {l : Lambda} (h : l.Typed C Γ)
    (hl : (front ++ back).length = Γ.length) (args : List Value) :
    (l.raise front.length outer.length).value (front ++ (outer ++ back)) args =
      l.value (front ++ back) args :=
  Lambda.value_raise (h.base.trans hl.symm) fun ha =>
    h.body.value_raise (by simp [← hl, ha, Lambda.paramTypes, Nat.add_assoc])

end Values

end LambdaQuery
