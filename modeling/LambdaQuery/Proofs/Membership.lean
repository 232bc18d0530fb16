/-
**Membership is some equality.**  `xs.Contains(y)` evaluates its argument once, brought to the type
that it has in common with the elements, and leaves the elements as they are.  `xs.Any(x => x == y)`
evaluates it for every element, in the scope of one more parameter, and brings both sides to the
common type.  They agree because an integer is equal to a wider number just when it is after it has
been widened.

That takes a value of the argument that conforms to its type.  Nothing is asked of the elements.

Main definitions:
* `Term.containsCall`, `Term.anyEqual` — the two calls;
* `Expr.equality` — the equality of two expressions in their common type;
* `Expr.SameAnswer` — two expressions evaluate to one boolean.

Main results:
* `Value.looselyEqual_convert` — a value that is not widened is equal to the same widened numbers;
* `Scope.term_containsCall_iff`, `Scope.term_anyEqual_iff` — when the calls compile, and to what;
* `Expr.value_contains`, `Expr.value_anyEqual` — what they evaluate to;
* `Scope.contains_agrees_any` — **the two calls compile together and agree**.
-/

import LambdaQuery.Proofs.ExprSoundness
import LambdaQuery.Proofs.FurtherParameters
import LambdaQuery.Proofs.NameLookup

namespace LambdaQuery

/-! ### Values -/

/-- A value is equal to a widened one just when it is after it has been widened itself. -/
theorem Value.looselyEqual_convert {s t : Ty} {w : Value} (v : Value) (hw : w.conforms s = true)
    (h : s.Widens t) : (v.convert t).looselyEqual (w.convert t) = v.looselyEqual (w.convert t) := by
  have hconforms := Value.conforms_convert hw h
  have hbase := t.base_underlying
  generalize w.convert t = w' at hconforms ⊢
  -- beside a double the comparison widens the other number itself, beside integers nothing is lost
  unfold Value.convert
  split
  · rename_i n hu
    rw [hu] at hbase
    rcases (conforms_double_iff hbase.symm).mp hconforms with ⟨rfl, -⟩ | ⟨x, rfl⟩ <;> rfl
  · rename_i n hu
    rw [hu] at hbase
    rcases (conforms_double_iff hbase.symm).mp hconforms with ⟨rfl, -⟩ | ⟨x, rfl⟩ <;> rfl
  · rename_i n hu
    rw [hu] at hbase
    rcases (conforms_long_iff hbase.symm).mp hconforms with ⟨rfl, -⟩ | ⟨m, rfl⟩
    · rfl
    · simp [looselyEqual, isNumeric, compare, compareNumbers, toInt64?]
  · rfl

/-- To a type that is no number nothing is widened. -/
theorem Value.convert_of_not_isNumeric {t : Ty} (h : t.isNumeric = false) (v : Value) :
    v.convert t = v := by
  unfold Value.convert
  split
  · rename_i hu
    simp [Ty.isNumeric, Ty.numericRank?, hu] at h
  · rename_i hu
    simp [Ty.isNumeric, Ty.numericRank?, hu] at h
  · rename_i hu
    simp [Ty.isNumeric, Ty.numericRank?, hu] at h
  · rfl

/-- What a method works on are the elements, if there are any. -/
theorem Value.itemsFor_of_elements {v : Value} {items : List Value} {m : CollectionMethod}
    (h : v.elements? = some items) : v.itemsFor m = .ok items := by
  cases v with
  | sequence vs | grouping k vs =>
      cases h
      rfl
  | _ => cases h

/-! ### The two calls -/

/-- `xs.Contains(y)`. -/
def Term.containsCall (xs y : Term) : Term := .call (some xs) "Contains" [y]

/-- `xs.Any(x => x == y)`. -/
def Term.anyEqual (xs : Term) (x : String) (y : Term) : Term :=
  .call (some xs) "Any" [.lambda [x] (.binary .equal (.name x) y)]

/-- The equality of two expressions in their common type. -/
def Expr.equality (t : Ty) (lhs rhs : Expr) : Expr :=
  if t.isNumeric then .binary .equal (lhs.convertTo t) (rhs.convertTo t) .bool
  else .binary .equal lhs rhs .bool

theorem Expr.ofBinary_equal_eq_ok {lhs rhs e : Expr} :
    ofBinary .equal lhs rhs = .ok e ↔
      ∃ t, Ty.unify lhs.type rhs.type = some t ∧ e = equality t lhs rhs := by
  simp only [ofBinary, equality]
  cases Ty.unify lhs.type rhs.type with
  | none => simp
  | some t =>
      simp only [Option.some.injEq, exists_eq_left']
      split <;> exact ⟨fun h => (Except.ok.inj h).symm, fun h => h ▸ rfl⟩

@[simp] theorem Expr.type_equality (t : Ty) (lhs rhs : Expr) :
    (equality t lhs rhs).type = .bool := by
  rw [equality]
  split <;> rfl

theorem CollectionMethod.any_withFunction {source body : Expr} {element : Ty} {base : Nat}
    {params : List (String × Ty)} (h : body.type = .bool) :
    any.withFunction source element (.ofBody base params body) =
      .ok (.collection .any source (some (.ofBody base params body)) none .bool) := by
  have hargument : any.argument? 1 = some .predicate := rfl
  have hbool : (Lambda.ofBody base params body).body.expectBool = .ok () := if_pos h
  rw [withFunction, if_pos hargument, hbool]
  rfl

namespace Scope

variable {s : Scope} {xs y : Term} {x : String} {source c a : Expr} {element : Ty}

/-- With further parameters behind all others, nothing that is there moves. -/
theorem extend_eq_among (hslot : ∀ slot, s.implicit = some slot → slot < s.params.length)
    (params : List (String × Ty)) : s.extend params = s.among s.params.length params := by
  have himplicit : s.implicit.map (raised s.params.length params.length) = s.implicit := by
    cases hs : s.implicit with
    | none => rfl
    | some slot => rw [Option.map_some, raised_of_lt (hslot slot hs)]
  rw [extend, among, himplicit, List.take_length, List.drop_length, List.append_nil]

/-- The parameter that comes last is the one that its name denotes. -/
theorem term_last (s : Scope) (x : String) (t : Ty) :
    (s.extend [(x, t)]).term (.name x) = .ok (.parameter s.params.length t) := by
  have hparameter : (s.extend [(x, t)]).parameter? x = some (.parameter s.params.length t) := by
    have hi : (s.params ++ [(x, t)])[s.params.length]? = some (x, t) := by simp
    have hfind := (findLast?_eq_some_iff hi (s.settings.denotes_self x) 0).mpr (by simp)
    rw [Nat.zero_add] at hfind
    show (findLast? s.settings x 0 (s.params ++ [(x, t)])).map _ = _
    rw [hfind]
    rfl
  rw [term, name, hparameter]
  rfl

theorem term_containsCall_iff (hsource : s.term xs = .ok source)
    (helement : source.type.element? = some element) :
    s.term (.containsCall xs y) = .ok c ↔
      ∃ item t, s.term y = .ok item ∧ Ty.unify element item.type = some t ∧
        c = .collection .contains source none (some (item.convertTo t)) .bool := by
  have hcall : s.term (.containsCall xs y) =
      s.term y >>= CollectionMethod.contains.withItem source element :=
    (term_method .contains [y] hsource helement).trans (collection_singleton ..)
  rw [hcall, bind_eq_ok]
  refine exists_congr fun item => ?_
  rw [CollectionMethod.withItem]
  cases Ty.unify element item.type with
  | none => simp
  | some t => simp [eq_comm]

theorem term_anyEqual_iff (hslot : ∀ slot, s.implicit = some slot → slot < s.params.length)
    (hsource : s.term xs = .ok source) (helement : source.type.element? = some element)
    (hfresh : s.settings.Avoids [(x, element)] y.names) :
    s.term (.anyEqual xs x y) = .ok a ↔
      ∃ item t, s.term y = .ok item ∧ Ty.unify element item.type = some t ∧
        a = .collection .any source
          (some (.ofBody s.params.length [(x, element)]
            (Expr.equality t (.parameter s.params.length element)
              (item.raise s.params.length 1)))) none .bool := by
  have hcall : s.term (.anyEqual xs x y) =
      s.function [element] (.lambda [x] (.binary .equal (.name x) y)) >>=
        CollectionMethod.any.withFunction source element :=
    (term_method .any _ hsource helement).trans (collection_singleton ..)
  have hy : (s.extend [(x, element)]).term y =
      (s.term y).map (Expr.raise s.params.length 1) := by
    rw [extend_eq_among hslot]
    exact term_among y (Nat.le_refl _) hfresh
  have hbody : (s.extend [(x, element)]).term (.binary .equal (.name x) y) =
      (s.term y).map (Expr.raise s.params.length 1) >>=
        Expr.ofBinary .equal (.parameter s.params.length element) := by
    rw [term, term_last, hy]
    rfl
  have hfunction : s.function [element] (.lambda [x] (.binary .equal (.name x) y)) =
      ((s.term y).map (Expr.raise s.params.length 1) >>=
        Expr.ofBinary .equal (.parameter s.params.length element)).map
          (.ofBody s.params.length [(x, element)]) := by
    rw [← hbody]
    rfl
  rw [hcall, hfunction, bind_eq_ok]
  constructor
  · rintro ⟨l, hl, ha⟩
    obtain ⟨body, hbody, rfl⟩ := map_eq_ok.mp hl
    obtain ⟨moved, hmoved, hequal⟩ := bind_eq_ok.mp hbody
    obtain ⟨item, hitem, rfl⟩ := map_eq_ok.mp hmoved
    obtain ⟨t, ht, rfl⟩ := Expr.ofBinary_equal_eq_ok.mp hequal
    rw [Expr.type_raise] at ht
    rw [CollectionMethod.any_withFunction (Expr.type_equality ..)] at ha
    exact ⟨item, t, hitem, ht, (Except.ok.inj ha).symm⟩
  · rintro ⟨item, t, hitem, ht, rfl⟩
    have hequal : Expr.ofBinary .equal (.parameter s.params.length element)
        (item.raise s.params.length 1) = .ok (Expr.equality t (.parameter s.params.length element)
          (item.raise s.params.length 1)) :=
      Expr.ofBinary_equal_eq_ok.mpr ⟨t, by rwa [Expr.type_raise], rfl⟩
    exact ⟨_, map_eq_ok.mpr ⟨_, bind_eq_ok.mpr ⟨_, map_eq_ok.mpr ⟨item, hitem, rfl⟩, hequal⟩, rfl⟩,
      CollectionMethod.any_withFunction (Expr.type_equality ..)⟩

end Scope

/-! ### Their values -/

namespace Expr

variable {source item : Expr} {element t : Ty} {env items : List Value} {v w : Value}
  {C : Value → Ty → Prop} {Γ : List Ty} {name : String}

/-- Both expressions evaluate to the same boolean. -/
def SameAnswer (c a : Expr) (frame : Frame) : Prop :=
  ∃ answer, (c.eval.run frame).1 = .ok (.bool answer) ∧ (a.eval.run frame).1 = .ok (.bool answer)

/-- What is widened to the common type evaluates to its value widened. -/
theorem value_convertTo_of_conforms (hw : item.value env = .ok w)
    (hconforms : w.conforms item.type = true) :
    (item.convertTo t).value env = .ok (w.convert t) := by
  rw [convertTo]
  split
  · rename_i ht
    rw [hw, Value.convert_of_conforms (ht ▸ hconforms)]
  · rw [value, hw]
    rfl

theorem value_contains (hsource : source.value env = .ok v) (hitems : v.elements? = some items)
    (hw : item.value env = .ok w) (hconforms : w.conforms item.type = true) :
    (collection .contains source none (some (item.convertTo t)) .bool).value env =
      .ok (.bool (items.any fun u => u.looselyEqual (w.convert t))) := by
  have hargument : valueOption env (some (item.convertTo t)) = .ok (some (w.convert t)) := by
    rw [valueOption, value_convertTo_of_conforms hw hconforms]
    rfl
  rw [value, hsource]
  show (v.itemsFor .contains >>= _) = _
  rw [Value.itemsFor_of_elements hitems, hargument]
  rfl

/-- An element beside a value that is widened, whether the element is widened or not. -/
theorem value_equality (hitem : item.Typed C Γ) (henv : env.length = Γ.length)
    (hw : item.value env = .ok w) (hconforms : w.conforms item.type = true)
    (ht : Ty.unify element item.type = some t) (u : Value) :
    (equality t (.parameter env.length element) (item.raise env.length 1)).value (env ++ [u]) =
      .ok (.bool (u.looselyEqual (w.convert t))) := by
  have hslot : (parameter env.length element).value (env ++ [u]) = .ok u := by
    simp [value, slotValue]
  have hraised : (item.raise env.length 1).value (env ++ [u]) = .ok w := by
    have hlength : (env ++ []).length = Γ.length := by rw [List.append_nil, henv]
    have hmoved : (item.raise env.length [u].length).value (env ++ ([u] ++ [])) =
        item.value (env ++ []) := hitem.value_raise hlength
    rw [List.append_nil, List.append_nil] at hmoved
    exact hmoved.trans hw
  rw [equality]
  split
  · have hwidened : ((item.raise env.length 1).convertTo t).value (env ++ [u]) =
        .ok (w.convert t) :=
      value_convertTo_of_conforms hraised (by rwa [type_raise])
    rw [convertTo]
    split
    · rw [value, hslot, hwidened]
      rfl
    · rw [value, value, hslot, hwidened]
      exact congrArg (fun answer => Except.ok (Value.bool answer))
        (Value.looselyEqual_convert u hconforms (Ty.widens_of_unify ht).2)
  · rename_i hnumeric
    rw [value, hslot, hraised, Value.convert_of_not_isNumeric (Bool.eq_false_iff.mpr hnumeric)]
    rfl

/-- A condition that does not fail is met by some element. -/
theorem apply_any {f : Value → Except EvalError Value} {answer : Value → Bool}
    (h : ∀ u, f u = .ok (.bool (answer u))) (element result : Ty) (items : List Value) :
    CollectionMethod.any.apply items (some f) none element result =
      .ok (.bool (items.any answer)) := by
  have hcondition (u : Value) : CollectionMethod.condition f u = .ok (answer u) := by
    rw [CollectionMethod.condition, h]
    rfl
  have hkeep : CollectionMethod.any.prepare items (some f) = .ok (items.filter answer) := by
    have hnarrows : CollectionMethod.any.narrows = true := rfl
    rw [CollectionMethod.prepare, if_pos hnarrows]
    exact Each.keep_eq_ok fun u _ => hcondition u
  have hfound : (!(items.filter answer).isEmpty) = items.any answer := by
    rw [Bool.eq_iff_iff]
    simp
  rw [CollectionMethod.apply_eq (by decide), hkeep, ← hfound]
  rfl

theorem value_anyEqual (hsource : source.value env = .ok v) (hitems : v.elements? = some items)
    (hitem : item.Typed C Γ) (henv : env.length = Γ.length) (hw : item.value env = .ok w)
    (hconforms : w.conforms item.type = true) (ht : Ty.unify element item.type = some t) :
    (collection .any source (some (.ofBody env.length [(name, element)]
      (equality t (.parameter env.length element) (item.raise env.length 1)))) none .bool).value
        env = .ok (.bool (items.any fun u => u.looselyEqual (w.convert t))) := by
  have hliteral (u : Value) : Lambda.value env (.ofBody env.length [(name, element)]
      (equality t (.parameter env.length element) (item.raise env.length 1))) [u] =
        .ok (.bool (u.looselyEqual (w.convert t))) := by
    have hlength : [u].length = [(name, element)].length := rfl
    rw [Lambda.ofBody, Lambda.value, if_pos hlength, List.take_length]
    exact value_equality hitem henv hw hconforms ht u
  rw [value, hsource]
  show (v.itemsFor .any >>= _) = _
  rw [Value.itemsFor_of_elements hitems]
  exact apply_any hliteral _ _ items

end Expr

/-! ### Agreement -/

theorem Expr.value_collection_of_null {m : CollectionMethod} {source : Expr} {function argument}
    {t : Ty} {env : List Value} (hsource : source.value env = .ok .null) :
    (collection m source function argument t).value env = .error (.nullReference m.name) := by
  rw [value, hsource]
  rfl

namespace Scope

variable {s : Scope} {xs y : Term} {x : String} {source item c a : Expr} {element : Ty}
  {env items : List Value} {v w : Value}

/-- Both calls compile when the argument does and has a type in common with the elements. -/
theorem isOk_containsCall_eq (hslot : ∀ slot, s.implicit = some slot → slot < s.params.length)
    (hsource : s.term xs = .ok source) (helement : source.type.element? = some element)
    (hfresh : s.settings.Avoids [(x, element)] y.names) :
    (s.term (.containsCall xs y)).isOk = (s.term (.anyEqual xs x y)).isOk := by
  rw [Bool.eq_iff_iff, isOk_iff, isOk_iff]
  constructor
  · rintro ⟨c, hc⟩
    obtain ⟨item, t, hitem, ht, -⟩ := (term_containsCall_iff hsource helement).mp hc
    exact ⟨_, (term_anyEqual_iff hslot hsource helement hfresh).mpr ⟨item, t, hitem, ht, rfl⟩⟩
  · rintro ⟨a, ha⟩
    obtain ⟨item, t, hitem, ht, -⟩ := (term_anyEqual_iff hslot hsource helement hfresh).mp ha
    exact ⟨_, (term_containsCall_iff hsource helement).mpr ⟨item, t, hitem, ht, rfl⟩⟩

/-- For elements and a value that conforms to its type both calls have one value. -/
theorem values_agree (hslot : ∀ slot, s.implicit = some slot → slot < s.params.length)
    (hsource : s.term xs = .ok source) (helement : source.type.element? = some element)
    (hfresh : s.settings.Avoids [(x, element)] y.names) (hitem : s.term y = .ok item)
    (hc : s.term (.containsCall xs y) = .ok c) (ha : s.term (.anyEqual xs x y) = .ok a)
    (henv : env.length = s.params.length) (hv : source.value env = .ok v)
    (hitems : v.elements? = some items) (hw : item.value env = .ok w)
    (hconforms : w.conforms item.type = true) :
    ∃ answer, c.value env = .ok (.bool answer) ∧ a.value env = .ok (.bool answer) := by
  obtain ⟨_, t, hsame, ht, rfl⟩ := (term_containsCall_iff hsource helement).mp hc
  obtain rfl := Except.ok.inj (hitem.symm.trans hsame)
  obtain ⟨_, u, hsame, hu, rfl⟩ := (term_anyEqual_iff hslot hsource helement hfresh).mp ha
  obtain rfl := Except.ok.inj (hitem.symm.trans hsame)
  obtain rfl := Option.some.inj (ht.symm.trans hu)
  have htyped : item.Typed (fun _ _ => True) s.types :=
    term_typed y ⟨fun _ _ _ => trivial, fun _ _ => trivial, fun _ _ => trivial⟩ hitem
  have hlength : env.length = s.types.length := by rw [henv, types, List.length_map]
  refine ⟨_, Expr.value_contains hv hitems hw hconforms, ?_⟩
  rw [← henv]
  exact Expr.value_anyEqual hv hitems htyped hlength hw hconforms ht

/-- **Membership is some equality.**  For a collection and a name that no bare name in the argument
denotes, the two calls compile together.  In a frame that has the parameters in scope, where the
collection and the argument have values, both fail if there is null for the collection, and both
give one boolean if there are elements and the value of the argument conforms to its type.  It does
when the parameters belong to their types and the bound values to their own. -/
theorem contains_agrees_any (hslot : ∀ slot, s.implicit = some slot → slot < s.params.length)
    (hsource : s.term xs = .ok source) (helement : source.type.element? = some element)
    (hfresh : s.settings.Avoids [(x, element)] y.names) :
    (s.term (.containsCall xs y)).isOk = (s.term (.anyEqual xs x y)).isOk ∧
    ∀ {c a item : Expr}, s.term (.containsCall xs y) = .ok c →
      s.term (.anyEqual xs x y) = .ok a → s.term y = .ok item →
      ∀ {env : List Value} {frame : Frame} {v w : Value}, env.length = s.params.length →
        env <+: frame → (source.eval.run frame).1 = .ok v → (item.eval.run frame).1 = .ok w →
        (v = .null → (c.eval.run frame).1 = .error (.nullReference "Contains") ∧
          (a.eval.run frame).1 = .error (.nullReference "Any")) ∧
        (∀ items, v.elements? = some items → w.conforms item.type = true →
          c.SameAnswer a frame) ∧
        (s.bindings.All (fun u => u.Belongs u.typeOf) → Environment s.types env → v ≠ .null →
          c.SameAnswer a frame) := by
  refine ⟨isOk_containsCall_eq hslot hsource helement hfresh, ?_⟩
  intro c a item hc ha hitem env frame v w henv hframe hv hw
  have hlength : env.length = s.types.length := by rw [henv, types, List.length_map]
  have hrun {u : Term} {e : Expr} (h : s.term u = .ok e) :
      (e.eval.run frame).1 = e.value env := by
    have htyped : e.Typed (fun _ _ => True) s.types :=
      term_typed u ⟨fun _ _ _ => trivial, fun _ _ => trivial, fun _ _ => trivial⟩ h
    exact htyped.run_eval hlength hframe
  rw [hrun hsource] at hv
  rw [hrun hitem] at hw
  rw [Expr.SameAnswer, hrun hc, hrun ha]
  have agree (items : List Value) (hitems : v.elements? = some items)
      (hconforms : w.conforms item.type = true) :
      ∃ answer, c.value env = .ok (.bool answer) ∧ a.value env = .ok (.bool answer) :=
    values_agree hslot hsource helement hfresh hitem hc ha henv hv hitems hw hconforms
  refine ⟨?_, agree, ?_⟩
  · rintro rfl
    obtain ⟨_, _, -, -, rfl⟩ := (term_containsCall_iff hsource helement).mp hc
    obtain ⟨_, _, -, -, rfl⟩ := (term_anyEqual_iff hslot hsource helement hfresh).mp ha
    exact ⟨Expr.value_collection_of_null hv, Expr.value_collection_of_null hv⟩
  · intro hbound hparams hv'
    have hgrants : s.Grants Value.Belongs := ⟨fun _ _ h => h, hbound⟩
    obtain rfl | ⟨items, hitems, -⟩ :=
      ((term_typed xs hgrants hsource).belongs hparams hv).elements helement
    · exact absurd rfl hv'
    · exact agree items hitems ((term_typed y hgrants hitem).belongs hparams hw).conforms

/-- A number among nullable ones of another width. -/
theorem contains_agrees_any_nullable :
    let s : Scope := ⟨.empty, [("xs", .list (.nullable .long)), ("y", .int)], none⟩
    ∃ c a, s.term (.containsCall (.name "xs") (.name "y")) = .ok c ∧
      s.term (.anyEqual (.name "xs") "x" (.name "y")) = .ok a ∧
      c.SameAnswer a [.sequence [.long 1, .null, .long 2], .int 2] := by
  intro s
  have hxs : s.term (.name "xs") = .ok (.parameter 0 (.list (.nullable .long))) := rfl
  have hy : s.term (.name "y") = .ok (.parameter 1 .int) := rfl
  have hslot : ∀ slot, s.implicit = some slot → slot < s.params.length := fun _ h => by cases h
  have hfresh : s.settings.Avoids [("x", .nullable .long)] (Term.name "y").names := by
    intro written hw p hp
    obtain rfl := List.mem_singleton.mp hw
    obtain rfl := List.mem_singleton.mp hp
    decide
  obtain ⟨hcompile, hagree⟩ := contains_agrees_any hslot hxs rfl hfresh
  obtain ⟨c, hc⟩ : ∃ c, s.term (.containsCall (.name "xs") (.name "y")) = .ok c := ⟨_, rfl⟩
  rw [hc] at hcompile
  obtain ⟨a, ha⟩ := isOk_iff.mp hcompile.symm
  have hbound : s.bindings.All fun u => u.Belongs u.typeOf :=
    ⟨fun _ h => absurd h List.not_mem_nil, fun _ h => absurd h List.not_mem_nil⟩
  let frame : Frame := [.sequence [.long 1, .null, .long 2], .int 2]
  have hframe : Environment s.types frame := .cons ⟨rfl, rfl⟩ (.cons (.int 2) .nil)
  have hv : ((Expr.parameter 0 (.list (.nullable .long))).eval.run frame).1 =
      .ok (.sequence [.long 1, .null, .long 2]) := rfl
  have hw : ((Expr.parameter 1 .int).eval.run frame).1 = .ok (.int 2) := rfl
  obtain ⟨-, -, hsame⟩ := hagree hc ha hy rfl (List.prefix_refl frame) hv hw
  exact ⟨c, a, hc, ha, hsame hbound hframe Value.noConfusion⟩

/-- The calls differ on a bound value that does not belong to its own type, where only `==` widens
the element, and on a name that denotes the new parameter when case is ignored.  Neither gives an
answer on null. -/
theorem contains_differs_from_any :
    let mixed : Bindings := { Bindings.empty with
      values := [.sequence [.long 9007199254740992],
        .sequence [.double (Double.ofInt 1), .long 9007199254740993]] }
    let ignoring : Bindings := { Bindings.empty with settings := ⟨true, "it"⟩ }
    let last : Term := .call (some (.positional 1)) "Last" []
    (∃ c a, Scope.term ⟨mixed, [], none⟩ (.containsCall (.positional 0) last) = .ok c ∧
      Scope.term ⟨mixed, [], none⟩ (.anyEqual (.positional 0) "x" last) = .ok a ∧
      (c.eval.run []).1 = .ok (.bool false) ∧ (a.eval.run []).1 = .ok (.bool true)) ∧
    (∃ c a, Scope.term ⟨ignoring, [("xs", .list .int), ("X", .int)], none⟩
        (.containsCall (.name "xs") (.name "X")) = .ok c ∧
      Scope.term ⟨ignoring, [("xs", .list .int), ("X", .int)], none⟩
        (.anyEqual (.name "xs") "x" (.name "X")) = .ok a ∧
      (c.eval.run [.sequence [.int 1], .int 2]).1 = .ok (.bool false) ∧
      (a.eval.run [.sequence [.int 1], .int 2]).1 = .ok (.bool true)) ∧
    ∃ c a, Scope.term ⟨.empty, [("xs", .list .int)], none⟩
        (.containsCall (.name "xs") (.integer 1)) = .ok c ∧
      Scope.term ⟨.empty, [("xs", .list .int)], none⟩
        (.anyEqual (.name "xs") "x" (.integer 1)) = .ok a ∧
      (c.eval.run [.null]).1 = .error (.nullReference "Contains") ∧
      (a.eval.run [.null]).1 = .error (.nullReference "Any") := by
  intro mixed ignoring last
  exact ⟨⟨_, _, rfl, rfl, rfl, rfl⟩, ⟨_, _, rfl, rfl, rfl, rfl⟩, ⟨_, _, rfl, rfl, rfl, rfl⟩⟩

end Scope

end LambdaQuery
