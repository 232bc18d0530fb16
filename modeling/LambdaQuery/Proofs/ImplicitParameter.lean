/-
**The implicit parameter is shorthand.**  In a bare expression a name may stand for a member of the
parameter, and a method call without a target is one on the parameter.  Written out, with the name
of the parameter before both, the expression is the body of an explicit lambda that compiles to the
same literal.

What is shorthand depends on the literals around it.  An explicit literal inside the expression
leaves the parameter in place, and only hides members behind its own parameters.  A bare literal
inside it has an implicit parameter of its own, and is left as it is: it is the same literal in
either form.

Main definitions:
* `Shorthand` — what names mean members of the implicit parameter;
* `Term.spellOut` — the term with the shorthand written out;
* `Term.lambdaNames` — the parameters of all explicit lambdas in a term;
* `Shorthand.Serves` — the scopes in which the shorthand is in force.

Main results:
* `Term.Writable.spellOut` — a term that has a text has one with its shorthand written out;
* `Shorthand.Serves.name_kept` — **what a name denotes is kept** where it is written out;
* `Shorthand.Serves.term_kept` — so is **the expression of a term**, by recursion on the term;
* `Term.parse_arrow` — the text of a lambda of one parameter;
* `Lambda.compile_spellOut` — **the literal of a bare expression is that of the explicit lambda**.
-/

import LambdaQuery.Proofs.FurtherBindings
import LambdaQuery.Proofs.NameLookup
import LambdaQuery.Proofs.ReadingProgress
import LambdaQuery.Proofs.TokenTails

namespace LambdaQuery

/-! ### Shorthand -/

/-- How a bare expression may refer to its parameter. -/
structure Shorthand where
  settings : Settings
  /-- The names that denote members of the parameter. -/
  own : String → Bool

namespace Shorthand

/-- The shorthand of a bare expression over a parameter of type `T`. -/
def forType (T : Ty) (b : Bindings) : Shorthand where
  settings := b.settings
  own text :=
    (({ bindings := b, params := [], implicit := none } : Scope).member? (.parameter 0 T)
      text).isSome

variable (short : Shorthand)

/-- The name of the parameter. -/
def parameter : String := short.settings.implicitParameter

/-- Does a bare name stand for a member, where parameters of the given names are in scope? -/
def omits (params : List String) (text : String) : Bool :=
  short.own text && !params.any (short.settings.denotes text)

/-- Is the argument of a method of that name a function of the elements? -/
def takesFunction (method : String) : Bool :=
  match CollectionMethod.ofName? short.settings.ignoreCase method with
  | some m => m.argument? 1 = some .predicate || m.argument? 1 = some .selector
  | none => false

end Shorthand

namespace Term

section SpellOut

variable (short : Shorthand)

mutual

/-- The term with the shorthand written out, where parameters of the given names are in scope. -/
def spellOut (params : List String) : Term → Term
  | .name text =>
    if short.omits params text then .member (.name short.parameter) text else .name text
  | .member target text => .member (target.spellOut params) text
  | .call none method args =>
    .call (some (.name short.parameter)) method (spellOutArguments params method args)
  | .call (some target) method args =>
    .call (some (target.spellOut params)) method (spellOutArguments params method args)
  | .binary op lhs rhs => .binary op (lhs.spellOut params) (rhs.spellOut params)
  | .unary op operand => .unary op (operand.spellOut params)
  | .cond test ifTrue ifFalse =>
    .cond (test.spellOut params) (ifTrue.spellOut params) (ifFalse.spellOut params)
  | .record members => .record (spellOutMembers params members)
  | t => t

/-- A function literal: a bare one has shorthand of its own. -/
def spellOutFunction (params : List String) : Term → Term
  | .lambda names body => .lambda names (body.spellOut (params ++ names))
  | t => t

/-- The arguments of a method. -/
def spellOutArguments (params : List String) (method : String) : List Term → List Term
  | [] => []
  | t :: ts =>
    (if short.takesFunction method then t.spellOutFunction params else t.spellOut params) ::
      spellOutArguments params method ts

def spellOutMembers (params : List String) :
    List (Option String × Term) → List (Option String × Term)
  | [] => []
  | (written, value) :: ms => (written, value.spellOut params) :: spellOutMembers params ms

end

end SpellOut

mutual

/-- The parameters of all explicit lambdas. -/
def lambdaNames : Term → List String
  | .member target _ => target.lambdaNames
  | .call none _ args => lambdaNamesAll args
  | .call (some target) _ args => target.lambdaNames ++ lambdaNamesAll args
  | .binary _ lhs rhs => lhs.lambdaNames ++ rhs.lambdaNames
  | .unary _ operand => operand.lambdaNames
  | .cond test ifTrue ifFalse =>
    test.lambdaNames ++ ifTrue.lambdaNames ++ ifFalse.lambdaNames
  | .lambda names body => names ++ body.lambdaNames
  | .record members => lambdaNamesMembers members
  | _ => []

def lambdaNamesAll : List Term → List String
  | [] => []
  | t :: ts => t.lambdaNames ++ lambdaNamesAll ts

def lambdaNamesMembers : List (Option String × Term) → List String
  | [] => []
  | (_, value) :: ms => value.lambdaNames ++ lambdaNamesMembers ms

end

/-- A member of `new` goes on to take the same name from its value. -/
theorem memberName?_spellOut (short : Shorthand) (params : List String) (t : Term) :
    (t.spellOut short params).memberName? = t.memberName? := by
  cases t with
  | name text =>
      rw [spellOut]
      split <;> rfl
  | call target method args => cases target <;> rw [spellOut] <;> rfl
  | _ => rw [spellOut] <;> first | rfl | nofun

theorem spellOutArguments_eq_map (short : Shorthand) (params : List String) (method : String)
    (args : List Term) :
    spellOutArguments short params method args =
      args.map fun t =>
        if short.takesFunction method then t.spellOutFunction short params
        else t.spellOut short params := by
  induction args with
  | nil => rfl
  | cons t ts ih => rw [spellOutArguments, ih, List.map_cons]

theorem spellOutMembers_eq_map (short : Shorthand) (params : List String)
    (ms : List (Option String × Term)) :
    spellOutMembers short params ms = ms.map fun m => (m.1, m.2.spellOut short params) := by
  induction ms with
  | nil => rfl
  | cons m ms ih => rw [spellOutMembers, ih, List.map_cons]

theorem length_spellOutArguments (short : Shorthand) (params : List String) (method : String)
    (args : List Term) : (spellOutArguments short params method args).length = args.length := by
  rw [spellOutArguments_eq_map, List.length_map]

/-- A term that has a text has one with its shorthand written out. -/
theorem Writable.spellOut (short : Shorthand) (hname : isName short.parameter = true) {t : Term}
    (h : t.Writable) : ∀ params,
      (t.spellOut short params).Writable ∧ (t.spellOutFunction short params).Writable := by
  have arguments {args : List Term} (ha : ∀ t ∈ args, ∀ params,
      (t.spellOut short params).Writable ∧ (t.spellOutFunction short params).Writable)
      (params : List String) (method : String) :
      ∀ u ∈ spellOutArguments short params method args, u.Writable := by
    rw [spellOutArguments_eq_map, List.forall_mem_map]
    intro t ht
    split
    · exact (ha t ht params).2
    · exact (ha t ht params).1
  induction h with
  | @name text hn =>
      intro params
      refine ⟨?_, .name hn⟩
      rw [Term.spellOut]
      split
      · exact .member (.name hname) hn
      · exact .name hn
  | member ht hn ih => exact fun params => ⟨.member (ih params).1 hn, .member ht hn⟩
  | call hn ha ih =>
      exact fun params => ⟨.methodCall (.name hname) hn (arguments ih params _), .call hn ha⟩
  | methodCall ht hn ha iht iha =>
      exact fun params =>
        ⟨.methodCall (iht params).1 hn (arguments iha params _), .methodCall ht hn ha⟩
  | binary op hl hr ihl ihr =>
      exact fun params => ⟨.binary op (ihl params).1 (ihr params).1, .binary op hl hr⟩
  | unary op h ih => exact fun params => ⟨.unary op (ih params).1, .unary op h⟩
  | cond ht hu hv iht ihu ihv =>
      exact fun params => ⟨.cond (iht params).1 (ihu params).1 (ihv params).1, .cond ht hu hv⟩
  | lambda hn h ih => exact fun params => ⟨.lambda hn h, .lambda hn (ih _).1⟩
  | @record members hne hn hv hm ih =>
      refine fun params => ⟨?_, .record hne hn hv hm⟩
      rw [Term.spellOut, spellOutMembers_eq_map]
      refine .record (by simpa using hne) ?_ ?_ ?_
      · exact List.forall_mem_map.mpr hn
      · refine List.forall_mem_map.mpr fun m hm hnone => ?_
        rw [memberName?_spellOut]
        exact hv m hm hnone
      · exact List.forall_mem_map.mpr fun m hm => (ih m hm params).1
  | string text => exact fun _ => ⟨.string text, .string text⟩
  | integer hn => exact fun _ => ⟨.integer hn, .integer hn⟩
  | long hn => exact fun _ => ⟨.long hn, .long hn⟩
  | bool b => exact fun _ => ⟨.bool b, .bool b⟩
  | null => exact fun _ => ⟨.null, .null⟩
  | positional hn => exact fun _ => ⟨.positional hn, .positional hn⟩
  | named h => exact fun _ => ⟨.named h, .named h⟩

end Term

/-! ### Methods with functions -/

section Methods

variable {ignoreCase : Bool} {method : String} {short : Shorthand}

theorem sameName_trans {a b : String} (ha : sameName ignoreCase a method = true)
    (hb : sameName ignoreCase b method = true) : Text.sameIgnoringCase a b = true := by
  cases ignoreCase with
  | false =>
      obtain rfl : a = method := by simpa [sameName] using ha
      obtain rfl : b = a := by simpa [sameName] using hb
      exact Text.sameIgnoringCase_refl b
  | true =>
      simp only [sameName, if_true, Text.sameIgnoringCase, beq_iff_eq] at ha hb ⊢
      rw [ha, hb]

/-- No method of texts shares its name with a method that takes a function. -/
theorem item_of_sameName : ∀ m ∈ TextMethod.callable, ∀ c ∈ CollectionMethod.values,
    Text.sameIgnoringCase m.name c.name = true → c.argument? 1 = some .item := by
  decide

theorem takesFunction_of_text {m : TextMethod}
    (hm : TextMethod.ofName? short.settings.ignoreCase method = some m) :
    short.takesFunction method = false := by
  unfold Shorthand.takesFunction
  split
  · rename_i c hc
    have htext : sameName short.settings.ignoreCase m.name method = true :=
      (List.find?_eq_some_iff_append.mp hm).1
    have hcollection : sameName short.settings.ignoreCase c.name method = true :=
      (List.find?_eq_some_iff_append.mp hc).1
    rw [item_of_sameName m (List.mem_of_find?_eq_some hm) c (List.mem_of_find?_eq_some hc)
      (sameName_trans htext hcollection)]
    decide
  · rfl

/-- What a method takes tells whether its argument is a function. -/
theorem takesFunction_of_collection {c : CollectionMethod}
    (hc : CollectionMethod.ofName? short.settings.ignoreCase method = some c) :
    short.takesFunction method =
      (c.argument? 1 = some .predicate || c.argument? 1 = some .selector : Bool) := by
  rw [Shorthand.takesFunction, hc]

end Methods

/-! ### Scopes -/

namespace Scope

/-- The scope without an implicit parameter. -/
def explicitly (s : Scope) : Scope := { s with implicit := none }

theorem function_of_bare {s : Scope} {types : List Ty} {t : Term}
    (h : ∀ names body, t ≠ .lambda names body) :
    s.function types t = s.bare types fun inner => inner.term t := by
  cases t with
  | lambda names body => exact absurd rfl (h names body)
  | _ => rfl

theorem ofName?_of_collectionMethod {s : Scope} {target : Expr} {written : String}
    {c : CollectionMethod} (h : s.collectionMethod target written = .ok c) :
    CollectionMethod.ofName? s.settings.ignoreCase written = some c := by
  rw [collectionMethod] at h
  split at h
  · rename_i hfound
    cases h
    exact hfound
  · cases h

theorem ofName?_of_textMethod {s : Scope} {target : Expr} {written : String} {m : TextMethod}
    (h : s.textMethod target written = .ok m) :
    TextMethod.ofName? s.settings.ignoreCase written = some m := by
  rw [textMethod] at h
  split at h
  · rename_i hfound
    cases h
    exact hfound
  · cases h

/-- A bare literal has an implicit parameter of its own, whatever is around it. -/
theorem bare_explicitly (s : Scope) (types : List Ty) (body : Scope → Except CompileError Expr) :
    s.explicitly.bare types body = s.bare types body := rfl

end Scope

namespace Shorthand

/-- None of the names hides that of the parameter. -/
def Clear (short : Shorthand) (names : List String) : Prop :=
  ∀ q ∈ names, short.settings.denotes short.parameter q = false

theorem clear_append {short : Shorthand} {names further : List String} :
    short.Clear (names ++ further) ↔ short.Clear names ∧ short.Clear further :=
  List.forall_mem_append

/-- The shorthand is in force: the first parameter in scope is the implicit one, and no further
parameter hides its name. -/
structure Serves (short : Shorthand) (T : Ty) (s : Scope) : Prop where
  settings : s.settings = short.settings
  own : ∀ text, short.own text = (s.member? (.parameter 0 T) text).isSome
  implicit : s.implicit = some 0
  params : ∃ inner, s.params = (short.parameter, T) :: inner ∧
    ∀ q ∈ inner, short.settings.denotes short.parameter q.1 = false

namespace Serves

variable {short : Shorthand} {T : Ty} {s : Scope}

/-- It is in force in the scope of the bare expression. -/
theorem start (T : Ty) (b : Bindings) :
    (forType T b).Serves T
      (({ bindings := b, params := [], implicit := none } : Scope).extendImplicit T) where
  settings := rfl
  own := fun _ => rfl
  implicit := rfl
  params := ⟨[], rfl, nofun⟩

/-- It stays in force in an explicit literal whose parameters do not hide the implicit one. -/
theorem extend (hs : short.Serves T s) {params : List (String × Ty)}
    (hp : ∀ q ∈ params, short.settings.denotes short.parameter q.1 = false) :
    short.Serves T (s.extend params) where
  settings := hs.settings
  own := hs.own
  implicit := hs.implicit
  params := by
    obtain ⟨inner, hparams, hinner⟩ := hs.params
    refine ⟨inner ++ params, ?_, fun q hq => ?_⟩
    · rw [Scope.extend, hparams, List.cons_append]
    · exact (List.mem_append.mp hq).elim (hinner q) (hp q)

theorem implicit? (hs : short.Serves T s) : s.implicit? = some (.parameter 0 T) := by
  obtain ⟨inner, hparams, -⟩ := hs.params
  simp [Scope.implicit?, hs.implicit, hparams]

/-- The name of the parameter denotes it. -/
theorem term_parameter (hs : short.Serves T s) :
    s.explicitly.term (.name short.parameter) = .ok (.parameter 0 T) := by
  obtain ⟨inner, hparams, hinner⟩ := hs.params
  have hfound : s.explicitly.parameter? short.parameter = some (.parameter 0 T) := by
    have hfirst : s.params[0]? = some (short.parameter, T) := by rw [hparams]; rfl
    have hlast := (Scope.findLast?_eq_some_iff hfirst (short.settings.denotes_self _) 0).mpr
      (by simpa [hparams] using hinner)
    have hsettings : s.explicitly.settings = short.settings := hs.settings
    have hexplicit : s.explicitly.params = s.params := rfl
    rw [Scope.parameter?, hsettings, hexplicit, hlast]
    rfl
  rw [Scope.term, Scope.name, hfound, Option.some_or]

/-- A name is shorthand if it denotes a member and no parameter. -/
theorem omits_iff (hs : short.Serves T s) (text : String) :
    short.omits (s.params.map (·.1)) text = true ↔
      s.parameter? text = none ∧ (s.member? (.parameter 0 T) text).isSome = true := by
  rw [omits, Bool.and_eq_true, hs.own, Scope.parameter?, Option.map_eq_none_iff,
    Scope.findLast?_eq_none_iff, hs.settings, and_comm]
  simp

/-- **What a name denotes is kept** where it is written out. -/
theorem name_kept (hs : short.Serves T s) (text : String) :
    Kept (s.name text)
      (s.explicitly.term ((Term.name text).spellOut short (s.params.map (·.1)))) := by
  have homits := hs.omits_iff text
  rw [Term.spellOut]
  cases hp : s.parameter? text with
  | some e =>
      have hnot : ¬ short.omits (s.params.map (·.1)) text = true := by simp [homits, hp]
      have hp' : s.explicitly.parameter? text = some e := hp
      rw [if_neg hnot, Scope.term, Scope.name, Scope.name, hp, hp']
      exact .refl _
  | none =>
      cases hm : s.member? (.parameter 0 T) text with
      | some e =>
          have hmember : s.name text = .ok e := by
            rw [Scope.name, hp, hs.implicit?, Option.none_or, Option.bind_some, hm]
            rfl
          have hspelled : s.explicitly.member (.parameter 0 T) text = .ok e := by
            have hm' : s.explicitly.member? (.parameter 0 T) text = some e := hm
            rw [Scope.member, hm']
          rw [if_pos (homits.mpr ⟨hp, by rw [hm]; rfl⟩), hmember, Scope.term, hs.term_parameter]
          exact .of_eq hspelled
      | none =>
          -- what is neither a parameter nor a member is kept if it is a variable
          have hnot : ¬ short.omits (s.params.map (·.1)) text = true := by simp [homits, hm]
          have hp' : s.explicitly.parameter? text = none := hp
          rw [if_neg hnot, Scope.term, Scope.name, Scope.name, hp, hp', hs.implicit?,
            Option.bind_some, hm]
          cases hv : s.bindings.lookup? text with
          | some v =>
              have hv' : s.explicitly.bindings.lookup? text = some v := hv
              rw [hv']
              exact .refl _
          | none => exact .of_error _ _

/-! ### Function literals -/

/-- An explicit literal in either form, given that its body is kept. -/
theorem explicit_kept (hs : short.Serves T s) {types : List Ty} {names : List String}
    {inside : Term} (hn : short.Clear names)
    (hbody : ∀ {inner : Scope}, short.Serves T inner →
      Kept (inner.term inside)
        (inner.explicitly.term (inside.spellOut short (inner.params.map (·.1))))) :
    Kept (s.explicit types names fun inner => inner.term inside)
      (s.explicitly.explicit types names fun inner =>
        inner.term (inside.spellOut short (s.params.map (·.1) ++ names))) := by
  rw [Scope.explicit, Scope.explicit]
  split
  · exact .of_error _ _
  · rename_i hlength
    have hlength : names.length = types.length := by simpa using hlength
    have hnames : (names.zip types).map (·.1) = names := List.map_fst_zip (by omega)
    have hinner : short.Serves T (s.extend (names.zip types)) :=
      hs.extend fun q hq => hn q.1 (hnames ▸ List.mem_map_of_mem hq)
    have hparams : (s.extend (names.zip types)).params.map (·.1) = s.params.map (·.1) ++ names := by
      rw [Scope.extend, List.map_append, hnames]
    have hkept := hbody hinner
    rw [hparams] at hkept
    exact hkept.map _

/-- The method of a name on a target that is there. -/
theorem methodOn_kept (hs : short.Serves T s) {method : String} {args args' : List Term} (on : Expr)
    (hlength : args'.length = args.length)
    (hcollection : ∀ c element, CollectionMethod.ofName? short.settings.ignoreCase method = some c →
      Kept (s.collection c on element args) (s.explicitly.collection c on element args'))
    (htexts : short.takesFunction method = false → Kept (s.texts args) (s.explicitly.texts args')) :
    Kept (s.methodOn on method args) (s.explicitly.methodOn on method args') := by
  intro e he
  rw [Scope.methodOn] at he ⊢
  split at he
  · obtain ⟨c, hc, he⟩ := bind_eq_ok.mp he
    have hname := Scope.ofName?_of_collectionMethod hc
    rw [hs.settings] at hname
    exact bind_eq_ok.mpr ⟨c, hc, hcollection c _ hname e he⟩
  · obtain ⟨m, hm, he⟩ := bind_eq_ok.mp he
    have hname := Scope.ofName?_of_textMethod hm
    rw [hs.settings] at hname
    have hkept := htexts (takesFunction_of_text hname)
    refine bind_eq_ok.mpr ⟨m, hm, ?_⟩
    rw [hlength]
    exact Kept.bind_right (fun _ => hkept.bind fun _ => .refl _) e he

end Serves

end Shorthand

/-! ### Terms -/

section Terms

open Shorthand

variable {short : Shorthand} {T : Ty}

mutual

/-- **The expression of a term is kept** where its shorthand is written out. -/
theorem Shorthand.Serves.term_kept : ∀ (t : Term) {s : Scope}, short.Serves T s →
    short.Clear t.lambdaNames →
    Kept (s.term t) (s.explicitly.term (t.spellOut short (s.params.map (·.1))))
  | .string _, s, _, _ | .integer _, s, _, _ | .long _, s, _, _ | .float _, s, _, _
  | .bool _, s, _, _ | .null, s, _, _ | .lambda _ _, s, _, _ | .positional _, s, _, _
  | .named _, s, _, _ => by
    simp only [Term.spellOut, Scope.term]
    exact .refl _
  | .name text, s, hs, _ => by
    rw [Scope.term]
    exact hs.name_kept text
  | .member target text, s, hs, hl => by
    simp only [Term.spellOut, Scope.term]
    exact (Shorthand.Serves.term_kept target hs hl).bind fun target => .refl _
  | .call (some target) method args, s, hs, hl => by
    obtain ⟨htarget, hargs⟩ := clear_append.mp hl
    rw [Term.spellOut, Scope.term_call_some, Scope.term_call_some]
    exact (Shorthand.Serves.term_kept target hs htarget).bind fun on =>
      hs.methodOn_kept on (Term.length_spellOutArguments ..)
        (fun _ element hc => Shorthand.Serves.collection_kept args on element hc hs hargs)
        fun htext => Shorthand.Serves.texts_kept args htext hs hargs
  | .call none method args, s, hs, hl => by
    rw [Term.spellOut, Scope.term_call_none, Scope.term_call_some, Scope.implicitTarget,
      hs.implicit?, hs.term_parameter]
    exact .bind_right fun on =>
      hs.methodOn_kept on (Term.length_spellOutArguments ..)
        (fun _ element hc => Shorthand.Serves.collection_kept args on element hc hs hl)
        fun htext => Shorthand.Serves.texts_kept args htext hs hl
  | .binary op lhs rhs, s, hs, hl => by
    obtain ⟨hlhs, hrhs⟩ := clear_append.mp hl
    simp only [Term.spellOut, Scope.term]
    exact (Shorthand.Serves.term_kept lhs hs hlhs).bind fun _ =>
      (Shorthand.Serves.term_kept rhs hs hrhs).bind fun _ => .refl _
  | .unary op operand, s, hs, hl => by
    simp only [Term.spellOut, Scope.term]
    exact (Shorthand.Serves.term_kept operand hs hl).bind fun _ => .refl _
  | .cond test ifTrue ifFalse, s, hs, hl => by
    obtain ⟨hboth, hfalse⟩ := clear_append.mp hl
    obtain ⟨htest, htrue⟩ := clear_append.mp hboth
    simp only [Term.spellOut, Scope.term]
    exact (Shorthand.Serves.term_kept test hs htest).bind fun _ => .bind_right fun _ =>
      (Shorthand.Serves.term_kept ifTrue hs htrue).bind fun _ =>
        (Shorthand.Serves.term_kept ifFalse hs hfalse).bind fun _ => .refl _
  | .record ms, s, hs, hl => by
    simp only [Term.spellOut, Scope.term]
    exact (Shorthand.Serves.members_kept ms [] hs hl).bind fun _ => .refl _
termination_by t => (sizeOf t, 0)

/-- So is a function literal. -/
theorem Shorthand.Serves.function_kept (t : Term) {s : Scope} {types : List Ty}
    (hs : short.Serves T s) (hl : short.Clear t.lambdaNames) :
    Kept (s.function types t)
      (s.explicitly.function types (t.spellOutFunction short (s.params.map (·.1)))) := by
  unfold Term.spellOutFunction
  split
  · rename_i names inside
    obtain ⟨hnames, hinside⟩ := clear_append.mp hl
    rw [Scope.function, Scope.function]
    exact hs.explicit_kept hnames fun hinner => Shorthand.Serves.term_kept inside hinner hinside
  · rename_i hbare
    rw [Scope.function_of_bare hbare, Scope.function_of_bare hbare]
    exact .of_eq (Scope.bare_explicitly s types _)
termination_by (sizeOf t, 1)

/-- So is that of a method of a collection. -/
theorem Shorthand.Serves.collection_kept : ∀ (args : List Term) {s : Scope} {method : String}
    {c : CollectionMethod} (source : Expr) (element : Ty),
    CollectionMethod.ofName? short.settings.ignoreCase method = some c → short.Serves T s →
    short.Clear (Term.lambdaNamesAll args) →
    Kept (s.collection c source element args)
      (s.explicitly.collection c source element
        (Term.spellOutArguments short (s.params.map (·.1)) method args))
  | [], s, method, c, source, element, _, _, _ => by
    rw [Term.spellOutArguments, Scope.collection, Scope.collection]
    exact .refl _
  | [arg], s, method, c, source, element, hc, hs, hl => by
    obtain ⟨harg, -⟩ := clear_append.mp hl
    have hfunction := takesFunction_of_collection hc
    rw [Term.spellOutArguments, Term.spellOutArguments, Scope.collection_singleton,
      Scope.collection_singleton]
    split
    · rename_i hitem
      rw [hitem] at hfunction
      rw [hfunction]
      exact (Shorthand.Serves.term_kept arg hs harg).bind fun _ => .refl _
    · rename_i hpredicate
      rw [hpredicate] at hfunction
      rw [hfunction]
      exact (Shorthand.Serves.function_kept arg hs harg).bind fun _ => .refl _
    · rename_i hselector
      rw [hselector] at hfunction
      rw [hfunction]
      exact (Shorthand.Serves.function_kept arg hs harg).bind fun _ => .refl _
    · exact .of_error _ _
  | _ :: _ :: args, s, method, c, source, element, _, _, _ => by
    simp only [Scope.collection]
    exact .of_error _ _
termination_by args => (sizeOf args, 0)

theorem Shorthand.Serves.texts_kept : ∀ (args : List Term) {s : Scope} {method : String},
    short.takesFunction method = false → short.Serves T s → short.Clear (Term.lambdaNamesAll args) →
    Kept (s.texts args)
      (s.explicitly.texts (Term.spellOutArguments short (s.params.map (·.1)) method args))
  | [], s, method, _, _, _ => by
    rw [Term.spellOutArguments, Scope.texts, Scope.texts]
    exact .refl _
  | arg :: rest, s, method, htext, hs, hl => by
    obtain ⟨harg, hrest⟩ := clear_append.mp hl
    rw [Term.spellOutArguments, htext]
    simp only [Scope.texts]
    refine (Shorthand.Serves.term_kept arg hs harg).bind fun e => ?_
    split
    · exact (Shorthand.Serves.texts_kept rest htext hs hrest).bind fun _ => .refl _
    · exact .refl _
termination_by args => (sizeOf args, 0)

theorem Shorthand.Serves.members_kept : ∀ (ms : List (Option String × Term)) {s : Scope}
    (before : List String), short.Serves T s → short.Clear (Term.lambdaNamesMembers ms) →
    Kept (s.members before ms)
      (s.explicitly.members before (Term.spellOutMembers short (s.params.map (·.1)) ms))
  | [], s, before, _, _ => by
    rw [Term.spellOutMembers, Scope.members, Scope.members]
    exact .refl _
  | (written, value) :: rest, s, before, hs, hl => by
    obtain ⟨hvalue, hrest⟩ := clear_append.mp hl
    simp only [Term.spellOutMembers, Scope.members, Scope.newName, Term.memberName?_spellOut]
    exact .bind_right fun name => (Shorthand.Serves.term_kept value hs hvalue).bind fun _ =>
      (Shorthand.Serves.members_kept rest _ hs hrest).bind fun _ => .refl _
termination_by ms => (sizeOf ms, 0)

end

end Terms

/-! ### Texts -/

namespace Term

open Reading Tokens

theorem after_andThen {α β : Type} (tokens : Tokens) (f : Tokens → Reading α)
    (g : α → Tokens → Reading β) :
    after tokens (fun rest => (f rest).andThen g) = (after tokens f).andThen g := by
  cases tokens <;> rfl

theorem ofText_arrow {name : String} (hname : isName name = true) (body : String) :
    ofText (name ++ " => " ++ body) = more (.name name) (more (.sign .arrow) (ofText body)) := by
  have hblank : ∀ c ∈ [' '], Text.isBlank c = true := by simp; decide
  have hchars : (name ++ " => " ++ body).toList =
      name.toList ++ ([' '] ++ ('=' :: '>' :: ([' '] ++ body.toList))) := by
    simp
  have harrow : ∀ cs, Token.next? ('=' :: '>' :: cs) = .ok (some (.sign .arrow, cs)) :=
    fun cs => Token.next?_sign rfl
  rw [ofText, hchars, ofChars_name hname (by simp; decide), ofChars_blanks_append hblank,
    ofChars_of_next?_some (harrow _), ofChars_blanks_append hblank]
  rfl

/-- A lambda of one parameter is read as soon as its body is. -/
theorem expression_arrow (d : Nat) (name : String) (rest : Tokens) :
    expression (d + 2) 0 (more (.name name) (more (.sign .arrow) rest)) =
      (after rest (expression d 0)).andThen fun body rest =>
        continuation (d + 1) 0 (lambda [name] body) rest := by
  have hprimary : primary (d + 1) (more (.name name) (more (.sign .arrow) rest)) =
      (after rest (expression d 0)).andThen fun body rest => ok (lambda [name] body) rest := by
    rw [primary]
    exact after_andThen rest _ _
  rw [expression, hprimary]
  cases after rest (expression d 0) with
  | none => rfl
  | some answer =>
      rcases answer with e | ⟨body, rest⟩
      · rfl
      · rfl

/-- **The text of a lambda of one parameter** is read as the lambda of what its body is read as. -/
theorem parse_arrow {name body : String} {t : Term} (hname : isName name = true)
    (h : parse body = .ok t) : parse (name ++ " => " ++ body) = .ok (lambda [name] t) := by
  obtain ⟨answer, hanswer⟩ := exists_answer_after (ofText body)
  have hconclude := (parse_of_answer (hanswer _ (Nat.le_refl _))).symm.trans h
  rcases answer with e | ⟨t', rest⟩
  · cases hconclude
  -- nothing is left behind the body, so nothing goes on behind the lambda
  have hend : (∀ d, continuation (d + 1) 0 (lambda [name] t') rest = ok (lambda [name] t') rest) ∧
      conclude (.ok (lambda [name] t', rest)) = .ok (lambda [name] t) := by
    cases rest with
    | more found rest => cases hconclude
    | done | broken e =>
        obtain rfl : t' = t := Except.ok.inj hconclude
        exact ⟨fun _ => rfl, rfl⟩
  obtain ⟨hcontinuation, hwhole⟩ := hend
  have hread : ∀ d, depthFor (ofText body).length ≤ d →
      expression (d + 2) 0 (more (.name name) (more (.sign .arrow) (ofText body))) =
        ok (lambda [name] t') rest := by
    intro d hd
    have hbody : after (ofText body) (expression d 0) = ok t' rest := hanswer d hd
    rw [expression_arrow, hbody]
    exact hcontinuation d
  have hdepth : depthFor ((ofText body).length + 2) = depthFor (ofText body).length + 14 + 2 := by
    simp only [depthFor]
    omega
  have hfirst : ∀ rest, after (more (.name name) rest) = fun f : Tokens → Reading Term =>
      f (more (.name name) rest) := fun _ => rfl
  refine (@parse_of_answer _ (.ok (lambda [name] t', rest)) ?_).trans hwhole
  rw [ofText_arrow hname, hfirst]
  show expression (depthFor ((ofText body).length + 2)) 0 _ = _
  rw [hdepth]
  exact hread _ (Nat.le_add_right _ 14)

end Term

namespace Lambda

/-- The explicit lambda whose body is a bare expression with its shorthand written out. -/
theorem function_spellOut {t : Term} {T : Ty} {b : Bindings} {l : Lambda}
    (hbare : ∀ names body, t ≠ .lambda names body)
    (hclear : (Shorthand.forType T b).Clear t.lambdaNames)
    (h : Scope.function { bindings := b, params := [], implicit := none } [T] t = .ok l) :
    Scope.function { bindings := b, params := [], implicit := none } [T]
      (.lambda [b.settings.implicitParameter]
        (t.spellOut (.forType T b) [b.settings.implicitParameter])) = .ok l := by
  rw [Scope.function_of_bare hbare] at h
  have hkept := (Shorthand.Serves.start T b).term_kept t hclear
  exact hkept.map (ofBody 0 [(b.settings.implicitParameter, T)]) l h

/-- **The literal of a bare expression is that of the explicit lambda** of the same parameter, once
the names that denote members of the parameter and the calls on it have it written before them: as a
term, in any text that is read as the term, and in one that every term without doubles has.  No
explicit lambda in the expression may have a parameter that hides its name. -/
theorem compile_spellOut {text : String} {t : Term} {T : Ty} {b : Bindings} {l : Lambda}
    (hname : isName b.settings.implicitParameter = true) (hparse : Term.parse text = .ok t)
    (hbare : ∀ names body, t ≠ .lambda names body)
    (hclear : ∀ q ∈ t.lambdaNames, b.settings.denotes b.settings.implicitParameter q = false)
    (h : compile text [T] b = .ok l) :
    let it := b.settings.implicitParameter
    let spelled := t.spellOut (.forType T b) [it]
    Scope.function { bindings := b, params := [], implicit := none } [T] (.lambda [it] spelled) =
        .ok l ∧
      (∀ body, Term.parse body = .ok spelled → compile (it ++ " => " ++ body) [T] b = .ok l) ∧
      (t.Writable → compile (it ++ " => " ++ spelled.write) [T] b = .ok l) := by
  intro it spelled
  rw [compile, hparse] at h
  have hfunction := function_spellOut hbare hclear h
  have hcompile : ∀ body, Term.parse body = .ok spelled →
      compile (it ++ " => " ++ body) [T] b = .ok l := by
    intro body hbody
    rw [compile, Term.parse_arrow hname hbody]
    exact hfunction
  refine ⟨hfunction, hcompile, fun hwritable => hcompile _ ?_⟩
  have hspelled : spelled.Writable :=
    (Term.Writable.spellOut (.forType T b) hname hwritable [it]).1
  have hspells : Tokens.Spells spelled.write.toList spelled.tokens := by
    rw [Term.write, String.toList_ofList]
    exact Tokens.spells_write spelled.tokens hspelled.tokens
  exact Term.parse_of_written hspelled.bare.written hspells

set_option maxRecDepth 2000 in
/-- Over the groups of a query: a function with a parameter of its own, in which `Count` goes on to
mean that of the group, and a bare one, in which `it` is the element. -/
theorem compile_spellOut_grouping :
    let groups : Ty := .grouping .string .int
    let text := "new (Key, Any(n => n > Count) as A, Max(it) as B)"
    let spelled := "new (it.Key, it.Any(n => n > it.Count) as A, it.Max(it) as B)"
    ∃ l, compile text [groups] default = .ok l ∧
      compile ("it" ++ " => " ++ spelled) [groups] default = .ok l := by
  intro groups text spelled
  let t : Term := .record [(none, .name "Key"),
    (some "A", .call none "Any" [.lambda ["n"] (.binary .greater (.name "n") (.name "Count"))]),
    (some "B", .call none "Max" [.name "it"])]
  let t' : Term := .record [(none, .member (.name "it") "Key"),
    (some "A", .call (some (.name "it")) "Any"
      [.lambda ["n"] (.binary .greater (.name "n") (.member (.name "it") "Count"))]),
    (some "B", .call (some (.name "it")) "Max" [.name "it"])]
  have hparse : Term.parse text = .ok t := by cbv
  have hspelled : Term.parse spelled = .ok t' := by cbv
  have hspellOut : t.spellOut (.forType groups default) ["it"] = t' := rfl
  have hbare : ∀ names body, t ≠ .lambda names body := by simp [t]
  have hclear : ∀ q ∈ t.lambdaNames, (default : Bindings).settings.denotes "it" q = false := by
    have hnames : t.lambdaNames = ["n"] := rfl
    rw [hnames]
    decide
  have hok : (compile text [groups] default).isOk = true := by
    rw [compile, hparse]
    rfl
  obtain ⟨l, hl⟩ := isOk_iff.mp hok
  refine ⟨l, hl, (compile_spellOut ?_ hparse hbare hclear hl).2.1 spelled ?_⟩
  · decide
  · exact hspelled.trans (congrArg _ hspellOut.symm)

end Lambda

end LambdaQuery
