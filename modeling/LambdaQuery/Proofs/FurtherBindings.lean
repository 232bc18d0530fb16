/-
**Further bindings change nothing.**  A text that compiles goes on to compile, to the same literal,
when values are bound behind those that are there and variables are set beside them, as long as no
new name is one of the old ones in another case.

A name means a parameter first, then a member, then a variable, so what the further bindings can
touch is the last of these alone.  Among the variables the exact spelling comes first: a new
variable could take a name from an old one that is found by ignoring case, and from no other.

Main definitions:
* `Bindings.adding` — the bindings with further values and variables;
* `Bindings.Unrelated` — the names differ from those of the variables in more than case;
* `Bindings.Extends` — bindings that have all of others in their places, and what is unrelated;
* `Kept` — what the first computation gives, the second gives as well.

Main results:
* `Bindings.extends_adding` — adding what is unrelated extends the bindings;
* `Bindings.Extends.lookup?` — a variable that is found stays the one that is found;
* `Scope.term_kept` — **the expression of a term is kept** under bindings that extend those of its
  scope, by recursion on the term;
* `Lambda.compile_adding` — **the literal of a text is kept**.
-/

import LambdaQuery.Proofs.BoundValues

namespace LambdaQuery

/-! ### Kept results -/

section Kept

variable {ε α β : Type}

/-- What the first computation gives, the second gives as well. -/
def Kept (r r' : Except ε α) : Prop := ∀ a, r = .ok a → r' = .ok a

namespace Kept

variable {r r' : Except ε α}

theorem refl (r : Except ε α) : Kept r r := fun _ h => h

theorem of_eq (h : r' = r) : Kept r r' := h ▸ refl r

/-- Where the first computation fails, nothing has to be kept. -/
theorem of_error (e : ε) (r' : Except ε α) : Kept (.error e) r' := fun _ h => by cases h

theorem bind {k k' : α → Except ε β} (h : Kept r r') (hk : ∀ a, Kept (k a) (k' a)) :
    Kept (r >>= k) (r' >>= k') := by
  intro b hb
  obtain ⟨a, ha, hb⟩ := bind_eq_ok.mp hb
  exact bind_eq_ok.mpr ⟨a, h a ha, hk a b hb⟩

/-- A sequence whose first part is the same. -/
theorem bind_right {k k' : α → Except ε β} (hk : ∀ a, Kept (k a) (k' a)) :
    Kept (r >>= k) (r >>= k') :=
  (refl r).bind hk

theorem map (f : α → β) (h : Kept r r') : Kept (r.map f) (r'.map f) := by
  intro b hb
  obtain ⟨a, ha, hb⟩ := map_eq_ok.mp hb
  exact map_eq_ok.mpr ⟨a, h a ha, hb⟩

end Kept

end Kept

/-! ### Bindings that extend others -/

namespace Bindings

/-- The bindings with further values behind those that are there, and with further variables set
one after the other. -/
def adding (b : Bindings) (values : List Value) (named : List (String × Value)) : Bindings :=
  named.foldl (fun b entry => b.set entry.1 entry.2) { b with values := b.values ++ values }

/-- Each of the names differs from those of all variables in more than case. -/
def Unrelated (b : Bindings) (named : List (String × Value)) : Prop :=
  ∀ entry ∈ named, ∀ old ∈ b.named, Text.sameIgnoringCase old.1 entry.1 = false

/-- The second bindings have all of the first in their places, and behind these what is unrelated to
them. -/
structure Extends (b b' : Bindings) : Prop where
  settings : b'.settings = b.settings
  values : ∃ further, b'.values = b.values ++ further
  named : ∃ further, b'.named = b.named ++ further ∧ b.Unrelated further

variable {b b' : Bindings} {name : String} {v : Value}

/-! #### Adding -/

/-- A variable is set behind those of other names. -/
theorem setIn_append (old further : List (String × Value)) (h : ∀ entry ∈ old, entry.1 ≠ name) :
    setIn name v (old ++ further) = old ++ setIn name v further := by
  induction old with
  | nil => rfl
  | cons entry old ih =>
      obtain ⟨hentry, hold⟩ := List.forall_mem_cons.mp h
      rw [List.cons_append, setIn, if_neg hentry, ih hold, List.cons_append]

/-- The names are those that were set before and the new one. -/
theorem mem_setIn {entry : String × Value} : ∀ {named : List (String × Value)},
    entry ∈ setIn name v named → entry ∈ named ∨ entry.1 = name := by
  intro named
  induction named with
  | nil =>
      intro h
      rw [setIn, List.mem_singleton] at h
      exact .inr (h ▸ rfl)
  | cons old named ih =>
      intro h
      rw [setIn] at h
      split at h
      · rename_i hname
        rcases List.mem_cons.mp h with rfl | h
        · exact .inr hname
        · exact .inl (List.mem_cons_of_mem _ h)
      · rcases List.mem_cons.mp h with rfl | h
        · exact .inl (List.mem_cons_self ..)
        · exact (ih h).imp_left (List.mem_cons_of_mem _)

/-- Setting one more unrelated variable goes on extending the bindings. -/
theorem Extends.set (h : b.Extends b')
    (hname : ∀ old ∈ b.named, Text.sameIgnoringCase old.1 name = false) :
    b.Extends (b'.set name v) := by
  obtain ⟨further, hnamed, hunrelated⟩ := h.named
  have hother : ∀ old ∈ b.named, old.1 ≠ name := by
    rintro old hold rfl
    have hsame := hname old hold
    rw [Text.sameIgnoringCase_refl] at hsame
    cases hsame
  refine ⟨h.settings, h.values, setIn name v further, ?_, ?_⟩
  · rw [Bindings.set, hnamed, setIn_append b.named further hother]
  · intro entry hentry old hold
    rcases mem_setIn hentry with hentry | rfl
    · exact hunrelated entry hentry old hold
    · exact hname old hold

/-- **Adding what is unrelated extends the bindings**, by induction on the variables that are
set. -/
theorem extends_adding {named : List (String × Value)} (values : List Value)
    (h : b.Unrelated named) : b.Extends (b.adding values named) := by
  have hset : ∀ {b' : Bindings}, b.Extends b' →
      b.Extends (named.foldl (fun b entry => b.set entry.1 entry.2) b') := by
    induction named with
    | nil => exact id
    | cons entry named ih =>
        obtain ⟨hentry, hnamed⟩ := List.forall_mem_cons.mp h
        exact fun hb => ih hnamed (hb.set hentry)
  exact hset ⟨rfl, ⟨values, rfl⟩, [], (List.append_nil _).symm, nofun⟩

/-! #### Looking up -/

theorem Extends.value {i : Nat} (h : b.Extends b') (hv : b.values[i]? = some v) :
    b'.values[i]? = some v := by
  obtain ⟨further, hvalues⟩ := h.values
  obtain ⟨hi, -⟩ := List.getElem?_eq_some_iff.mp hv
  rw [hvalues, List.getElem?_append_left hi, hv]

/-- A name that denotes a declared one is the same but for case. -/
theorem sameIgnoringCase_of_denotes {settings : Settings} {written declared : String}
    (h : settings.denotes written declared = true) :
    Text.sameIgnoringCase declared written = true := by
  unfold Settings.denotes at h
  split at h
  · exact h
  · rw [eq_of_beq h]
    exact Text.sameIgnoringCase_refl written

/-- **A variable that is found stays the one that is found.** -/
theorem Extends.lookup? (h : b.Extends b') (hv : b.lookup? name = some v) :
    b'.lookup? name = some v := by
  obtain ⟨further, hnamed, hunrelated⟩ := h.named
  rw [Bindings.lookup?, hnamed, h.settings, List.lookup_append, List.find?_append]
  rcases Option.or_eq_some_iff.mp hv with hexact | ⟨hnone, hother⟩
  · rw [hexact, Option.some_or, Option.some_or]
  · -- the variable is spelled differently, so no new one has the exact spelling
    obtain ⟨entry, hfind, rfl⟩ := Option.map_eq_some_iff.mp hother
    have hdenotes : b.settings.denotes name entry.1 = true := by simpa using List.find?_some hfind
    have hnew : further.lookup name = none := by
      rw [List.lookup_eq_none_iff]
      intro new hmem
      have hdiffers := hunrelated new hmem entry (List.mem_of_find?_eq_some hfind)
      rw [bne_iff_ne]
      rintro rfl
      rw [sameIgnoringCase_of_denotes hdenotes] at hdiffers
      cases hdiffers
    rw [hnone, hnew, hfind, Option.none_or, Option.none_or, Option.some_or, Option.map_some]

end Bindings

/-! ### Names -/

namespace Scope

open Bindings (Extends)

variable {s : Scope} {b : Bindings}

theorem member_kept (h : s.bindings.Extends b) (target : Expr) (written : String) :
    Kept (s.member target written) ((s.rebind b).member target written) := by
  refine .of_eq ?_
  rw [member, member, member?_rebind h.settings]

/-- **What a bare name denotes is kept**: a parameter or a member does not depend on the variables,
and a variable is found again. -/
theorem name_kept (h : s.bindings.Extends b) (written : String) :
    Kept (s.name written) ((s.rebind b).name written) := by
  have hparameter := parameter?_rebind h.settings written
  have himplicit : (s.rebind b).implicit? = s.implicit? := rfl
  have hmember : (fun it => (s.rebind b).member? it written) = fun it => s.member? it written :=
    funext fun it => member?_rebind h.settings it written
  have hbindings : (s.rebind b).bindings = b := rfl
  rw [name, name, hparameter, himplicit, hmember, hbindings]
  cases s.parameter? written with
  | some e => exact .refl _
  | none =>
      cases s.implicit?.bind fun it => s.member? it written with
      | some e => exact .refl _
      | none =>
          -- what is neither a parameter nor a member is kept if it is a variable
          cases hv : s.bindings.lookup? written with
          | some v =>
              rw [h.lookup? hv]
              exact .refl _
          | none => exact .of_error _ _

/-! ### Function literals -/

theorem explicit_kept {types : List Ty} {names : List String}
    (body : Scope → Except CompileError Expr)
    (h : ∀ params, Kept (body (s.extend params)) (body ((s.extend params).rebind b))) :
    Kept (s.explicit types names body) ((s.rebind b).explicit types names body) := by
  rw [explicit, explicit]
  split
  · exact .of_error _ _
  · exact (h _).map _

theorem bare_kept {types : List Ty} (hb : b.settings = s.settings)
    (body : Scope → Except CompileError Expr)
    (h : ∀ t, Kept (body (s.extendImplicit t)) (body ((s.extendImplicit t).rebind b))) :
    Kept (s.bare types body) ((s.rebind b).bare types body) := by
  have hsettings : (s.rebind b).settings = s.settings := hb
  unfold bare
  split
  · rename_i t
    rw [extendImplicit_rebind hb, hsettings]
    exact (h t).map _
  · exact .of_error _ _

/-- The method of a name on a target that is there. -/
theorem methodOn_kept {args : List Term} (hb : b.settings = s.settings) (on : Expr) (text : String)
    (hcollection : ∀ m element,
      Kept (s.collection m on element args) ((s.rebind b).collection m on element args))
    (htexts : Kept (s.texts args) ((s.rebind b).texts args)) :
    Kept (s.methodOn on text args) ((s.rebind b).methodOn on text args) := by
  rw [methodOn, methodOn, collectionMethod_rebind hb, textMethod_rebind hb]
  split
  · exact .bind_right fun m => hcollection m _
  · exact .bind_right fun m => .bind_right fun _ => htexts.bind fun es => .refl _

end Scope

/-! ### Terms -/

section Terms

open Scope

variable {b : Bindings}

mutual

/-- **The expression of a term is kept** under bindings that extend those of its scope. -/
theorem Scope.term_kept : ∀ (t : Term) {s : Scope}, s.bindings.Extends b →
    Kept (s.term t) ((s.rebind b).term t)
  | .string _, s, _ | .integer _, s, _ | .long _, s, _ | .float _, s, _ | .bool _, s, _
  | .null, s, _ | .lambda _ _, s, _ => by
    simp only [Scope.term]
    exact .refl _
  | .name text, s, h => by
    simp only [Scope.term]
    exact name_kept h text
  | .positional index, s, h => by
    simp only [Scope.term]
    cases hv : s.bindings.values[index]? with
    | none => exact .of_error _ _
    | some v =>
        have hv' : (s.rebind b).bindings.values[index]? = some v := h.value hv
        rw [hv']
        exact .refl _
  | .named text, s, h => by
    simp only [Scope.term]
    cases hv : s.bindings.lookup? text with
    | none => exact .of_error _ _
    | some v =>
        have hv' : (s.rebind b).bindings.lookup? text = some v := h.lookup? hv
        rw [hv']
        exact .refl _
  | .member target text, s, h => by
    simp only [Scope.term]
    exact (Scope.term_kept target h).bind fun target => member_kept h target text
  | .call (some target) text args, s, h => by
    rw [term_call_some, term_call_some]
    exact (Scope.term_kept target h).bind fun on => methodOn_kept h.settings on text
      (fun m element => Scope.collection_kept args m on element h) (Scope.texts_kept args h)
  | .call none text args, s, h => by
    rw [term_call_none, term_call_none]
    exact .bind (.refl _) fun on => methodOn_kept h.settings on text
      (fun m element => Scope.collection_kept args m on element h) (Scope.texts_kept args h)
  | .binary op lhs rhs, s, h => by
    simp only [Scope.term]
    exact (Scope.term_kept lhs h).bind fun _ => (Scope.term_kept rhs h).bind fun _ => .refl _
  | .unary op operand, s, h => by
    simp only [Scope.term]
    exact (Scope.term_kept operand h).bind fun _ => .refl _
  | .cond test ifTrue ifFalse, s, h => by
    simp only [Scope.term]
    exact (Scope.term_kept test h).bind fun _ => .bind_right fun _ =>
      (Scope.term_kept ifTrue h).bind fun _ => (Scope.term_kept ifFalse h).bind fun _ => .refl _
  | .record ms, s, h => by
    simp only [Scope.term]
    exact (Scope.members_kept ms [] h).bind fun _ => .refl _
termination_by t => (sizeOf t, 0)

/-- So is that of a function literal. -/
theorem Scope.function_kept (t : Term) {s : Scope} {types : List Ty} (h : s.bindings.Extends b) :
    Kept (s.function types t) ((s.rebind b).function types t) := by
  unfold Scope.function
  split
  · rename_i names inside
    exact explicit_kept (fun inner => inner.term inside) fun _ => Scope.term_kept inside h
  · exact bare_kept h.settings (fun inner => inner.term t) fun _ => Scope.term_kept t h
termination_by (sizeOf t, 1)

/-- So is that of a method of a collection. -/
theorem Scope.collection_kept : ∀ (args : List Term) {s : Scope} (m : CollectionMethod)
    (source : Expr) (element : Ty), s.bindings.Extends b →
    Kept (s.collection m source element args) ((s.rebind b).collection m source element args)
  | [], s, m, source, element, _ => by
    simp only [Scope.collection]
    exact .refl _
  | [arg], s, m, source, element, h => by
    rw [collection_singleton, collection_singleton]
    split
    · exact (Scope.term_kept arg h).bind fun _ => .refl _
    · exact (Scope.function_kept arg h).bind fun _ => .refl _
    · exact (Scope.function_kept arg h).bind fun _ => .refl _
    · exact .refl _
  | _ :: _ :: args, s, m, source, element, _ => by
    simp only [Scope.collection]
    exact .refl _
termination_by args => (sizeOf args, 0)

theorem Scope.texts_kept : ∀ (args : List Term) {s : Scope}, s.bindings.Extends b →
    Kept (s.texts args) ((s.rebind b).texts args)
  | [], s, _ => by
    simp only [Scope.texts]
    exact .refl _
  | arg :: rest, s, h => by
    simp only [Scope.texts]
    refine (Scope.term_kept arg h).bind fun e => ?_
    split
    · exact (Scope.texts_kept rest h).bind fun _ => .refl _
    · exact .refl _
termination_by args => (sizeOf args, 0)

theorem Scope.members_kept : ∀ (ms : List (Option String × Term)) {s : Scope}
    (before : List String), s.bindings.Extends b →
    Kept (s.members before ms) ((s.rebind b).members before ms)
  | [], s, before, _ => by
    simp only [Scope.members]
    exact .refl _
  | (written, value) :: rest, s, before, h => by
    simp only [Scope.members]
    exact .bind_right fun name => (Scope.term_kept value h).bind fun _ =>
      (Scope.members_kept rest _ h).bind fun _ => .refl _
termination_by ms => (sizeOf ms, 0)

end

end Terms

/-! ### Texts -/

namespace Lambda

/-- **The literal of a text is kept.**  Values that are bound behind those that are there, and
variables whose names differ from all that are there in more than case, do not change what a text
compiles to. -/
theorem compile_adding {text : String} {types : List Ty} {b : Bindings} {l : Lambda}
    (values : List Value) (named : List (String × Value)) (h : compile text types b = .ok l)
    (hnew : ∀ entry ∈ named, ∀ old ∈ b.named, Text.sameIgnoringCase old.1 entry.1 = false) :
    compile text types (b.adding values named) = .ok l := by
  have hextends : b.Extends (b.adding values named) := Bindings.extends_adding values hnew
  rw [compile] at h ⊢
  cases hparse : Term.parse text with
  | error e =>
      rw [hparse] at h
      cases h
  | ok t =>
      rw [hparse] at h
      exact Scope.function_kept t hextends l h

/-- Where case does not count, `rate` goes on to mean the variable `Rate` and `Price` the member,
whatever else is called so. -/
theorem compile_adding_rates :
    let order : Ty := .record (some "Order") [("Id", .int), ("Price", .int)]
    let text := "Price * rate + @0"
    let b : Bindings :=
      { values := [.int 5], named := [("Rate", .int 2)],
        settings := { ignoreCase := true, implicitParameter := "it" } }
    let named := [("price", .string "high"), ("it", .null), ("discount", .int 1), ("Id", .int 0)]
    (∀ entry ∈ named, ∀ old ∈ b.named, Text.sameIgnoringCase old.1 entry.1 = false) ∧
      ∃ l, compile text [order] b = .ok l ∧
        compile text [order] (b.adding [.string "more"] named) = .ok l := by
  intro order text b named
  have hnew : ∀ entry ∈ named, ∀ old ∈ b.named,
      Text.sameIgnoringCase old.1 entry.1 = false := by decide
  have hparse : Term.parse text = .ok (.binary .add
      (.binary .multiply (.name "Price") (.name "rate")) (.positional 0)) := by cbv
  have hok : (compile text [order] b).isOk = true := by
    rw [compile, hparse]
    decide
  obtain ⟨l, hl⟩ := isOk_iff.mp hok
  exact ⟨hnew, l, hl, compile_adding [.string "more"] named hl hnew⟩

/-- A new name that is an old one in another case takes what was found by ignoring case. -/
example :
    let b : Bindings :=
      { values := [], named := [("Rate", .int 2)],
        settings := { ignoreCase := true, implicitParameter := "it" } }
    b.lookup? "rate" = some (.int 2) ∧ (b.adding [] [("rate", .int 3)]).lookup? "rate" =
      some (.int 3) := ⟨rfl, rfl⟩

end Lambda

end LambdaQuery
