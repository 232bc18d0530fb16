/-
**The exact spelling of a name.**  Where the case of letters is ignored a written name may denote
several candidates.  Fields and variables are searched for the exact spelling first, so a name that
is spelled out means there what it means where case counts.  Parameters are searched once, from the
innermost outwards, for any name that the written one denotes.  So a parameter that is spelled out
keeps its meaning exactly when no name further in differs from it in case alone.

Main definitions:
* `Bindings.withCase`, `Scope.withCase` — the bindings and the scope with that setting changed.

Main results:
* `RecordTy.field?_of_mem` — a field that is spelled out is found, whatever the setting;
* `Bindings.lookup?_of_mem` — so is a variable;
* `Scope.findLast?_eq_some_iff` — the entry that is found is the last one that the name denotes;
* `Scope.parameter?_withCase_iff` — **where a parameter keeps its meaning**;
* `Scope.exact_spelling` — the three searches side by side, and what they make of a lambda that
  returns one of its parameters.
-/

import LambdaQuery.Proofs.ExprTyping

namespace LambdaQuery

/-! ### The setting -/

/-- The bindings, with the case of names ignored or not. -/
def Bindings.withCase (b : Bindings) (ignoreCase : Bool) : Bindings :=
  { b with settings := { b.settings with ignoreCase } }

/-- The scope, with the case of names ignored or not. -/
def Scope.withCase (s : Scope) (ignoreCase : Bool) : Scope :=
  { s with bindings := s.bindings.withCase ignoreCase }

namespace Settings

/-- A name denotes itself under any settings. -/
theorem denotes_self (s : Settings) (name : String) : s.denotes name name = true := by
  unfold denotes
  split
  · exact Text.sameIgnoringCase_refl name
  · exact beq_self_eq_true name

end Settings

/-! ### Fields and variables -/

/-- **A field that is spelled out is found**, whatever the setting. -/
theorem RecordTy.field?_of_mem {r : RecordTy} {written : String}
    (h : written ∈ r.fields.map (·.1)) :
    ∃ found, found.name = written ∧ ∀ ignoreCase, r.field? written ignoreCase = some found := by
  obtain ⟨f, hf, hname⟩ := List.mem_map.mp h
  have hsome : (r.fields.findIdx? fun f => f.1 == written).isSome = true := by
    rw [List.findIdx?_isSome, List.any_eq_true]
    exact ⟨f, hf, by simpa using hname⟩
  obtain ⟨i, hi⟩ := Option.isSome_iff_exists.mp hsome
  obtain ⟨hlt, hspelled, -⟩ := List.findIdx?_eq_some_iff_getElem.mp hi
  have hfind : r.find? (· == written) = some ⟨i, r.fields[i].1, r.fields[i].2⟩ := by
    simp [find?, hi, List.getElem?_eq_getElem hlt]
  have hname : r.fields[i].1 = written := by simpa using hspelled
  refine ⟨⟨i, r.fields[i].1, r.fields[i].2⟩, hname, fun ignoreCase => ?_⟩
  rw [field?, hfind, Option.some_or]

/-- **A variable that is spelled out is found**, whatever the setting. -/
theorem Bindings.lookup?_of_mem {b : Bindings} {written : String}
    (h : written ∈ b.named.map (·.1)) :
    ∃ v, b.named.lookup written = some v ∧
      ∀ ignoreCase, (b.withCase ignoreCase).lookup? written = some v := by
  cases hv : b.named.lookup written with
  | none =>
      obtain ⟨entry, hentry, rfl⟩ := List.mem_map.mp h
      have hne := List.lookup_eq_none_iff.mp hv entry hentry
      simp at hne
  | some v =>
      refine ⟨v, rfl, fun ignoreCase => ?_⟩
      have hnamed : (b.withCase ignoreCase).named = b.named := rfl
      rw [lookup?, hnamed, hv, Option.some_or]

/-! ### Parameters -/

namespace Scope

variable {settings : Settings} {written : String}

theorem findLast?_eq_none_iff {params : List (String × Ty)} {slot : Nat} :
    findLast? settings written slot params = none ↔
      ∀ p ∈ params, settings.denotes written p.1 = false := by
  induction params generalizing slot with
  | nil => simp [findLast?]
  | cons p params ih =>
      obtain ⟨name, t⟩ := p
      simp [findLast?, ih, and_comm]

/-- If the name denotes one of the entries, one is found. -/
theorem exists_findLast?_of_denotes {params : List (String × Ty)} {p : String × Ty}
    (hp : p ∈ params) (hn : settings.denotes written p.1 = true) (slot : Nat) :
    ∃ found, findLast? settings written slot params = some found := by
  rw [← Option.ne_none_iff_exists']
  intro hnone
  have hnot := findLast?_eq_none_iff.mp hnone p hp
  rw [hn] at hnot
  cases hnot

/-- **The entry that is found is the last one that the name denotes**, by induction on the entries:
one of them is found among the later ones if the name denotes any of those. -/
theorem findLast?_eq_some_iff {params : List (String × Ty)} {i : Nat} {name : String} {t : Ty}
    (hi : params[i]? = some (name, t)) (hn : settings.denotes written name = true) (slot : Nat) :
    findLast? settings written slot params = some (slot + i, t) ↔
      ∀ p ∈ params.drop (i + 1), settings.denotes written p.1 = false := by
  induction params generalizing slot i with
  | nil => cases hi
  | cons p params ih =>
      cases i with
      | zero =>
          obtain rfl : p = (name, t) := by simpa using hi
          rw [findLast?, if_pos hn, List.drop_succ_cons, List.drop_zero]
          constructor
          · intro h
            rcases Option.or_eq_some_iff.mp h with hlater | ⟨hnone, -⟩
            · obtain ⟨j, -, hj, -, -⟩ := findLast?_eq_some hlater
              omega
            · exact findLast?_eq_none_iff.mp hnone
          · intro h
            rw [findLast?_eq_none_iff.mpr h, Option.none_or, Nat.add_zero]
      | succ i =>
          -- whatever is found among the later entries comes before the first one
          obtain ⟨m, u⟩ := p
          have hi : params[i]? = some (name, t) := by simpa using hi
          have hmem : (name, t) ∈ params := List.mem_of_getElem? hi
          obtain ⟨found, hfound⟩ := exists_findLast?_of_denotes hmem hn (slot + 1)
          rw [List.drop_succ_cons, ← ih hi (slot + 1), findLast?, hfound, Option.some_or,
            Nat.add_right_comm, Nat.add_assoc]

/-- **Which parameter a name denotes** that spells out the one in a slot, no later one being spelled
like it: that one where case counts, and where it does not exactly if no later name differs from it
in case alone. -/
theorem parameter?_withCase_iff {s : Scope} {slot : Nat} {t : Ty}
    (h : s.params[slot]? = some (written, t))
    (hlast : ∀ p ∈ s.params.drop (slot + 1), p.1 ≠ written) :
    (s.withCase false).parameter? written = some (.parameter slot t) ∧
      ((s.withCase true).parameter? written = some (.parameter slot t) ↔
        ∀ p ∈ s.params.drop (slot + 1), Text.sameIgnoringCase p.1 written = false) := by
  have hfind : ∀ ignoreCase,
      (s.withCase ignoreCase).parameter? written = some (.parameter slot t) ↔
        ∀ p ∈ s.params.drop (slot + 1),
          (s.withCase ignoreCase).settings.denotes written p.1 = false := by
    intro ignoreCase
    rw [← findLast?_eq_some_iff h (Settings.denotes_self _ _) 0, Nat.zero_add, parameter?,
      Option.map_eq_some_iff]
    constructor
    · rintro ⟨⟨found, u⟩, hfound, he⟩
      cases he
      exact hfound
    · intro hfound
      exact ⟨(slot, t), hfound, rfl⟩
  refine ⟨(hfind false).mpr ?_, hfind true⟩
  intro p hp
  exact beq_eq_false_iff_ne.mpr (hlast p hp)

/-- A name that is spelled out is found under any settings. -/
theorem exists_findLast?_of_mem {params : List (String × Ty)} (h : written ∈ params.map (·.1))
    (settings : Settings) (slot : Nat) :
    ∃ found, findLast? settings written slot params = some found := by
  obtain ⟨p, hp, rfl⟩ := List.mem_map.mp h
  exact exists_findLast?_of_denotes hp (Settings.denotes_self settings p.1) slot

/-- Among the parameters that a name spells out there is an innermost one. -/
theorem exists_last_of_mem {params : List (String × Ty)} (h : written ∈ params.map (·.1)) :
    ∃ slot t, params[slot]? = some (written, t) ∧
      ∀ p ∈ params.drop (slot + 1), p.1 ≠ written := by
  obtain ⟨⟨found, t⟩, hf⟩ := exists_findLast?_of_mem h .standard 0
  obtain ⟨slot, name, hslot, hname, hn⟩ := findLast?_eq_some hf
  obtain rfl : name = written := by simpa [Settings.denotes, Settings.standard] using hn
  refine ⟨slot, t, hname, fun p hp => ?_⟩
  have hlast := (findLast?_eq_some_iff hname hn 0).mp (by rw [hf, ← hslot]) p hp
  simpa [Settings.denotes, Settings.standard] using hlast

end Scope

/-! ### Lambdas -/

namespace Lambda

variable {text written : String} {names : List String} {types : List Ty}

/-- The literal of a lambda that returns what a name denotes. -/
theorem compile_name (hparse : Term.parse text = .ok (.lambda names (.name written)))
    (hlength : names.length = types.length) (b : Bindings) :
    compile text types b =
      (({ bindings := b, params := names.zip types, implicit := none } : Scope).name written).map
        (ofBody 0 (names.zip types)) := by
  simp [compile, hparse, Scope.function, Scope.explicit, hlength, Scope.extend, Scope.term]

/-- Where a parameter of that name is in scope, the literal returns the one that is found. -/
theorem compile_name_eq_ok_iff (hparse : Term.parse text = .ok (.lambda names (.name written)))
    (hlength : names.length = types.length) (hmem : written ∈ names) (b : Bindings) (e : Expr) :
    compile text types b = .ok (ofBody 0 (names.zip types) e) ↔
      ({ bindings := b, params := names.zip types, implicit := none } : Scope).parameter? written =
        some e := by
  rw [compile_name hparse hlength]
  let s : Scope := { bindings := b, params := names.zip types, implicit := none }
  have hmem : written ∈ s.params.map (·.1) := by
    show written ∈ (names.zip types).map Prod.fst
    rwa [List.map_fst_zip hlength.le]
  obtain ⟨⟨slot, t⟩, hfound⟩ := Scope.exists_findLast?_of_mem hmem s.settings 0
  have hp : s.parameter? written = some (.parameter slot t) := by
    rw [Scope.parameter?, hfound]
    rfl
  have hname : s.name written = .ok (.parameter slot t) := by rw [Scope.name, hp, Option.some_or]
  show (s.name written).map _ = _ ↔ s.parameter? written = _
  rw [hname, hp]
  constructor
  · intro h
    have hbody := congrArg (Except.map Lambda.body) h
    simpa [Except.map, ofBody, body] using hbody
  · intro h
    cases h
    rfl

/-- **What a lambda returns** whose names are distinct and whose body is one of them. -/
theorem compile_parameter {i : Nat} {t : Ty}
    (hparse : Term.parse text = .ok (.lambda names (.name written))) (hnodup : names.Nodup)
    (hlength : names.length = types.length) (hi : names[i]? = some written)
    (ht : types[i]? = some t) (b : Bindings) :
    compile text types (b.withCase false) = .ok (ofBody 0 (names.zip types) (.parameter i t)) ∧
      (compile text types (b.withCase true) = .ok (ofBody 0 (names.zip types) (.parameter i t)) ↔
        ∀ name ∈ names.drop (i + 1), Text.sameIgnoringCase name written = false) := by
  have hmem : written ∈ names := List.mem_of_getElem? hi
  have hslot : (names.zip types)[i]? = some (written, t) := List.getElem?_zip_eq_some.mpr ⟨hi, ht⟩
  have hlater : ((names.zip types).drop (i + 1)).map Prod.fst = names.drop (i + 1) := by
    rw [List.map_drop, List.map_fst_zip hlength.le]
  have hlast : ∀ p ∈ (names.zip types).drop (i + 1), p.1 ≠ written := by
    rintro p hp rfl
    have hp : p.1 ∈ names.drop (i + 1) := by
      rw [← hlater]
      exact List.mem_map_of_mem hp
    have hi : p.1 ∈ names.take (i + 1) :=
      List.mem_of_getElem? ((List.getElem?_take_of_lt (Nat.lt_succ_self i)).trans hi)
    exact List.disjoint_take_drop hnodup le_rfl hi hp
  let s : Scope := { bindings := b, params := names.zip types, implicit := none }
  obtain ⟨hexact, hignoring⟩ := Scope.parameter?_withCase_iff (s := s) hslot hlast
  rw [compile_name_eq_ok_iff hparse hlength hmem, compile_name_eq_ok_iff hparse hlength hmem]
  refine ⟨hexact, hignoring.trans ?_⟩
  rw [← hlater, List.forall_mem_map]

end Lambda

/-- **A name that is spelled out.**  A field or a variable that the name spells out is found
whatever the setting.  A parameter that it spells out is found where case counts, the innermost of
that spelling, and also where it does not exactly if no parameter further in has a name that differs
in case alone; so it is with a lambda whose names are distinct and whose body is one of them. -/
theorem Scope.exact_spelling (s : Scope) (written : String) :
    (∀ r : RecordTy, written ∈ r.fields.map (·.1) →
      ∃ found, found.name = written ∧
        ∀ ignoreCase, r.field? written ignoreCase = some found) ∧
    (written ∈ s.bindings.named.map (·.1) →
      ∃ v, s.bindings.named.lookup written = some v ∧
        ∀ ignoreCase, (s.bindings.withCase ignoreCase).lookup? written = some v) ∧
    (written ∈ s.params.map (·.1) →
      ∃ slot t, s.params[slot]? = some (written, t) ∧
        (s.withCase false).parameter? written = some (.parameter slot t) ∧
        ((s.withCase true).parameter? written = some (.parameter slot t) ↔
          ∀ p ∈ s.params.drop (slot + 1), Text.sameIgnoringCase p.1 written = false)) ∧
    ∀ (text : String) (names : List String) (types : List Ty) (i : Nat) (t : Ty),
      Term.parse text = .ok (.lambda names (.name written)) → names.Nodup →
      names.length = types.length → names[i]? = some written → types[i]? = some t →
        let l := Lambda.ofBody 0 (names.zip types) (.parameter i t)
        Lambda.compile text types (s.bindings.withCase false) = .ok l ∧
          (Lambda.compile text types (s.bindings.withCase true) = .ok l ↔
            ∀ name ∈ names.drop (i + 1), Text.sameIgnoringCase name written = false) := by
  refine ⟨fun r => RecordTy.field?_of_mem, Bindings.lookup?_of_mem, ?_, ?_⟩
  · intro h
    obtain ⟨slot, t, hslot, hlast⟩ := exists_last_of_mem h
    exact ⟨slot, t, hslot, parameter?_withCase_iff hslot hlast⟩
  · intro text names types i t hparse hnodup hlength hi ht
    exact Lambda.compile_parameter hparse hnodup hlength hi ht s.bindings

/-- The second of two fields and of two variables that differ in case alone, the innermost of three
parameters, and a pair of which the first is returned. -/
theorem Scope.exact_spelling_second :
    let r : RecordTy := { name := none, fields := [("Id", .int), ("id", .string)] }
    let b : Bindings :=
      { values := [], named := [("Id", .int 1), ("id", .int 2)], settings := .standard }
    let s : Scope :=
      { bindings := b, params := [("id", .int), ("ID", .int), ("id", .string)], implicit := none }
    let l := Lambda.ofBody 0 [("id", .int), ("x", .string)] (.parameter 0 .int)
    (∃ found, found.name = "id" ∧ ∀ ignoreCase, r.field? "id" ignoreCase = some found) ∧
      (∃ v, b.named.lookup "id" = some v ∧
        ∀ ignoreCase, (b.withCase ignoreCase).lookup? "id" = some v) ∧
      (s.withCase true).parameter? "id" = some (.parameter 2 .string) ∧
      Lambda.compile "(id, x) => id" [.int, .string] (b.withCase false) = .ok l ∧
      Lambda.compile "(id, x) => id" [.int, .string] (b.withCase true) = .ok l := by
  intro r b s l
  obtain ⟨hfields, hvariables, hparameters, hlambdas⟩ := exact_spelling s "id"
  have hparse : Term.parse "(id, x) => id" = .ok (.lambda ["id", "x"] (.name "id")) := by cbv
  obtain ⟨hexact, hignoring⟩ :=
    hlambdas _ ["id", "x"] [.int, .string] 0 .int hparse (by decide) rfl rfl rfl
  obtain ⟨slot, t, -, hslot, hsame⟩ := hparameters (by decide)
  have hfound : (s.withCase false).parameter? "id" = some (.parameter 2 .string) := rfl
  cases hslot.symm.trans hfound
  exact ⟨hfields r (by decide), hvariables (by decide), hsame.mpr (by decide), hexact,
    hignoring.mpr (by decide)⟩

/-- Where case does not count, `a` in `(a, A) => a` denotes the parameter that is not spelled so. -/
theorem Scope.parameters_overlook_spelling :
    ¬ ∀ (s : Scope) (written : String), written ∈ s.params.map (·.1) →
      (s.withCase true).parameter? written = (s.withCase false).parameter? written := by
  intro h
  let s : Scope :=
    { bindings := .empty, params := [("a", .int), ("A", .int)], implicit := none }
  have hsame := h s "a" (by decide)
  have hexact : (s.withCase false).parameter? "a" = some (.parameter 0 .int) := rfl
  have hignoring : (s.withCase true).parameter? "a" = some (.parameter 1 .int) := rfl
  cases hignoring.symm.trans (hsame.trans hexact)

end LambdaQuery
