/-
**Records out of JSON.**  A reader of JSON that is led by a type builds records of that type, and
where the type is `object` it makes record types up, each field with the type that is read off its
value, made nullable.  Neither way checks the records that it builds.  Those of a given type need no
check, since each field was read at its own type.  Those that are made up do: a field need not
conform to the type read off it.

The condition under which they are right can be told from the tree, and it comes through both
readers by recursion, on the tree for the untyped one and on the type for the other.

Main definitions:
* `Json.isRegular` — the members of all objects in the tree stand for uniform values;
* `Json.regularFor` — so do those parts of the tree that a type reads without a type of their own;
* `Ty.isExplicit` — no part is read without a type of its own.

Main results:
* `Value.conforms_typeOf_asNullable` — what a field that was made up asks of its value;
* `Value.wellFormed_ofUntyped` — the records that are made up hold what their types ask for exactly
  when the tree is regular;
* `Value.conforms_and_wellFormed_of_ofJson` — the same at a given type;
* `Value.ofJson_belongs_iff` — **what is read at a type conforms to it, and its records hold what
  their types ask for exactly when the parts without a type are regular**.
-/

import LambdaQuery.Proofs.InferredTypes
import LambdaQuery.Value.Json

namespace LambdaQuery

/-! ### Regular trees -/

namespace Json

mutual

/-- Do the members of all objects in the tree stand for uniform values? -/
def isRegular : Json → Bool
  | array items => itemsRegular items
  | object members => membersRegular members
  | _ => true

/-- Are the elements regular? -/
def itemsRegular : List Json → Bool
  | [] => true
  | j :: js => isRegular j && itemsRegular js

/-- Do the members stand for uniform values, and are they regular? -/
def membersRegular : List (String × Json) → Bool
  | [] => true
  | (_, j) :: rest => (Value.ofUntyped j).isUniform && isRegular j && membersRegular rest

end

mutual

/-- Is each part of the tree regular that the type reads at `object`?  What no reader looks at, such
as a member that no field asks for, need not be. -/
def regularFor (t : Ty) (j : Json) : Bool :=
  match t, j with
  | .object, j => isRegular j
  | .nullable t, j => regularFor t j
  | .list t, array items | .sequence t, array items => items.all fun j => regularFor t j
  | .record _ fields, object members => fieldsRegularFor fields members
  | _, _ => true

/-- Are those parts of the members regular, each member as its field reads it? -/
def fieldsRegularFor (fields : List (String × Ty)) (members : List (String × Json)) : Bool :=
  match fields with
  | [] => true
  | (name, t) :: fields =>
    regularFor t ((members.lookup name).getD null) && fieldsRegularFor fields members

end

theorem regularFor_null : ∀ t : Ty, null.regularFor t = true
  | .nullable t => regularFor_null t
  | .object | .null | .bool | .int | .long | .double | .string | .timestamp => rfl
  | .record _ _ | .list _ | .sequence _ | .grouping _ _ | .query _ | .orderedQuery _
  | .function _ _ => rfl

end Json

theorem Ty.base_asNullable (t : Ty) : t.asNullable.base = t.base := by
  unfold asNullable
  split <;> rfl

namespace Value

/-! ### Record types that are made up -/

/-- A field that was made up for a value asks of it to be uniform. -/
theorem conforms_typeOf_asNullable (v : Value) : v.conforms v.typeOf.asNullable = v.isUniform := by
  by_cases hv : v = null
  · rw [hv]
    rfl
  · have hbase : v.typeOf.asNullable.base = v.typeOf.base := Ty.base_asNullable _
    rw [isUniform, ← conforms_typeOf, Bool.eq_iff_iff]
    exact ⟨conforms_of_ne_null hv hbase, conforms_of_ne_null hv hbase.symm⟩

theorem wellFormed_ofNumber (n : Json.Number) : (ofNumber n).wellFormed = true := by
  unfold ofNumber
  split
  · split <;> rfl
  · rfl

theorem exists_of_int32? {n : Json.Number} {v : Value} (h : int32? n = some v) :
    ∃ m, v = int m := by
  unfold int32? at h
  obtain ⟨m, -, hm⟩ := Option.bind_eq_some_iff.mp h
  split at hm
  · exact ⟨m.toInt32, (Option.some.inj hm).symm⟩
  · cases hm

mutual

/-- **The records that are made up for a tree** hold what their types ask for exactly when the tree
is regular. -/
theorem wellFormed_ofUntyped : ∀ j : Json, (ofUntyped j).wellFormed = j.isRegular
  | .null | .bool _ | .string _ => rfl
  | .number n => wellFormed_ofNumber n
  | .array items => allWellFormed_ofUntypedAll items
  | .object members => fits_ofUntypedMembers members

theorem allWellFormed_ofUntypedAll : ∀ js : List Json,
    allWellFormed (ofUntypedAll js) = Json.itemsRegular js
  | [] => rfl
  | j :: js => by
    rw [ofUntypedAll, allWellFormed, Json.itemsRegular, wellFormed_ofUntyped j,
      allWellFormed_ofUntypedAll js]

/-- The fields that are made up for members fit their values, and these are well formed, exactly
when the members are regular. -/
theorem fits_ofUntypedMembers : ∀ members : List (String × Json),
    (fitFields ((ofUntypedMembers members).map fun (name, v) => (name, v.typeOf.asNullable))
        ((ofUntypedMembers members).map (·.2)) &&
      allWellFormed ((ofUntypedMembers members).map (·.2))) = Json.membersRegular members
  | [] => rfl
  | (name, j) :: rest => by
    have hrest := fits_ofUntypedMembers rest
    simp only [ofUntypedMembers, List.map_cons, fitFields, allWellFormed, Json.membersRegular,
      conforms_typeOf_asNullable, wellFormed_ofUntyped j, ← hrest]
    -- the conditions on this member stand together on the right and apart on the left
    ac_rfl

end

/-! ### Reading at a type -/

/-- What is read one by one was read in each place. -/
theorem forall₂_of_mapM_ofJson {t : Ty} {js : List Json} {vs : List Value}
    (h : js.mapM (ofJson t) = .ok vs) : List.Forall₂ (fun j v => ofJson t j = .ok v) js vs := by
  induction js generalizing vs with
  | nil =>
      cases h
      exact .nil
  | cons j js ih =>
      rw [List.mapM_cons] at h
      cases hj : ofJson t j with
      | error e => simp [hj, bind, Except.bind] at h
      | ok v =>
          cases hjs : js.mapM (ofJson t) with
          | error e => simp [hj, hjs, bind, Except.bind] at h
          | ok ws =>
              simp only [hj, hjs, bind, Except.bind, pure, Except.pure, Except.ok.injEq] at h
              subst h
              exact .cons hj (ih hjs)

/-- Elements that are read well one by one are read well together. -/
theorem conformAll_and_allWellFormed {e : Ty} {js : List Json} {vs : List Value}
    (h : List.Forall₂ (fun j v => v.conforms e = true ∧ v.wellFormed = j.regularFor e) js vs) :
    conformAll vs e = true ∧ allWellFormed vs = js.all fun j => j.regularFor e := by
  induction h with
  | nil => exact ⟨rfl, rfl⟩
  | cons hv _ ih =>
      obtain ⟨hc, hw⟩ := hv
      obtain ⟨hcs, hws⟩ := ih
      refine ⟨?_, ?_⟩
      · simp [conformAll, hc, hcs]
      · simp [allWellFormed, hw, hws]

/-- What is read at a type of lists or of sequences, where the elements are read well. -/
theorem elements_of_ofJson {t e : Ty} {j : Json} {v : Value} (ht : t = .list e ∨ t = .sequence e)
    (h : ofJson t j = .ok v)
    (elements : ∀ (j : Json) (v : Value), ofJson e j = .ok v →
      v.conforms e = true ∧ v.wellFormed = j.regularFor e) :
    v.conforms t = true ∧ v.wellFormed = j.regularFor t := by
  obtain ⟨rfl, rfl⟩ | ⟨js, vs, rfl, rfl, hread⟩ : (j = .null ∧ v = null) ∨
      ∃ js vs, j = .array js ∧ v = sequence vs ∧ js.mapM (ofJson e) = .ok vs := by
    cases j with
    | null => rcases ht with rfl | rfl <;> cases h <;> exact .inl ⟨rfl, rfl⟩
    | array js =>
        cases hjs : js.mapM (ofJson e) with
        | error _ => rcases ht with rfl | rfl <;> simp [ofJson, hjs, Except.map] at h
        | ok vs =>
            have hv : sequence vs = v := by
              rcases ht with rfl | rfl <;> simpa [ofJson, hjs, Except.map] using h
            exact .inr ⟨js, vs, rfl, hv.symm, hjs⟩
    | _ => rcases ht with rfl | rfl <;> cases h
  · rcases ht with rfl | rfl <;> exact ⟨rfl, rfl⟩
  · have hall := (forall₂_of_mapM_ofJson hread).imp elements
    rcases ht with rfl | rfl <;> exact conformAll_and_allWellFormed hall

/-- What is read at a type without null. -/
theorem value_of_ofJson {t : Ty} {j : Json} {v : Value} (ht : t.isValue = true)
    (h : ofJson t j = .ok v) : v.conforms t = true ∧ v.wellFormed = j.regularFor t := by
  cases t with
  | bool =>
      cases j with
      | bool b =>
          cases h
          exact ⟨rfl, rfl⟩
      | _ => cases h
  | int =>
      cases j with
      | number n =>
          cases hn : int32? n with
          | none => simp [ofJson, hn] at h
          | some w =>
              obtain rfl : w = v := by simpa [ofJson, hn] using h
              obtain ⟨m, rfl⟩ := exists_of_int32? hn
              exact ⟨rfl, rfl⟩
      | _ => cases h
  | long =>
      cases j with
      | number n =>
          cases hn : n.toInt64? with
          | none => simp [ofJson, hn] at h
          | some m =>
              obtain rfl : long m = v := by simpa [ofJson, hn] using h
              exact ⟨rfl, rfl⟩
      | _ => cases h
  | double =>
      cases j with
      | number n =>
          cases h
          exact ⟨rfl, rfl⟩
      | _ => cases h
  | timestamp =>
      cases j with
      | string s =>
          cases hs : Timestamp.parse? s with
          | none => simp [ofJson, hs] at h
          | some m =>
              obtain rfl : timestamp m = v := by simpa [ofJson, hs] using h
              exact ⟨rfl, rfl⟩
      | _ => cases h
  | _ => cases ht

mutual

/-- **What is read at a type conforms to it**, and its records hold what their types ask for exactly
when the parts of the tree without a type are regular. -/
theorem conforms_and_wellFormed_of_ofJson (t : Ty) {j : Json} {v : Value}
    (h : ofJson t j = .ok v) : v.conforms t = true ∧ v.wellFormed = j.regularFor t := by
  cases t with
  | object =>
      -- the only type at which record types are made up
      cases h
      exact ⟨conforms_object _, wellFormed_ofUntyped j⟩
  | nullable u =>
      by_cases hj : j = .null
      · subst hj
        cases h
        exact ⟨rfl, (Json.regularFor_null u).symm⟩
      · have hread : ofJson u j = .ok v := by simpa [ofJson, hj] using h
        obtain ⟨hc, hw⟩ := conforms_and_wellFormed_of_ofJson u hread
        exact ⟨conforms_of_base (s := u) (fun _ => rfl) rfl hc, hw⟩
  | list e =>
      exact elements_of_ofJson (.inl rfl) h fun j v => conforms_and_wellFormed_of_ofJson e
  | sequence e =>
      exact elements_of_ofJson (.inr rfl) h fun j v => conforms_and_wellFormed_of_ofJson e
  | record name fields =>
      cases j with
      | null =>
          cases h
          exact ⟨rfl, rfl⟩
      | object members =>
          cases hm : ofMembers fields members with
          | error e => simp [ofJson, hm, Except.map] at h
          | ok vs =>
              obtain ⟨hf, hw⟩ := fits_and_wellFormed_of_ofMembers fields hm
              obtain rfl : record { name, fields } vs = v := by
                simpa [ofJson, hm, Except.map] using h
              refine ⟨?_, ?_⟩
              · simp [conforms, Ty.base, RecordTy.toTy]
              · simp [wellFormed, hf, hw, Json.regularFor]
      | _ => cases h
  | bool | int | long | double | timestamp => exact value_of_ofJson rfl h
  | null | string | grouping _ _ | query _ | orderedQuery _ | function _ _ =>
      cases j <;> cases h <;> exact ⟨rfl, rfl⟩

/-- The values of the fields conform to them, each having been read at its own type. -/
theorem fits_and_wellFormed_of_ofMembers (fields : List (String × Ty))
    {members : List (String × Json)} {vs : List Value} (h : ofMembers fields members = .ok vs) :
    fitFields fields vs = true ∧ allWellFormed vs = Json.fieldsRegularFor fields members := by
  cases fields with
  | nil =>
      cases h
      exact ⟨rfl, rfl⟩
  | cons f fields =>
      obtain ⟨name, t⟩ := f
      cases hj : ofJson t ((members.lookup name).getD .null) with
      | error e => simp [ofMembers, hj, bind, Except.bind] at h
      | ok v =>
          cases hm : ofMembers fields members with
          | error e => simp [ofMembers, hj, hm, bind, Except.bind] at h
          | ok ws =>
              obtain rfl : v :: ws = vs := by
                simpa [ofMembers, hj, hm, bind, Except.bind, pure, Except.pure] using h
              obtain ⟨hc, hw⟩ := conforms_and_wellFormed_of_ofJson t hj
              obtain ⟨hf, hws⟩ := fits_and_wellFormed_of_ofMembers fields hm
              refine ⟨?_, ?_⟩
              · simp [fitFields, hc, hf]
              · simp [allWellFormed, Json.fieldsRegularFor, hw, hws]

end

end Value

/-! ### Explicit types -/

mutual

/-- Does the type say of each part that it reads what its type is? -/
def Ty.isExplicit : Ty → Bool
  | .object => false
  | .nullable t | .list t | .sequence t => t.isExplicit
  | .record _ fields => Ty.fieldsExplicit fields
  | _ => true

/-- Are the types of the fields explicit? -/
def Ty.fieldsExplicit : List (String × Ty) → Bool
  | [] => true
  | (_, t) :: fields => t.isExplicit && Ty.fieldsExplicit fields

end

mutual

theorem Json.regularFor_of_isExplicit : ∀ {t : Ty} (j : Json), t.isExplicit = true →
    j.regularFor t = true
  | .nullable t, j => fun h => Json.regularFor_of_isExplicit (t := t) j h
  | .list t, j | .sequence t, j => fun h => by
    cases j with
    | array js =>
        rw [Json.regularFor, List.all_eq_true]
        exact fun j _ => Json.regularFor_of_isExplicit j h
    | _ => rfl
  | .record _ fields, j => fun h => by
    cases j with
    | object members => exact Json.fieldsRegularFor_of_fieldsExplicit members h
    | _ => rfl
  | .object, _ => nofun
  | .null, _ | .bool, _ | .int, _ | .long, _ | .double, _ | .string, _ | .timestamp, _
  | .grouping _ _, _ | .query _, _ | .orderedQuery _, _ | .function _ _, _ => fun _ => rfl

theorem Json.fieldsRegularFor_of_fieldsExplicit : ∀ {fields : List (String × Ty)}
    (members : List (String × Json)), Ty.fieldsExplicit fields = true →
      Json.fieldsRegularFor fields members = true
  | [], _ => fun _ => rfl
  | (name, t) :: fields, members => fun h => by
    obtain ⟨ht, hf⟩ : t.isExplicit = true ∧ Ty.fieldsExplicit fields = true := by
      simpa [Ty.fieldsExplicit] using h
    have hj := Json.regularFor_of_isExplicit ((members.lookup name).getD .null) ht
    simp [Json.fieldsRegularFor, hj, Json.fieldsRegularFor_of_fieldsExplicit members hf]

end

namespace Value

/-- **What is read at a type.**  It conforms to the type.  Each record inside it holds one
conforming value for each of its fields exactly when the parts without a type are regular, and
always where the type is explicit. -/
theorem ofJson_belongs_iff (t : Ty) (j : Json) (v : Value) (h : ofJson t j = .ok v) :
    v.conforms t = true ∧ (v.wellFormed = true ↔ j.regularFor t = true) ∧
      (t.isExplicit = true → v.wellFormed = true) := by
  obtain ⟨hc, hw⟩ := conforms_and_wellFormed_of_ofJson t h
  refine ⟨hc, by rw [hw], fun ht => ?_⟩
  rw [hw]
  exact Json.regularFor_of_isExplicit j ht

/-- A row whose marks are texts and null, read without a type of its own and then at the type that
was made up for it. -/
theorem ofJson_belongs_iff_row :
    let j := Json.array [.object [("marks", .array [.null, .string "b"]), ("rank", .null)]]
    let row : RecordTy := { name := none, fields := [("marks", .list .string), ("rank", .null)] }
    let v := sequence [record row [sequence [null, string "b"], null]]
    (ofJson (.list .object) j = .ok v ∧ v.conforms (.list .object) = true ∧
      j.regularFor (.list .object) = true ∧ v.wellFormed = true) ∧
      ofJson (.list row.toTy) j = .ok v ∧ v.conforms (.list row.toTy) = true ∧
        (Ty.list row.toTy).isExplicit = true ∧ v.wellFormed = true := by
  intro j row v
  have hmade : ofJson (.list .object) j = .ok v := rfl
  have hread : ofJson (.list row.toTy) j = .ok v := rfl
  have hregular : j.regularFor (.list .object) = true := by decide
  have hexplicit : (Ty.list row.toTy).isExplicit = true := by decide
  obtain ⟨hc, hw, -⟩ := ofJson_belongs_iff (.list .object) j v hmade
  obtain ⟨hc', -, hw'⟩ := ofJson_belongs_iff (.list row.toTy) j v hread
  exact ⟨⟨hmade, hc, hregular, hw.mpr hregular⟩, hread, hc', hexplicit, hw' hexplicit⟩

/-- The record that is made up for an object whose array holds an integer and null promises a list
of integers and does not hold one. -/
theorem ofJson_overlooks_null :
    ¬ ∀ (t : Ty) (j : Json) (v : Value), ofJson t j = .ok v →
      v.conforms t = true ∧ v.wellFormed = true := by
  intro h
  let prices : RecordTy := { name := none, fields := [("prices", .list .int)] }
  have hread : ofJson .object (.object [("prices", .array [.number (.int 1), .null])]) =
      .ok (record prices [sequence [int 1, null]]) := by rfl
  obtain ⟨-, hw⟩ := h _ _ _ hread
  have hnot : (record prices [sequence [int 1, null]]).wellFormed ≠ true := by decide
  exact hnot hw

end Value

end LambdaQuery
