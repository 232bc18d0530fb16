/-
**Values of a type.**  `Value.conforms` trusts a record to its type and does not look into it, so a
value belongs to a type here if it conforms to it and every record inside it holds one conforming
value for each field.

Main definitions:
* `Value.wellFormed` — every record inside the value has the values that its type asks for;
* `Value.Belongs` — the value is well formed and conforms to the type;
* `Ty.Widens` — the values of the first type become values of the second when they are converted.

Main results:
* `Value.Belongs.of_assignable` — **a value of a type is a value of every type to which the first
  one is assignable**;
* `Value.Belongs.convert` — conversion along `Ty.Widens` leads to values of the wider type;
* `Ty.widens_of_promote`, `Ty.widens_of_unify` — both operands widen to their common type;
* `Value.Belongs.elements`, `Value.Belongs.fieldValues` — what the parts of a value belong to;
* `Ty.default_belongs` — the default of a type is one of its values.
-/

import LambdaQuery.Expr.Operation
import LambdaQuery.Ty.Assignable
import LambdaQuery.Value.Error
import Mathlib

namespace LambdaQuery

/-! ### Null and the layers of nullability -/

namespace Ty

theorem base_underlying (t : Ty) : t.underlying.base = t.base := by
  cases t <;> rfl

theorem acceptsNull_asNullable (t : Ty) : t.asNullable.acceptsNull = true := by
  unfold asNullable
  split
  · rfl
  · rename_i h
    simp [acceptsNull, h]

theorem acceptsNull_of_isNullable {t : Ty} (h : t.isNullable = true) : t.acceptsNull = true := by
  cases t <;> simp_all [isNullable, acceptsNull, isValue]

/-- Elements of the first type may stand for elements of the second one. -/
def Reads (s t : Ty) : Prop := s = t ∨ (s.isReference = true ∧ s.assignable t = true)

/-- The ways in which one type is assignable to another. -/
theorem assignable_cases {s t : Ty} (h : s.assignable t = true) :
    s = t ∨ t = object ∨ (s = null ∧ t.acceptsNull = true) ∨ t = nullable s ∨
      (∃ d e, s.element? = some d ∧ t = sequence e ∧ Reads d e) ∨
      (∃ d e, s = orderedQuery d ∧ t = query e ∧ Reads d e) := by
  by_cases hst : s = t
  · exact .inl hst
  unfold assignable at h
  cases s <;> cases t <;> simp_all [Reads, element?]

/-- The numeric types are the three kinds of numbers and their nullable forms. -/
theorem isNumeric_iff {t : Ty} :
    t.isNumeric = true ↔ t.underlying = int ∨ t.underlying = long ∨ t.underlying = double := by
  unfold isNumeric numericRank?
  cases t.underlying <;> simp

end Ty

theorem RecordTy.toTy_inj {s t : RecordTy} : s.toTy = t.toTy ↔ s = t := by
  cases s
  cases t
  simp [toTy]

namespace Value

variable {v : Value} {s t : Ty}

/-! ### Conforming, by the base of the type -/

/-- Conforming depends on whether the type accepts null and on its base alone. -/
theorem conforms_of_base (hn : s.acceptsNull = true → t.acceptsNull = true) (hb : s.base = t.base)
    (h : v.conforms s = true) : v.conforms t = true := by
  cases v with
  | null => exact conforms_null.trans (hn (conforms_null.symm.trans h))
  | _ =>
      simp only [conforms, hb] at h ⊢
      exact h

/-- A value other than null conforms whatever the nullability. -/
theorem conforms_of_ne_null (hv : v ≠ null) (hb : s.base = t.base) (h : v.conforms s = true) :
    v.conforms t = true := by
  cases v with
  | null => exact absurd rfl hv
  | _ =>
      simp only [conforms, hb] at h ⊢
      exact h

theorem conforms_bool_iff (hb : t.base = .bool) :
    v.conforms t = true ↔ (v = null ∧ t.acceptsNull = true) ∨ ∃ b, v = bool b := by
  cases v <;> simp [conforms, hb, RecordTy.toTy]

theorem conforms_int_iff (hb : t.base = .int) :
    v.conforms t = true ↔ (v = null ∧ t.acceptsNull = true) ∨ ∃ n, v = int n := by
  cases v <;> simp [conforms, hb, RecordTy.toTy]

theorem conforms_long_iff (hb : t.base = .long) :
    v.conforms t = true ↔ (v = null ∧ t.acceptsNull = true) ∨ ∃ n, v = long n := by
  cases v <;> simp [conforms, hb, RecordTy.toTy]

theorem conforms_double_iff (hb : t.base = .double) :
    v.conforms t = true ↔ (v = null ∧ t.acceptsNull = true) ∨ ∃ x, v = double x := by
  cases v <;> simp [conforms, hb, RecordTy.toTy]

theorem conforms_string_iff (hb : t.base = .string) :
    v.conforms t = true ↔ (v = null ∧ t.acceptsNull = true) ∨ ∃ x, v = string x := by
  cases v <;> simp [conforms, hb, RecordTy.toTy]

theorem conforms_timestamp_iff (hb : t.base = .timestamp) :
    v.conforms t = true ↔ (v = null ∧ t.acceptsNull = true) ∨ ∃ x, v = timestamp x := by
  cases v <;> simp [conforms, hb, RecordTy.toTy]

/-! ### Conforming, one by one -/

/-- Every value is an object. -/
theorem conforms_object (v : Value) : v.conforms .object = true := by
  cases v <;> simp [conforms, Ty.base, Ty.acceptsNull, Ty.isValue]

theorem conformAll_iff : ∀ {vs : List Value},
    conformAll vs t = true ↔ ∀ v ∈ vs, v.conforms t = true := by
  intro vs
  induction vs with
  | nil => simp [conformAll]
  | cons v vs ih => simp [conformAll, ih]

/-- The values of a record type: null and its records. -/
theorem record_of_conforms {r : RecordTy} (h : v.conforms r.toTy = true) :
    v = null ∨ ∃ vs, v = record r vs := by
  cases v with
  | null => exact .inl rfl
  | record s vs =>
      have hbase : r.toTy.base = r.toTy := rfl
      have hobject : r.toTy ≠ .object := nofun
      have hr : r = s := by simpa [conforms, hbase, hobject, RecordTy.toTy_inj] using h
      exact .inr ⟨vs, by rw [hr]⟩
  | _ => simp [conforms, Ty.base, RecordTy.toTy] at h

/-- The values of a type of lists: null and the sequences of its elements. -/
theorem list_of_conforms (h : v.conforms (.list t) = true) :
    v = null ∨ ∃ vs, v = sequence vs ∧ ∀ u ∈ vs, u.conforms t = true := by
  cases v with
  | null => exact .inl rfl
  | sequence vs => exact .inr ⟨vs, rfl, fun u hu => conformAll_iff.mp h u hu⟩
  | _ => simp [conforms, Ty.base, RecordTy.toTy] at h

/-- The values of a type of groupings: null and the elements under a key, each of its type. -/
theorem grouping_of_conforms {k : Ty} (h : v.conforms (.grouping k t) = true) :
    v = null ∨ ∃ key vs, v = grouping key vs ∧ key.conforms k = true ∧
      ∀ u ∈ vs, u.conforms t = true := by
  cases v with
  | null => exact .inl rfl
  | grouping key vs =>
      simp only [conforms, Ty.base, Bool.and_eq_true] at h
      exact .inr ⟨key, vs, rfl, h.1, fun u hu => conformAll_iff.mp h.2 u hu⟩
  | _ => simp [conforms, Ty.base, RecordTy.toTy] at h

/-- The elements of a value of a collection type, which is null only for the types of queries. -/
theorem conforms_of_element {e : Ty} (he : t.element? = some e) (h : v.conforms t = true) :
    v = null ∨ ∃ items, v.elements? = some items ∧ conformAll items e = true := by
  cases t <;> simp only [Ty.element?, Option.some.injEq, reduceCtorEq] at he <;> subst he <;>
    cases v <;> simp_all [conforms, Ty.base, RecordTy.toTy, elements?]

theorem conforms_sequence {e : Ty} {items : List Value} (hi : v.elements? = some items)
    (h : conformAll items e = true) : v.conforms (.sequence e) = true := by
  cases v <;> simp_all [conforms, Ty.base, elements?]

/-- Conforming follows assignability, by recursion on the type that is expected. -/
theorem conforms_of_assignable (t : Ty) {s : Ty} {v : Value} (h : s.assignable t = true)
    (hv : v.conforms s = true) : v.conforms t = true := by
  rcases Ty.assignable_cases h with rfl | rfl | ⟨rfl, hn⟩ | rfl | ⟨d, e, hd, rfl, hde⟩ |
    ⟨d, e, rfl, rfl, -⟩
  · exact hv
  · exact conforms_object v
  · cases v <;> simp_all [conforms, Ty.base, RecordTy.toTy]
  · exact conforms_of_base (s := s) (fun _ => rfl) rfl hv
  · rcases conforms_of_element hd hv with rfl | ⟨items, hi, hall⟩
    · exact conforms_null.trans rfl
    refine conforms_sequence hi ?_
    rcases hde with rfl | ⟨-, hde⟩
    · exact hall
    rw [conformAll_iff] at hall ⊢
    intro u hu
    exact conforms_of_assignable e hde (hall u hu)
  · cases v <;> simp_all [conforms, Ty.base, RecordTy.toTy, Ty.acceptsNull, Ty.isValue]
termination_by sizeOf t

/-! ### Well-formed values -/

/-- Is there one value for each field, and does each conform to its field? -/
def fitFields : List (String × Ty) → List Value → Bool
  | [], [] => true
  | (_, t) :: fields, v :: vs => v.conforms t && fitFields fields vs
  | _, _ => false

mutual

/-- Has every record inside the value the values that its type asks for? -/
def wellFormed : Value → Bool
  | record type values => fitFields type.fields values && allWellFormed values
  | sequence items => allWellFormed items
  | grouping key elements => wellFormed key && allWellFormed elements
  | _ => true

/-- Are all the values well formed? -/
def allWellFormed : List Value → Bool
  | [] => true
  | v :: vs => wellFormed v && allWellFormed vs

end

theorem allWellFormed_iff : ∀ {vs : List Value},
    allWellFormed vs = true ↔ ∀ v ∈ vs, v.wellFormed = true := by
  intro vs
  induction vs with
  | nil => simp [allWellFormed]
  | cons v vs ih => simp [allWellFormed, ih]

theorem fitFields_iff : ∀ {fields : List (String × Ty)} {vs : List Value},
    fitFields fields vs = true ↔ List.Forall₂ (fun f v => v.conforms f.2 = true) fields vs := by
  intro fields
  induction fields with
  | nil =>
      intro vs
      cases vs <;> simp [fitFields]
  | cons f fields ih =>
      intro vs
      cases vs <;> simp [fitFields, ih]

/-- As many values as there are fields fit unless one of them misses its field. -/
theorem misfit?_eq_none_iff {fields : List (String × Ty)} {vs : List Value}
    (hl : fields.length = vs.length) : misfit? fields vs = none ↔ fitFields fields vs = true := by
  induction fields generalizing vs with
  | nil =>
      cases vs with
      | nil => simp [misfit?, fitFields]
      | cons v vs => simp at hl
  | cons f fields ih =>
      cases vs with
      | nil => simp at hl
      | cons v vs =>
          have hrest : fields.length = vs.length := by simpa using hl
          by_cases hv : v.conforms f.2 = true
          · simp [misfit?, fitFields, hv, ih hrest]
          · simp [misfit?, fitFields, hv]

/-- What `Value.record?` accepts is what fits the fields. -/
theorem record?_eq_ok_iff {type : RecordTy} {vs : List Value} :
    record? type vs = .ok (record type vs) ↔ fitFields type.fields vs = true := by
  unfold record?
  by_cases hl : type.fields.length = vs.length
  · rw [← misfit?_eq_none_iff hl]
    cases misfit? type.fields vs <;> simp [hl]
  · have hf : fitFields type.fields vs = false := by
      rw [← Bool.not_eq_true, fitFields_iff]
      intro h
      exact hl h.length_eq
    simp [hl, hf]

/-! ### Belonging -/

/-- The value is one of the values of the type, down to the fields of the records inside it. -/
structure Belongs (v : Value) (t : Ty) : Prop where
  wellFormed : v.wellFormed = true
  conforms : v.conforms t = true

instance (v : Value) (t : Ty) : Decidable (v.Belongs t) :=
  decidable_of_iff (v.wellFormed = true ∧ v.conforms t = true)
    ⟨fun h => ⟨h.1, h.2⟩, fun h => ⟨h.1, h.2⟩⟩

/-- Do all the values belong to the type? -/
def AllBelong (vs : List Value) (t : Ty) : Prop := ∀ v ∈ vs, v.Belongs t

theorem allBelong_iff {vs : List Value} :
    AllBelong vs t ↔ allWellFormed vs = true ∧ conformAll vs t = true := by
  rw [allWellFormed_iff, conformAll_iff]
  constructor
  · intro h
    exact ⟨fun v hv => (h v hv).wellFormed, fun v hv => (h v hv).conforms⟩
  · rintro ⟨hw, hc⟩ v hv
    exact ⟨hw v hv, hc v hv⟩

namespace Belongs

/-- **A value of a type is a value of every type to which the type is assignable.** -/
theorem of_assignable (hv : v.Belongs s) (h : s.assignable t = true) : v.Belongs t :=
  ⟨hv.wellFormed, conforms_of_assignable t h hv.conforms⟩

theorem of_null (h : t.acceptsNull = true) : null.Belongs t := ⟨rfl, conforms_null.trans h⟩

/-- A value other than null belongs whatever the nullability. -/
theorem of_ne_null (hv : v.Belongs s) (hn : v ≠ null) (hb : s.base = t.base) : v.Belongs t :=
  ⟨hv.wellFormed, conforms_of_ne_null hn hb hv.conforms⟩

theorem bool (b : Bool) : (Value.bool b).Belongs .bool := ⟨rfl, rfl⟩

theorem int (n : Int32) : (Value.int n).Belongs .int := ⟨rfl, rfl⟩

theorem long (n : Int64) : (Value.long n).Belongs .long := ⟨rfl, rfl⟩

theorem double (x : Double) : (Value.double x).Belongs .double := ⟨rfl, rfl⟩

theorem string (x : String) : (Value.string x).Belongs .string := ⟨rfl, rfl⟩

theorem list {items : List Value} (h : AllBelong items t) : (sequence items).Belongs (.list t) := by
  obtain ⟨hw, hc⟩ := allBelong_iff.mp h
  exact ⟨hw, hc⟩

theorem sequence {items : List Value} (h : AllBelong items t) :
    (Value.sequence items).Belongs (.sequence t) := by
  obtain ⟨hw, hc⟩ := allBelong_iff.mp h
  exact ⟨hw, hc⟩

theorem grouping {key : Value} {elements : List Value} (hk : key.Belongs s)
    (he : AllBelong elements t) : (Value.grouping key elements).Belongs (.grouping s t) := by
  obtain ⟨hw, hc⟩ := allBelong_iff.mp he
  refine ⟨?_, ?_⟩
  · simp [Value.wellFormed, hk.wellFormed, hw]
  · simp [Value.conforms, Ty.base, hk.conforms, hc]

theorem record {type : RecordTy} {values : List Value}
    (h : List.Forall₂ (fun f v => v.Belongs f.2) type.fields values) :
    (Value.record type values).Belongs type.toTy := by
  have hf : fitFields type.fields values = true :=
    fitFields_iff.mpr (h.imp fun _ _ hv => hv.conforms)
  have hw : allWellFormed values = true := by
    rw [allWellFormed_iff]
    intro v hv
    obtain ⟨i, hi, rfl⟩ := List.getElem_of_mem hv
    exact (h.get (by rw [h.length_eq]; exact hi) hi).wellFormed
  refine ⟨?_, ?_⟩
  · simp [Value.wellFormed, hf, hw]
  · simp [Value.conforms, RecordTy.toTy, Ty.base]

/-! ### Parts of values -/

/-- The elements of a value of a collection type; only the types of queries have no other value than
null. -/
theorem elements {e : Ty} (h : v.Belongs t) (he : t.element? = some e) :
    v = null ∨ ∃ items, v.elements? = some items ∧ AllBelong items e := by
  rcases conforms_of_element he h.conforms with rfl | ⟨items, hi, hc⟩
  · exact .inl rfl
  refine .inr ⟨items, hi, allBelong_iff.mpr ⟨?_, hc⟩⟩
  have hw := h.wellFormed
  cases v <;> simp_all [elements?, Value.wellFormed]

/-- The key of a value of a grouping type. -/
theorem key (h : v.Belongs (.grouping s t)) :
    v = null ∨ ∃ key elements, v = Value.grouping key elements ∧ key.Belongs s := by
  obtain ⟨hw, hc⟩ := h
  obtain rfl | ⟨key, elements, rfl, hkey, -⟩ := grouping_of_conforms hc
  · exact .inl rfl
  simp only [Value.wellFormed, Bool.and_eq_true] at hw
  exact .inr ⟨key, elements, rfl, hw.1, hkey⟩

/-- The values of the fields of a value of a record type. -/
theorem fieldValues {type : RecordTy} (h : v.Belongs type.toTy) :
    v = null ∨ ∃ values, v = Value.record type values ∧
      List.Forall₂ (fun f v => v.Belongs f.2) type.fields values := by
  obtain ⟨hw, hc⟩ := h
  obtain rfl | ⟨values, rfl⟩ := record_of_conforms hc
  · exact .inl rfl
  simp only [Value.wellFormed, Bool.and_eq_true, fitFields_iff, allWellFormed_iff] at hw
  obtain ⟨hf, hw⟩ := hw
  refine .inr ⟨values, rfl, List.forall₂_iff_get.mpr ⟨hf.length_eq, fun i hi hj => ?_⟩⟩
  exact ⟨hw _ (List.get_mem ..), hf.get hi hj⟩

end Belongs

end Value

/-! ### Widening -/

namespace Ty

/-- The values of the first type become values of the second one when they are converted: numbers
are widened, and of other types the first is assignable to the second. -/
def Widens (s t : Ty) : Prop :=
  s.assignable t = true ∨
    ∃ i j, s.numericRank? = some i ∧ t.numericRank? = some j ∧ i ≤ j ∧
      (s.isNullable = true → t.isNullable = true)

/-- The types that have a place in the order of widening, each with its place. -/
theorem numericRank?_cases {t : Ty} {i : Nat} (h : t.numericRank? = some i) :
    (t, i) ∈ [(int, 1), (nullable int, 1), (long, 2), (nullable long, 2), (double, 3),
      (nullable double, 3)] := by
  unfold numericRank? at h
  cases t with
  | nullable u => cases u <;> simp_all [underlying]
  | _ => simp_all [underlying]

/-- The common type of two numbers is as wide as the wider one, and nullable if one of them is. -/
theorem promote_spec {s t u : Ty} (h : promote s t = some u) :
    ∃ i j, s.numericRank? = some i ∧ t.numericRank? = some j ∧
      u.numericRank? = some (max i j) ∧ u.isNullable = (s.isNullable || t.isNullable) := by
  unfold promote at h
  simp only [Option.bind_eq_bind, Option.bind_eq_some_iff, Option.pure_def, Option.some.injEq] at h
  obtain ⟨i, hi, j, hj, rfl⟩ := h
  refine ⟨i, j, hi, hj, ?_⟩
  have hs := numericRank?_cases hi
  have ht := numericRank?_cases hj
  simp only [List.mem_cons, Prod.mk.injEq, List.not_mem_nil, or_false] at hs ht
  rcases hs with ⟨rfl, rfl⟩ | ⟨rfl, rfl⟩ | ⟨rfl, rfl⟩ | ⟨rfl, rfl⟩ | ⟨rfl, rfl⟩ | ⟨rfl, rfl⟩ <;>
    rcases ht with ⟨rfl, rfl⟩ | ⟨rfl, rfl⟩ | ⟨rfl, rfl⟩ | ⟨rfl, rfl⟩ | ⟨rfl, rfl⟩ | ⟨rfl, rfl⟩ <;>
    decide

theorem widens_refl (t : Ty) : Widens t t := by
  refine .inl ?_
  unfold assignable
  simp

theorem widens_asNullable (t : Ty) : Widens t t.asNullable := by
  unfold asNullable
  split
  · refine .inl ?_
    cases t <;> simp_all [isValue, assignable]
  · exact widens_refl t

theorem widens_of_promote {s t u : Ty} (h : promote s t = some u) : Widens s u ∧ Widens t u := by
  obtain ⟨i, j, hi, hj, hu, hn⟩ := promote_spec h
  refine ⟨.inr ⟨i, _, hi, hu, by omega, ?_⟩, .inr ⟨j, _, hj, hu, by omega, ?_⟩⟩
  · intro hs
    simp [hn, hs]
  · intro ht
    simp [hn, ht]

/-- Both types widen to their common type. -/
theorem widens_of_unify {s t u : Ty} (h : unify s t = some u) : Widens s u ∧ Widens t u := by
  have ofNull : ∀ r : Ty, Widens null r.asNullable := by
    intro r
    refine .inl ?_
    have hr := r.acceptsNull_asNullable
    unfold assignable
    generalize r.asNullable = r' at hr
    cases r' <;> simp_all
  -- the types are equal, or numeric, or one is null, or one may stand for the other
  unfold unify at h
  split at h
  · rename_i hst
    subst hst
    cases h
    exact ⟨widens_refl s, widens_refl s⟩
  split at h
  · rename_i w hw
    cases h
    exact widens_of_promote hw
  split at h
  · rename_i hs
    subst hs
    cases h
    exact ⟨ofNull t, widens_asNullable t⟩
  split at h
  · rename_i ht
    subst ht
    cases h
    exact ⟨widens_asNullable s, ofNull s⟩
  split at h
  · rename_i hst
    cases h
    exact ⟨.inl hst, widens_refl t⟩
  split at h
  · rename_i hts
    cases h
    exact ⟨widens_refl s, .inl hts⟩
  · cases h

end Ty

namespace Value

variable {v : Value} {s t : Ty}

/-- Conversion to a type leaves the values of the type as they are. -/
theorem convert_of_conforms (h : v.conforms t = true) : v.convert t = v := by
  unfold convert
  have hb := t.base_underlying
  split
  · rename_i n hu
    rw [hu] at hb
    simp [conforms, ← hb, Ty.base] at h
  · rename_i n hu
    rw [hu] at hb
    simp [conforms, ← hb, Ty.base] at h
  · rename_i n hu
    rw [hu] at hb
    simp [conforms, ← hb, Ty.base] at h
  · rfl

theorem convert_null : null.convert t = null := by
  unfold convert
  split <;> simp_all

/-- The values of a numeric type are the numbers of its kind, and null if it is nullable. -/
theorem conforms_number_iff {i : Nat} (ht : t.numericRank? = some i) :
    v.conforms t = true ↔
      (v = null ∧ t.isNullable = true) ∨ v.typeOf.numericRank? = some i := by
  have h := Ty.numericRank?_cases ht
  simp only [List.mem_cons, Prod.mk.injEq, List.not_mem_nil, or_false] at h
  rcases h with ⟨rfl, rfl⟩ | ⟨rfl, rfl⟩ | ⟨rfl, rfl⟩ | ⟨rfl, rfl⟩ | ⟨rfl, rfl⟩ | ⟨rfl, rfl⟩ <;>
    cases v <;>
    simp [conforms, typeOf, Ty.base, Ty.numericRank?, Ty.underlying, Ty.isNullable, RecordTy.toTy,
      Ty.acceptsNull, Ty.isValue]

/-- A number converted to a numeric type that is as wide becomes a number of its kind. -/
theorem rank_convert {i j : Nat} (hv : v.typeOf.numericRank? = some i)
    (ht : t.numericRank? = some j) (hij : i ≤ j) :
    (v.convert t).typeOf.numericRank? = some j := by
  unfold convert
  unfold Ty.numericRank? at ht
  cases v <;> simp only [typeOf, Ty.numericRank?, Ty.underlying, Option.some.injEq, reduceCtorEq,
    RecordTy.toTy] at hv <;> subst hv <;>
    cases hu : t.underlying <;> simp only [hu, Option.some.injEq, reduceCtorEq] at ht <;>
    subst ht <;> simp_all [typeOf, Ty.numericRank?, Ty.underlying]

/-- Conversion leads from what conforms to a type to what conforms to a wider one. -/
theorem conforms_convert (hv : v.conforms s = true) (h : s.Widens t) :
    (v.convert t).conforms t = true := by
  rcases h with h | ⟨i, j, hi, hj, hij, hn⟩
  · have hv := conforms_of_assignable t h hv
    rwa [convert_of_conforms hv]
  rcases (conforms_number_iff hi).mp hv with ⟨rfl, hs⟩ | hk
  · rw [convert_null]
    exact conforms_null.trans (Ty.acceptsNull_of_isNullable (hn hs))
  · exact (conforms_number_iff hj).mpr (.inr (rank_convert hk hj hij))

theorem wellFormed_convert (h : v.wellFormed = true) : (v.convert t).wellFormed = true := by
  unfold convert
  split
  · rfl
  · rfl
  · rfl
  · exact h

/-- Conversion leads from values of a type to values of a wider one. -/
theorem Belongs.convert (hv : v.Belongs s) (h : s.Widens t) : (v.convert t).Belongs t :=
  ⟨wellFormed_convert hv.wellFormed, conforms_convert hv.conforms h⟩

/-- What conversion makes of a value is null for null alone. -/
theorem convert_eq_null_iff : v.convert t = null ↔ v = null := by
  unfold convert
  split <;> simp

end Value

/-- The default of a type is one of its values. -/
theorem Ty.default_belongs (t : Ty) : t.default.Belongs t := by
  cases t <;> exact ⟨rfl, rfl⟩

end LambdaQuery
