/-
**Types read off values.**  `Value.typeOf` tells the type of a value from the value alone, and takes
the element type of a sequence from its first element that is not null.  So a value conforms to what
is read off it if its elements are of the kind of that one.  Null is of the kind of a string, a
record or a collection, but never of the kind of a number, a boolean or a timestamp.

Kinds are compared between two values, and no type is spoken of.  That the comparison decides
conforming is shown by recursion on the value whose type is read off, with the elements among which
a sample is looked for beside it.

Main definitions:
* `Value.like` — the second value is of the kind that the first one shows;
* `Value.isUniform` — the value is of the kind that it shows itself;
* `Ty.isShown` — each value of the type but null shows the kind of all its values.

Main results:
* `Value.likeAll_iff` — the sample of a sequence is its first element that is not null;
* `Value.conforms_typeOf` — **to conform to the type of a value is to be like it**;
* `Value.like_of_conforms` — two values of a type that is shown are like each other;
* `Value.conforms_typeOf_iff` — **a value conforms to its own type exactly when it is uniform**, and
  those of a type that is shown all do.
-/

import LambdaQuery.Proofs.ValueTyping

namespace LambdaQuery

namespace Value

/-! ### Kinds of values -/

mutual

/-- Is the second value of the kind that the first one shows?  Of the elements of a sequence the
first one that is not null shows the kind; where there is none, they may be of any. -/
def like : Value → Value → Bool
  | null, w => w.isNull
  | bool _, bool _ | int _, int _ | long _, long _ | double _, double _ => true
  | timestamp _, timestamp _ => true
  | string _, null | string _, string _ => true
  | record _ _, null | sequence _, null | grouping _ _, null => true
  | record s _, record t _ => s == t
  | sequence vs, sequence ws => likeAll vs ws
  | grouping k vs, grouping l ws => like k l && likeAll vs ws
  | _, _ => false

/-- Are the second values all like the first of the samples that is not null, if there is one? -/
def likeAll : List Value → List Value → Bool
  | [], _ => true
  | null :: vs, ws => likeAll vs ws
  | v :: _, ws => ws.all fun w => like v w

end

/-- Is the value of the kind that it shows itself? -/
def isUniform (v : Value) : Bool := v.like v

theorem isNull_iff {v : Value} : v.isNull = true ↔ v = null := by
  cases v <;> simp [isNull]

theorem likeAll_cons {v : Value} (hv : v ≠ null) (vs ws : List Value) :
    likeAll (v :: vs) ws = ws.all fun w => v.like w := by
  cases v with
  | null => exact absurd rfl hv
  | _ => rw [likeAll]; simp

/-- The sample of a sequence is its first element that is not null. -/
theorem likeAll_iff {vs ws : List Value} :
    likeAll vs ws = true ↔
      ∀ v, (vs.find? fun v => !v.isNull) = some v → ∀ w ∈ ws, v.like w = true := by
  induction vs with
  | nil => simp [likeAll]
  | cons v vs ih =>
      by_cases hv : v = null
      · subst hv
        rw [likeAll, ih]
        rfl
      · have hn : v.isNull = false := by simp [← Bool.not_eq_true, isNull_iff, hv]
        simp [likeAll_cons hv, hn]

/-! ### Types of values -/

theorem elementTypeOf_cons {v : Value} (hv : v ≠ null) (vs : List Value) :
    elementTypeOf (v :: vs) = v.typeOf := by
  cases v with
  | null => exact absurd rfl hv
  | _ => rw [elementTypeOf]; simp

mutual

/-- **To conform to the type of a value is to be like it.** -/
theorem conforms_typeOf : ∀ v w : Value, w.conforms v.typeOf = v.like w
  | null, w | bool _, w | int _, w | long _, w | double _, w | timestamp _, w | string _, w => by
    cases w <;> simp [conforms, typeOf, like, isNull, Ty.base, Ty.acceptsNull, Ty.isValue,
      RecordTy.toTy]
  | record s _, w => by
    cases w with
    | record t _ =>
        have hs : s.toTy.base = s.toTy := rfl
        have ho : s.toTy ≠ .object := nofun
        simp [conforms, typeOf, like, hs, ho, beq_eq_decide, RecordTy.toTy_inj]
    | _ => simp [conforms, typeOf, like, Ty.base, Ty.acceptsNull, Ty.isValue, RecordTy.toTy]
  | sequence vs, w => by
    cases w with
    | sequence ws => exact conformAll_elementTypeOf vs ws
    | _ => simp [conforms, typeOf, like, Ty.base, Ty.acceptsNull, Ty.isValue, RecordTy.toTy]
  | grouping k vs, w => by
    cases w with
    | grouping l ws =>
        simp only [conforms, typeOf, like, Ty.base]
        rw [conforms_typeOf k l, conformAll_elementTypeOf vs ws]
    | _ => simp [conforms, typeOf, like, Ty.base, Ty.acceptsNull, Ty.isValue, RecordTy.toTy]

/-- To conform to the element type of some values is to be like their sample. -/
theorem conformAll_elementTypeOf : ∀ vs ws : List Value,
    conformAll ws (elementTypeOf vs) = likeAll vs ws
  | [], ws => conformAll_iff.mpr fun w _ => conforms_object w
  | v :: vs, ws => by
    by_cases hv : v = null
    · subst hv
      exact conformAll_elementTypeOf vs ws
    · have hlike := conforms_typeOf v
      rw [elementTypeOf_cons hv, likeAll_cons hv, Bool.eq_iff_iff, conformAll_iff,
        List.all_eq_true]
      simp only [hlike]

end

end Value

/-! ### Types that are shown -/

/-- Does each value of the type but null show the kind of all its values?  A list shows its elements
by one of them, so none of these types is nullable; and a key has to show itself, so it is never
null. -/
def Ty.isShown : Ty → Bool
  | .bool | .int | .long | .double | .timestamp | .string | .record _ _ => true
  | .list t => t.isShown
  | .grouping k t => k.isValue && t.isShown
  | _ => false

theorem Ty.isShown_of_isValue {t : Ty} (h : t.isValue = true) : t.isShown = true := by
  cases t <;> first | rfl | cases h

theorem Ty.base_base : ∀ t : Ty, t.base.base = t.base
  | nullable t => base_base t
  | object | null | bool | int | long | double | string | timestamp => rfl
  | record _ _ | list _ | sequence _ | grouping _ _ | query _ | orderedQuery _ | function _ _ => rfl

namespace Value

variable {v w : Value}

/-- All of the second values are like each of the first ones that is not null. -/
theorem likeAll_of_forall {vs ws : List Value}
    (h : ∀ v ∈ vs, v ≠ null → ∀ w ∈ ws, v.like w = true) : likeAll vs ws = true := by
  rw [likeAll_iff]
  intro v hv
  have hne : v ≠ null := by simpa [← isNull_iff] using List.find?_some hv
  exact h v (List.mem_of_find?_eq_some hv) hne

/-- **Two values of a type that is shown are like each other**, by recursion on the type. -/
theorem like_of_conforms : ∀ {t : Ty} {v w : Value}, t.isShown = true → v ≠ null →
    v.conforms t = true → w.conforms t = true → v.like w = true
  | .bool, v, w | .int, v, w | .long, v, w | .double, v, w | .timestamp, v, w | .string, v, w => by
    intro _ hn hv hw
    cases v <;> cases w <;>
      simp_all [conforms, like, Ty.base, Ty.acceptsNull, Ty.isValue, RecordTy.toTy]
  | .record name fields, v, w => by
    intro _ hn hv hw
    let r : RecordTy := { name, fields }
    obtain rfl | ⟨vs, rfl⟩ := record_of_conforms (r := r) hv
    · exact absurd rfl hn
    obtain rfl | ⟨ws, rfl⟩ := record_of_conforms (r := r) hw
    · rfl
    · simp [like]
  | .list t, v, w => by
    intro ht hn hv hw
    have ht : t.isShown = true := ht
    obtain rfl | ⟨vs, rfl, hvs⟩ := list_of_conforms hv
    · exact absurd rfl hn
    obtain rfl | ⟨ws, rfl, hws⟩ := list_of_conforms hw
    · rfl
    refine likeAll_of_forall fun v hv hne w hw => ?_
    exact like_of_conforms ht hne (hvs v hv) (hws w hw)
  | .grouping k t, v, w => by
    intro ht hn hv hw
    obtain ⟨hk, ht⟩ : k.isValue = true ∧ t.isShown = true := by simpa [Ty.isShown] using ht
    obtain rfl | ⟨key, vs, rfl, hkey, hvs⟩ := grouping_of_conforms hv
    · exact absurd rfl hn
    obtain rfl | ⟨other, ws, rfl, hother, hws⟩ := grouping_of_conforms hw
    · rfl
    have hne : key ≠ null := by
      rintro rfl
      simp [conforms_null, Ty.acceptsNull, hk] at hkey
    have hkeys : key.like other = true :=
      like_of_conforms (Ty.isShown_of_isValue hk) hne hkey hother
    have helements : likeAll vs ws = true := by
      refine likeAll_of_forall fun v hv hne w hw => ?_
      exact like_of_conforms ht hne (hvs v hv) (hws w hw)
    simp [like, hkeys, helements]
  | .object, _, _ | .null, _, _ | .nullable _, _, _ | .sequence _, _, _ | .query _, _, _
  | .orderedQuery _, _, _ | .function _ _, _, _ => nofun

/-- **The type that is read off a value.**  The value conforms to it exactly when it is uniform, and
that it is if it is one of the values of a type that is shown, whether or not this is made
nullable. -/
theorem conforms_typeOf_iff (v : Value) :
    (v.conforms v.typeOf = true ↔ v.isUniform = true) ∧
      ∀ t : Ty, t.base.isShown = true → v.conforms t = true → v.conforms v.typeOf = true := by
  refine ⟨by rw [conforms_typeOf, isUniform], ?_⟩
  intro t ht hv
  rw [conforms_typeOf]
  by_cases hn : v = null
  · rw [hn]
    rfl
  · have hb : v.conforms t.base = true := conforms_of_ne_null hn (Ty.base_base t).symm hv
    exact like_of_conforms ht hn hb hb

/-- Rows of scores in a list, the second row empty and the third one null. -/
theorem conforms_typeOf_rows :
    let t : Ty := .list (.list .int)
    let v := sequence [sequence [int 3, int 4], sequence [], null]
    t.base.isShown = true ∧ v.conforms t = true ∧ v.conforms v.typeOf = true := by
  intro t v
  have ht : t.base.isShown = true := rfl
  have hv : v.conforms t = true := rfl
  exact ⟨ht, hv, (conforms_typeOf_iff v).2 t ht hv⟩

/-- A list that holds an integer and null shows the type of the lists that hold no null, so a value
need not conform to the type that is read off it. -/
theorem typeOf_overlooks_null :
    ¬ ∀ v : Value, v.wellFormed = true → v.conforms v.typeOf = true := by
  intro h
  have hv : (sequence [int 1, null]).conforms (.list .int) = true :=
    h (sequence [int 1, null]) rfl
  have hnot : (sequence [int 1, null]).conforms (.list .int) ≠ true := by decide
  exact hnot hv

end Value

end LambdaQuery
