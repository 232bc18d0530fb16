/-
**The order of assignability.**  Among the types whose nullability stands around value types alone,
being assignable is a partial order, and a value that conforms to a type conforms to all types
above it.

Without the restriction the order breaks at `object`: every type is assignable to it, and it is
itself assignable to `nullable object`, to which nothing else but `null` is.

Main definitions:
* `Ty.wellFormed` — in the type and in all its parts, nullability stands around value types alone.

Main results:
* `Ty.eq_of_assignable_value`, `Ty.eq_null_of_assignable`, `Ty.eq_object_of_assignable` — what lies
  below a value type and below `null`, and what lies above `object`;
* `Ty.assignable_trans`, `Ty.assignable_antisymm` — by recursion on the types of the elements;
* `Ty.assignable_partial_order` — **assignability is a partial order with `object` above
  everything, and sound for the values of the types**.
-/

import LambdaQuery.Proofs.ValueTyping

namespace LambdaQuery.Ty

/-! ### Well-formed types -/

mutual

/-- Does nullability stand around value types alone, in the type and in all its parts? -/
def wellFormed : Ty → Bool
  | nullable t => t.isValue
  | record _ fields => wellFormedFields fields
  | list t | sequence t | query t | orderedQuery t => wellFormed t
  | grouping k t => wellFormed k && wellFormed t
  | function params t => wellFormedAll params && wellFormed t
  | _ => true

/-- Are the types of the fields well formed? -/
def wellFormedFields : List (String × Ty) → Bool
  | [] => true
  | (_, t) :: fields => wellFormed t && wellFormedFields fields

/-- Are all the types well formed? -/
def wellFormedAll : List Ty → Bool
  | [] => true
  | t :: ts => wellFormed t && wellFormedAll ts

end

variable {s t u : Ty}

/-- The nullable forms of well-formed types are well formed. -/
theorem wellFormed_asNullable (h : t.wellFormed = true) : t.asNullable.wellFormed = true := by
  unfold asNullable
  split
  · rename_i hv
    exact hv
  · exact h

/-- The elements of a well-formed type of collections are of a well-formed type. -/
theorem wellFormed_of_element {d : Ty} (hd : s.element? = some d) (h : s.wellFormed = true) :
    d.wellFormed = true := by
  cases s with
  | list t | sequence t | query t | orderedQuery t =>
      cases hd
      exact h
  | grouping k t =>
      cases hd
      simp only [wellFormed, Bool.and_eq_true] at h
      exact h.2
  | _ => cases hd

/-! ### The ways to be assignable -/

theorem assignable_refl (t : Ty) : t.assignable t = true := by
  unfold assignable
  simp

theorem assignable_object (t : Ty) : t.assignable object = true := by
  unfold assignable
  simp

theorem null_assignable (h : t.acceptsNull = true) : null.assignable t = true := by
  cases t <;> first | rfl | cases h

/-- Every type of collections is assignable to a sequence that its elements may be read through. -/
theorem assignable_sequence {d e : Ty} (hd : s.element? = some d) (h : Reads d e) :
    s.assignable (sequence e) = true := by
  cases s <;> cases hd <;> simpa [assignable, Reads] using h

/-- Nothing but `null` is assignable to it. -/
theorem eq_null_of_assignable (h : s.assignable null = true) : s = null := by
  rcases assignable_cases h with rfl | h | ⟨rfl, -⟩ | h | ⟨d, e, -, h, -⟩ | ⟨d, e, -, h, -⟩
  · rfl
  · cases h
  · rfl
  all_goals cases h

/-- Nothing but itself is assignable to a value type. -/
theorem eq_of_assignable_value (h : s.assignable t = true) (ht : t.isValue = true) : s = t := by
  rcases assignable_cases h with rfl | rfl | ⟨-, hn⟩ | rfl | ⟨d, e, -, rfl, -⟩ | ⟨d, e, -, rfl, -⟩
  · rfl
  · cases ht
  · simp [acceptsNull, ht] at hn
  all_goals cases ht

/-- Nothing above `object` is well formed but `object`. -/
theorem eq_object_of_assignable (ht : t.wellFormed = true) (h : object.assignable t = true) :
    t = object := by
  rcases assignable_cases h with rfl | rfl | ⟨h, -⟩ | rfl | ⟨d, e, h, -⟩ | ⟨d, e, h, -⟩
  · rfl
  · rfl
  · cases h
  · cases ht
  · cases h
  · cases h

/-! ### Chains -/

/-- **Transitivity.**  The recursion is on the types of the elements, which are read through one
another like the collections themselves. -/
theorem assignable_trans {s t : Ty} (u : Ty) (hu : u.wellFormed = true)
    (hst : s.assignable t = true) (htu : t.assignable u = true) : s.assignable u = true := by
  rcases assignable_cases htu with rfl | rfl | ⟨rfl, hn⟩ | rfl | ⟨d, e, hd, rfl, hde⟩ |
    ⟨d, e, rfl, rfl, hde⟩
  · exact hst
  · exact assignable_object s
  · rw [eq_null_of_assignable hst]
    exact htu
  · rw [eq_of_assignable_value hst hu]
    exact htu
  · -- elements read as those of the middle are read on as those of the last
    have elements : ∀ c, Reads c d → Reads c e := by
      rintro c (rfl | ⟨hc, hcd⟩)
      · exact hde
      rcases hde with rfl | ⟨-, hde⟩
      · exact .inr ⟨hc, hcd⟩
      · exact .inr ⟨hc, assignable_trans e (wellFormed_of_element rfl hu) hcd hde⟩
    rcases assignable_cases hst with rfl | rfl | ⟨rfl, -⟩ | rfl | ⟨c, d', hc, rfl, hcd⟩ |
      ⟨c, d', rfl, rfl, hcd⟩
    · exact htu
    · cases hd
    · exact null_assignable rfl
    · cases hd
    · cases hd
      exact assignable_sequence hc (elements c hcd)
    · cases hd
      exact assignable_sequence rfl (elements c hcd)
  · -- what is assignable to an ordered query is one of the same elements, or `null`
    rcases assignable_cases hst with rfl | h | ⟨rfl, -⟩ | h | ⟨c, d', -, h, -⟩ | ⟨c, d', -, h, -⟩
    · exact htu
    · cases h
    · exact null_assignable rfl
    all_goals cases h
termination_by sizeOf u

/-- **Antisymmetry.** -/
theorem assignable_antisymm (s : Ty) {t : Ty} (hs : s.wellFormed = true) (ht : t.wellFormed = true)
    (hst : s.assignable t = true) (hts : t.assignable s = true) : s = t := by
  rcases assignable_cases hst with rfl | rfl | ⟨rfl, -⟩ | rfl | ⟨d, e, hd, rfl, hde⟩ |
    ⟨d, e, rfl, rfl, -⟩
  · rfl
  · exact eq_object_of_assignable hs hts
  · exact (eq_null_of_assignable hts).symm
  · exact (eq_of_assignable_value hts ht).symm
  · rcases assignable_cases hts with h | rfl | ⟨h, -⟩ | rfl | ⟨e', d', he, rfl, hed⟩ |
      ⟨e', d', h, -⟩
    · exact h.symm
    · cases hd
    · cases h
    · cases hd
    · -- both are sequences, whose elements are read through one another in both ways
      cases hd
      cases he
      rcases hde with rfl | ⟨-, hde⟩
      · rfl
      rcases hed with rfl | ⟨-, hed⟩
      · rfl
      · have hd := wellFormed_of_element rfl hs
        have he := wellFormed_of_element rfl ht
        rw [assignable_antisymm d hd he hde hed]
    · cases h
  · rcases assignable_cases hts with h | h | ⟨h, -⟩ | h | ⟨e', d', -, h, -⟩ | ⟨e', d', h, -⟩
    all_goals cases h
termination_by sizeOf s

/-- **Assignability is a partial order, and sound.**  The nullable forms that `asNullable` makes are
well-formed too; the well-formed types are ordered, with `object` above everything; and whatever the
types, a value that conforms to one conforms to all that it is assignable to. -/
theorem assignable_partial_order :
    (∀ t : Ty, t.wellFormed = true → t.asNullable.wellFormed = true) ∧
      (∀ t : Ty, t.assignable t = true ∧ t.assignable object = true) ∧
      (∀ s t u : Ty, s.wellFormed = true → t.wellFormed = true → u.wellFormed = true →
        s.assignable t = true → t.assignable u = true → s.assignable u = true) ∧
      (∀ s t : Ty, s.wellFormed = true → t.wellFormed = true →
        s.assignable t = true → t.assignable s = true → s = t) ∧
      ∀ (s t : Ty) (v : Value), v.conforms s = true → s.assignable t = true →
        v.conforms t = true := by
  refine ⟨fun t => wellFormed_asNullable, fun t => ⟨assignable_refl t, assignable_object t⟩,
    ?_, ?_, ?_⟩
  · intro s t u _ _ hu
    exact assignable_trans u hu
  · intro s t hs ht
    exact assignable_antisymm s hs ht
  · intro s t v hv hst
    exact Value.conforms_of_assignable t hst hv

/-- Lists of groupings, read as sequences of sequences and on as sequences of objects. -/
theorem assignable_partial_order_collections :
    let s := list (grouping int string)
    let t := sequence (sequence string)
    let u := sequence (sequence object)
    let v := Value.sequence [.grouping (.int 1) [.string "a", .null], .null]
    s.assignable t = true ∧ t.assignable u = true ∧ s.assignable u = true ∧
      u.assignable t = false ∧ v.conforms s = true ∧ v.conforms u = true := by
  intro s t u v
  obtain ⟨-, -, trans, -, sound⟩ := assignable_partial_order
  have hst : s.assignable t = true := by decide
  have htu : t.assignable u = true := by decide
  have hsu : s.assignable u = true := trans s t u (by decide) (by decide) (by decide) hst htu
  have hv : v.conforms s = true := by decide
  exact ⟨hst, htu, hsu, by decide, hv, sound s u v hv hsu⟩

/-- Around `object`, nullability breaks the chain. -/
example : int.assignable object = true ∧ object.assignable (nullable object) = true ∧
    int.assignable (nullable object) = false := by decide

end LambdaQuery.Ty
