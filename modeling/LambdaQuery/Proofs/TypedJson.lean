/-
**Values out of their JSON.**  The writer of JSON does not see the type that the text will be read
at, and the reader is led by that type alone.  They meet on the types that are built from booleans,
numbers and strings: there a value, written and read back at its type, is the same value.

Between the two stands the reader of documents, which sorts the members of objects by name.  A
record is rebuilt by looking its fields up by name, so their order in the object does not matter,
as long as no name stands for two fields.

Main definitions:
* `Ty.isPlain` — the type is built from booleans, numbers and strings by nullability, lists,
  sequences and records whose fields have distinct names;
* `Value.isPlain` — the value has no grouping inside it, and its doubles are finite;
* `Json.asRead` — the tree with the members of its objects as a reader of its text returns them.

Main results:
* `Json.lookup_sortMembers` — of the members of one name the last one written is found;
* `Value.ofJson_toJson` — **a value is read back from its tree**, by recursion on the type.
-/

import LambdaQuery.Proofs.ValueTyping
import LambdaQuery.Value.Json

namespace LambdaQuery

/-! ### Plain types and values -/

mutual

/-- Is the type built from booleans, numbers and strings by nullability, lists, sequences and
records with distinct field names? -/
def Ty.isPlain : Ty → Bool
  | .bool | .int | .long | .double | .string => true
  | .nullable t | .list t | .sequence t => t.isPlain
  | .record _ fields => decide (fields.map (·.1)).Nodup && Ty.plainFields fields
  | _ => false

/-- Are the types of the fields plain? -/
def Ty.plainFields : List (String × Ty) → Bool
  | [] => true
  | (_, t) :: fields => t.isPlain && Ty.plainFields fields

end

mutual

/-- Has the value no grouping inside it, and finite doubles only? -/
def Value.isPlain : Value → Bool
  | .double x => Double.isFinite x
  | .sequence items => Value.allPlain items
  | .record _ values => Value.allPlain values
  | .grouping _ _ => false
  | _ => true

/-- Are all the values plain? -/
def Value.allPlain : List Value → Bool
  | [] => true
  | v :: vs => v.isPlain && Value.allPlain vs

end

theorem Value.allPlain_iff : ∀ {vs : List Value},
    Value.allPlain vs = true ↔ ∀ v ∈ vs, v.isPlain = true := by
  intro vs
  induction vs with
  | nil => simp [Value.allPlain]
  | cons v vs ih => simp [Value.allPlain, ih]

/-! ### Trees as they are read -/

namespace Json

mutual

/-- The tree that is read from the text of a tree: the members of its objects sorted by name. -/
def asRead : Json → Json
  | array items => array (itemsAsRead items)
  | object members => object (sortMembers (membersAsRead members))
  | j => j

/-- The elements as they are read. -/
def itemsAsRead : List Json → List Json
  | [] => []
  | j :: js => asRead j :: itemsAsRead js

/-- The members as they are read, in the order written. -/
def membersAsRead : List (String × Json) → List (String × Json)
  | [] => []
  | (name, j) :: rest => (name, asRead j) :: membersAsRead rest

end

/-- A tree is null if it is read as null. -/
theorem asRead_eq_null_iff {j : Json} : j.asRead = null ↔ j = null := by
  cases j <;> simp [asRead]

theorem lookup_insertMember (name n : String) (j : Json) (ms : List (String × Json)) :
    (insertMember n j ms).lookup name = if name = n then some j else ms.lookup name := by
  induction ms with
  | nil =>
      simp only [insertMember, List.lookup_cons, List.lookup_nil, beq_eq_decide]
      split <;> simp_all
  | cons m ms ih =>
      obtain ⟨k, w⟩ := m
      simp only [insertMember]
      split
      · simp only [List.lookup_cons, beq_eq_decide]
        split <;> simp_all
      split
      · rename_i hk
        subst hk
        simp only [List.lookup_cons, beq_eq_decide]
        split <;> simp_all
      · rename_i hk
        simp only [List.lookup_cons, beq_eq_decide, ih]
        split <;> simp_all
        intro h
        exact absurd h.symm hk

/-- **Of the members of one name the last one written is found.** -/
theorem lookup_sortMembers (name : String) (ms : List (String × Json)) :
    (sortMembers ms).lookup name = ms.reverse.lookup name := by
  induction ms using List.reverseRecOn with
  | nil => rfl
  | append_singleton ms m ih =>
      obtain ⟨n, j⟩ := m
      have hsort : sortMembers (ms ++ [(n, j)]) = insertMember n j (sortMembers ms) := by
        simp [sortMembers]
      rw [hsort, lookup_insertMember, ih]
      simp only [List.reverse_append, List.reverse_singleton, List.singleton_append,
        List.lookup_cons, beq_eq_decide]
      split <;> simp_all

/-- Where no name stands for two members, each is found among the sorted ones. -/
theorem lookup_sortMembers_of_mem {name : String} {j : Json} {ms : List (String × Json)}
    (hn : (ms.map (·.1)).Nodup) (hm : (name, j) ∈ ms) :
    (sortMembers ms).lookup name = some j := by
  rw [lookup_sortMembers, List.lookup_eq_some_iff]
  obtain ⟨before, after, hms⟩ := List.append_of_mem hm
  subst hms
  refine ⟨after.reverse, before.reverse, by simp, ?_⟩
  intro m hm'
  simp only [List.map_append, List.map_cons, List.nodup_append, List.nodup_cons] at hn
  obtain ⟨-, ⟨hnot, -⟩, -⟩ := hn
  have hne : name ≠ m.1 := by
    intro h
    exact hnot (List.mem_map.mpr ⟨m, List.mem_reverse.mp hm', h.symm⟩)
  simpa using hne

end Json

namespace Value

/-! ### Trees of plain values -/

/-- The trees of plain values are null for null alone. -/
theorem toJson_eq_null_iff {v : Value} (hp : v.isPlain = true) : v.toJson = .null ↔ v = null := by
  cases v with
  | double x =>
      have hx : Double.isFinite x = true := hp
      simp [toJson, hx]
  | _ => simp [toJson]

theorem itemsAsRead_toJsonAll (vs : List Value) :
    Json.itemsAsRead (toJsonAll vs) = vs.map fun v => v.toJson.asRead := by
  induction vs with
  | nil => rfl
  | cons v vs ih => simp [toJsonAll, Json.itemsAsRead, ih]

/-- The members of a record as they are read have the names of its fields. -/
theorem names_membersAsRead {fields : List (String × Ty)} {vs : List Value}
    (h : fields.length = vs.length) :
    (Json.membersAsRead (toMembers fields vs)).map (·.1) = fields.map (·.1) := by
  induction fields generalizing vs with
  | nil => simp [toMembers, Json.membersAsRead]
  | cons f fields ih =>
      cases vs with
      | nil => simp at h
      | cons v vs =>
          have hrest : fields.length = vs.length := by simpa using h
          simp [toMembers, Json.membersAsRead, ih hrest]

/-- The value of each field stands under its name. -/
theorem mem_membersAsRead {fields : List (String × Ty)} {vs : List Value} :
    ∀ fv ∈ fields.zip vs,
      (fv.1.1, fv.2.toJson.asRead) ∈ Json.membersAsRead (toMembers fields vs) := by
  induction fields generalizing vs with
  | nil => simp
  | cons f fields ih =>
      cases vs with
      | nil => simp
      | cons v vs =>
          intro fv hfv
          rcases List.mem_cons.mp hfv with rfl | hfv
          · simp [toMembers, Json.membersAsRead]
          · simp [toMembers, Json.membersAsRead, ih fv hfv]

/-! ### Numbers -/

/-- Integers of 64 bits are read back from their numbers. -/
theorem toInt64?_toInt (n : Int64) : (Json.Number.int n.toInt).toInt64? = some n := by
  have hlt : n.toInt < Nat.pow 2 63 := n.toInt_lt
  simp only [Json.Number.toInt64?, if_pos hlt, Int64.ofInt_toInt]

/-- Integers of 32 bits are read back from their numbers. -/
theorem int32?_toInt (n : Int32) : int32? (.int n.toInt) = some (int n) := by
  have h64 : (Json.Number.int n.toInt).toInt64? = some n.toInt64 := by
    have h := toInt64?_toInt n.toInt64
    rwa [Int32.toInt_toInt64] at h
  have hfits : fits 32 n.toInt = true := by
    have hlow : -(widthBound 32 : Int) ≤ n.toInt := n.le_toInt
    have hhigh : n.toInt < widthBound 32 := n.toInt_lt
    simp only [fits, Bool.and_eq_true, decide_eq_true_eq]
    exact ⟨hlow, hhigh⟩
  simp [int32?, h64, hfits]

/-! ### Reading back -/

/-- Elements that are read back one by one are read back together. -/
theorem mapM_asRead_eq_ok {t : Ty} {vs : List Value}
    (h : ∀ v ∈ vs, ofJson t v.toJson.asRead = .ok v) :
    (vs.map fun v => v.toJson.asRead).mapM (ofJson t) = .ok vs := by
  induction vs with
  | nil => rfl
  | cons v vs ih =>
      have hv := h v (List.mem_cons_self ..)
      have hvs := ih fun w hw => h w (List.mem_cons_of_mem _ hw)
      simp only [List.map_cons, List.mapM_cons, hv, hvs]
      rfl

/-- What is read at a type of lists or of sequences, where the elements are read back. -/
theorem ofJson_toJson_elements {t e : Ty} {v : Value} (ht : t = .list e ∨ t = .sequence e)
    (hv : v.Belongs t) (hp : v.isPlain = true)
    (elements : ∀ w : Value, w.Belongs e → w.isPlain = true →
      ofJson e w.toJson.asRead = .ok w) :
    ofJson t v.toJson.asRead = .ok v := by
  have he : t.element? = some e := by
    rcases ht with rfl | rfl
    · rfl
    · rfl
  rcases hv.elements he with rfl | ⟨items, hi, hall⟩
  · rcases ht with rfl | rfl <;> simp [toJson, Json.asRead, ofJson]
  cases v with
  | sequence items' =>
      cases hi
      have hp : ∀ w ∈ items, w.isPlain = true := allPlain_iff.mp hp
      have hread := mapM_asRead_eq_ok fun w hw => elements w (hall w hw) (hp w hw)
      rcases ht with rfl | rfl
      · simp only [toJson, Json.asRead, itemsAsRead_toJsonAll, ofJson, hread]
        rfl
      · simp only [toJson, Json.asRead, itemsAsRead_toJsonAll, ofJson, hread]
        rfl
  | grouping key elements' => cases hp
  | _ => cases hi

mutual

/-- **A value is read back from its tree** at each plain type to which it belongs. -/
theorem ofJson_toJson (t : Ty) {v : Value} (ht : t.isPlain = true) (hv : v.Belongs t)
    (hp : v.isPlain = true) : ofJson t v.toJson.asRead = .ok v := by
  cases t with
  | bool =>
      rcases (conforms_bool_iff rfl).mp hv.conforms with ⟨-, h⟩ | ⟨b, rfl⟩
      · cases h
      · simp [toJson, Json.asRead, ofJson]
  | int =>
      rcases (conforms_int_iff rfl).mp hv.conforms with ⟨-, h⟩ | ⟨n, rfl⟩
      · cases h
      · simp [toJson, Json.asRead, ofJson, int32?_toInt]
  | long =>
      rcases (conforms_long_iff rfl).mp hv.conforms with ⟨-, h⟩ | ⟨n, rfl⟩
      · cases h
      · simp [toJson, Json.asRead, ofJson, toInt64?_toInt]
  | double =>
      rcases (conforms_double_iff rfl).mp hv.conforms with ⟨-, h⟩ | ⟨x, rfl⟩
      · cases h
      · have hx : Double.isFinite x = true := hp
        simp [toJson, hx, Json.asRead, ofJson, Json.Number.toDouble]
  | string =>
      rcases (conforms_string_iff rfl).mp hv.conforms with ⟨rfl, -⟩ | ⟨s, rfl⟩
      · simp [toJson, Json.asRead, ofJson]
      · simp [toJson, Json.asRead, ofJson]
  | nullable u =>
      by_cases hn : v = null
      · subst hn
        simp [toJson, Json.asRead, ofJson]
      · have hread := ofJson_toJson u ht (hv.of_ne_null hn rfl) hp
        have hj : v.toJson.asRead ≠ .null := by
          intro h
          exact hn ((toJson_eq_null_iff hp).mp (Json.asRead_eq_null_iff.mp h))
        simpa [ofJson, hj] using hread
  | list e =>
      exact ofJson_toJson_elements (.inl rfl) hv hp fun w hw hpw => ofJson_toJson e ht hw hpw
  | sequence e =>
      exact ofJson_toJson_elements (.inr rfl) hv hp fun w hw hpw => ofJson_toJson e ht hw hpw
  | record name fields =>
      rcases @Belongs.fieldValues v ⟨name, fields⟩ hv with rfl | ⟨vs, rfl, hvs⟩
      · simp [toJson, Json.asRead, ofJson]
      simp only [Ty.isPlain, Bool.and_eq_true, decide_eq_true_eq] at ht
      obtain ⟨hnodup, hfields⟩ := ht
      have hnames := names_membersAsRead hvs.length_eq
      have hread := ofMembers_eq_ok fields hfields hvs (allPlain_iff.mp hp) fun fv hfv =>
        Json.lookup_sortMembers_of_mem (by rwa [hnames]) (mem_membersAsRead fv hfv)
      simp only [toJson, Json.asRead, ofJson, hread]
      rfl
  | _ => cases ht

/-- The values of the fields are read back from members under their names. -/
theorem ofMembers_eq_ok (fields : List (String × Ty)) {vs : List Value}
    {members : List (String × Json)} (hf : Ty.plainFields fields = true)
    (hv : List.Forall₂ (fun f v => v.Belongs f.2) fields vs) (hp : ∀ v ∈ vs, v.isPlain = true)
    (hm : ∀ fv ∈ fields.zip vs, members.lookup fv.1.1 = some fv.2.toJson.asRead) :
    ofMembers fields members = .ok vs := by
  cases hv with
  | nil => rfl
  | @cons f v fields vs hv hvs =>
      obtain ⟨name, t⟩ := f
      simp only [Ty.plainFields, Bool.and_eq_true] at hf
      obtain ⟨ht, hf⟩ := hf
      have hfound := hm ((name, t), v) (List.mem_cons_self ..)
      have hread := ofJson_toJson t ht hv (hp v (List.mem_cons_self ..))
      have hrest := ofMembers_eq_ok fields hf hvs (fun w hw => hp w (List.mem_cons_of_mem _ hw))
        fun fv hfv => hm fv (List.mem_cons_of_mem _ hfv)
      simp only [ofMembers, hfound, Option.getD_some, hread, hrest]
      rfl

end

end Value

end LambdaQuery
