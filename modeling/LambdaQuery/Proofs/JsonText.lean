/-
**Trees of JSON read back from their text.**  The writer puts no blanks between tokens and escapes
every character of a string that the reader would not take as it is.  The reader looks ahead at
numbers only, which end where their grammar ends; so the text of a tree is read back before every
token that can follow it, and a document is put together from its parts.

The reader bounds how deeply readings are nested by twice the length of the text, and trees by 127
arrays and objects inside each other.  The first bound never matters, the second one does.

What is assumed here of numbers holds for integers of 64 bits.  A value without doubles is therefore
read back from its text with nothing assumed of the reader.

Main definitions:
* `Json.document` — the document that a tree is written as;
* `Json.Returns` — every number of the tree is read back from its own text;
* `Json.nesting` — how deeply its arrays and objects are nested.

Main results:
* `Json.stringText_writeString` — **a string is read back from its text**;
* `Json.value_write`, `Json.parse?_write` — **a tree is read back from its text**, the members of
  its objects sorted by name;
* `Value.ofJsonText_toJsonText` — **a value is read back from its text** at each plain type to
  which it belongs, if its tree is;
* `Value.ofJsonText_toJsonText_of_noDoubles` — so is a value without doubles, whose tree is.
-/

import LambdaQuery.Proofs.JsonNumbers
import LambdaQuery.Proofs.TypedJson

namespace LambdaQuery

namespace Json

open Text

/-! ### Strings -/

theorem dropIf_false (r : Option (Option (List Char) × List Char)) : dropIf false r = r := by
  cases r <;> rfl

/-- A character that stands for itself. -/
theorem scanString_plain {c : Char} (hq : c ≠ '"') (hb : c ≠ '\\') (h : 0x20 ≤ c.toNat)
    (rest : List Char) : scanString none (c :: rest) = pushChar c (scanString none rest) := by
  rw [scanString]
  · rw [if_neg (by omega)]
    exact dropIf_false _
  all_goals simp_all

/-- A character behind a backslash that is no code point. -/
theorem scanString_escaped {e c : Char} (h : escaped? e = some c) (rest : List Char) :
    scanString none ('\\' :: e :: rest) = pushChar c (scanString none rest) := by
  have hu : e ≠ 'u' := by
    rintro rfl
    cases h
  rw [scanString]
  · simp only [h]
    exact dropIf_false _
  · rintro a b c d rest' rfl
    exact absurd rfl hu

/-- A character is read back from the way in which it stands in a string. -/
theorem scanString_escapeChar (c : Char) (rest : List Char) :
    scanString none ((escapeChar c).toList ++ rest) = pushChar c (scanString none rest) := by
  by_cases hc : c.toNat < 0x20
  · -- the control characters, one by one
    obtain ⟨n, hn, rfl⟩ : ∃ n, n < 0x20 ∧ c = Char.ofNat n := ⟨c.toNat, hc, by simp⟩
    interval_cases n <;> first | rfl | exact scanString_escaped rfl rest
  by_cases hq : c = '"'
  · subst hq
    exact scanString_escaped rfl rest
  by_cases hb : c = '\\'
  · subst hb
    exact scanString_escaped rfl rest
  have he : escapeChar c = c.toString := by
    rw [escapeChar]
    · rw [if_neg (by omega), if_neg hc]
    all_goals
      rintro rfl
      first | exact hq rfl | exact hb rfl | exact hc (by decide)
  rw [he]
  simpa using scanString_plain hq hb (by omega) rest

/-- **A string is read back from its text.** -/
theorem stringText_writeString (s : String) (rest : List Char) :
    ∃ cs, (writeString s).toList = '"' :: cs ∧ stringText (cs ++ rest) = some (some s, rest) := by
  have hscan : ∀ cs : List Char,
      scanString none (cs.flatMap (fun c => (escapeChar c).toList) ++ '"' :: rest) =
        some (some cs, rest) := by
    intro cs
    induction cs with
    | nil => rfl
    | cons c cs ih =>
        rw [List.flatMap_cons, List.append_assoc, scanString_escapeChar, ih]
        rfl
  refine ⟨s.toList.flatMap (fun c => (escapeChar c).toList) ++ ['"'], ?_, ?_⟩
  · simp [writeString, String.toList_join, List.flatMap_map]
  · rw [stringText, List.append_assoc, List.singleton_append, hscan]
    simp

/-! ### Documents -/

mutual

/-- The document that a tree is written as. -/
def document : Json → Document
  | null => .null
  | bool b => .bool b
  | number n => .number (some n)
  | string s => .string (some s)
  | array items => .array (documents items)
  | object members => .object (memberDocuments members)

/-- The documents of the elements of an array. -/
def documents : List Json → List Document
  | [] => []
  | j :: js => j.document :: documents js

/-- The documents of the members of an object. -/
def memberDocuments : List (String × Json) → List (Option String × Document)
  | [] => []
  | (name, j) :: ms => (some name, j.document) :: memberDocuments ms

end

mutual

/-- Every number of the tree is read back from its own text. -/
def Returns : Json → Prop
  | number n => n.Returns
  | array items => AllReturn items
  | object members => MembersReturn members
  | _ => True

/-- Every number of the elements is. -/
def AllReturn : List Json → Prop
  | [] => True
  | j :: js => j.Returns ∧ AllReturn js

/-- Every number of the members is. -/
def MembersReturn : List (String × Json) → Prop
  | [] => True
  | (_, j) :: ms => j.Returns ∧ MembersReturn ms

end

mutual

/-- How deeply arrays and objects are nested. -/
def nesting : Json → Nat
  | array items => itemsNesting items + 1
  | object members => membersNesting members + 1
  | _ => 0

def itemsNesting : List Json → Nat
  | [] => 0
  | j :: js => max j.nesting (itemsNesting js)

def membersNesting : List (String × Json) → Nat
  | [] => 0
  | (_, j) :: ms => max j.nesting (membersNesting ms)

end

mutual

/-- The tree of the document of a tree is the tree as it is read. -/
theorem ofDocument?_document : ∀ (j : Json) {depth : Nat}, j.nesting ≤ depth →
    ofDocument? depth j.document = some j.asRead
  | null, _, _ | bool _, _, _ | number _, _, _ | string _, _, _ => by
    simp [document, ofDocument?, asRead]
  | array items, 0, h => by simp [nesting] at h
  | array items, depth + 1, h => by
    have hitems := ofItems?_documents items (Nat.le_of_succ_le_succ h)
    simp [document, ofDocument?, asRead, hitems]
  | object members, 0, h => by simp [nesting] at h
  | object members, depth + 1, h => by
    have hmembers := ofMembers?_memberDocuments members (Nat.le_of_succ_le_succ h)
    simp [document, ofDocument?, asRead, hmembers]

theorem ofItems?_documents : ∀ (js : List Json) {depth : Nat}, itemsNesting js ≤ depth →
    ofItems? depth (documents js) = some (itemsAsRead js)
  | [], _, _ => rfl
  | j :: js, depth, h => by
    obtain ⟨hj, hjs⟩ := max_le_iff.mp h
    simp [documents, ofItems?, itemsAsRead, ofDocument?_document j hj, ofItems?_documents js hjs]

theorem ofMembers?_memberDocuments : ∀ (ms : List (String × Json)) {depth : Nat},
    membersNesting ms ≤ depth → ofMembers? depth (memberDocuments ms) = some (membersAsRead ms)
  | [], _, _ => rfl
  | (name, j) :: ms, depth, h => by
    obtain ⟨hj, hms⟩ := max_le_iff.mp h
    simp [memberDocuments, ofMembers?, membersAsRead, ofDocument?_document j hj,
      ofMembers?_memberDocuments ms hms]

end

/-! ### Texts -/

/-- The character starts a value: no blank, and no bracket that closes an array. -/
def Opens (c : Char) : Prop := isSpace c = false ∧ c ≠ ']'

theorem skipSpace_of_head {c : Char} (hc : isSpace c = false) (cs : List Char) :
    skipSpace (c :: cs) = c :: cs := by
  simp [skipSpace, hc]

/-- A text that starts with a sign or a digit is that of a number. -/
theorem value_number {c : Char} (hc : c = '-' ∨ isDigit c = true) (ds : List Char) (n : Nat) :
    Document.value (n + 1) (c :: ds) =
      (numberText (c :: ds)).map fun (t, rest) => (.number t.value?, rest) := by
  have hcases := signOrDigit_cases hc
  fin_cases hcases <;> rfl

theorem opens_signOrDigit {c : Char} (hc : c = '-' ∨ isDigit c = true) : Opens c := by
  have hcases := signOrDigit_cases hc
  fin_cases hcases <;> exact ⟨by decide, by decide⟩

/-- The texts of several parts with commas between them. -/
def joined (parts : List String) : List Char := [','].intercalate (parts.map String.toList)

theorem toList_write_array (items : List Json) :
    (array items).write.toList = '[' :: (joined (writeItems items) ++ [']']) := by
  simp [write, joined]

theorem toList_write_object (members : List (String × Json)) :
    (object members).write.toList = '\x7b' :: (joined (writeMembers members) ++ ['\x7d']) := by
  simp [write, joined]

theorem joined_singleton (part : String) : joined [part] = part.toList := by
  simp [joined]

theorem joined_cons_cons (part part' : String) (parts : List String) :
    joined (part :: part' :: parts) = part.toList ++ ',' :: joined (part' :: parts) := by
  simp [joined, List.intercalate_cons_cons]

/-- The text of a tree starts with a character that opens a value. -/
theorem write_head {j : Json} (hj : j.Returns) : ∃ c cs, j.write.toList = c :: cs ∧ Opens c := by
  cases j with
  | null => exact ⟨'n', _, rfl, by decide, by decide⟩
  | bool b => cases b <;> exact ⟨_, _, rfl, by decide, by decide⟩
  | number n =>
      obtain ⟨t, ht, -⟩ := hj
      obtain ⟨c, ds, hc, hopen⟩ := numberText_head ht
      exact ⟨c, ds, hc, opens_signOrDigit hopen⟩
  | string s =>
      obtain ⟨cs, hcs, -⟩ := stringText_writeString s []
      exact ⟨'"', cs, hcs, by decide, by decide⟩
  | array items => exact ⟨'[', _, toList_write_array items, by decide, by decide⟩
  | object members => exact ⟨'\x7b', _, toList_write_object members, by decide, by decide⟩

theorem toList_member (name : String) (j : Json) :
    (writeString name ++ ":" ++ j.write).toList =
      (writeString name).toList ++ ':' :: j.write.toList := by
  simp

theorem joined_writeItems_head {j : Json} (js : List Json) (hj : j.Returns) :
    ∃ c cs, joined (writeItems (j :: js)) = c :: cs ∧ Opens c := by
  obtain ⟨c, cs, hc, hopen⟩ := write_head hj
  cases js with
  | nil => exact ⟨c, cs, by rw [writeItems, writeItems, joined_singleton, hc], hopen⟩
  | cons j' js =>
      exact ⟨c, _, by rw [writeItems, writeItems, joined_cons_cons, hc, List.cons_append], hopen⟩

theorem joined_writeMembers_head (entry : String × Json) (ms : List (String × Json)) :
    ∃ cs, joined (writeMembers (entry :: ms)) = '"' :: cs := by
  obtain ⟨name, j⟩ := entry
  obtain ⟨cs, hcs, -⟩ := stringText_writeString name []
  cases ms with
  | nil =>
      rw [writeMembers, writeMembers, joined_singleton, toList_member, hcs, List.cons_append]
      exact ⟨_, rfl⟩
  | cons entry ms =>
      rw [writeMembers, writeMembers, joined_cons_cons, toList_member, hcs, List.cons_append,
        List.cons_append]
      exact ⟨_, rfl⟩

/-- The elements of an array that is not empty. -/
theorem value_array {c : Char} (hc : Opens c) (cs : List Char) (n : Nat) :
    Document.value (n + 1) ('[' :: c :: cs) =
      (Document.elements n (c :: cs)).map fun (items, rest) => (.array items, rest) := by
  rw [Document.value, skipSpace_of_head (by decide)]
  simp only [skipSpace_of_head hc.1]
  split
  · rename_i heq
    cases heq
    exact absurd rfl hc.2
  · rfl

/-- The members of an object that is not empty. -/
theorem value_object (cs : List Char) (n : Nat) :
    Document.value (n + 1) ('\x7b' :: '"' :: cs) =
      (Document.members n ('"' :: cs)).map fun (fields, rest) => (.object fields, rest) := by
  rfl

/-- The last element of an array. -/
theorem elements_bracket {n : Nat} {cs rest : List Char} {d : Document}
    (h : Document.value n cs = some (d, ']' :: rest)) :
    Document.elements (n + 1) cs = some ([d], rest) := by
  rw [Document.elements, h]
  rfl

/-- An element of an array with others behind it. -/
theorem elements_comma {n : Nat} {cs rest : List Char} {d : Document}
    (h : Document.value n cs = some (d, ',' :: rest)) :
    Document.elements (n + 1) cs =
      (Document.elements n rest).map fun (ds, left) => (d :: ds, left) := by
  rw [Document.elements, h]
  rfl

/-- The last member of an object. -/
theorem members_brace {n : Nat} {name : String} {cs rest : List Char} {d : Document}
    (h : Document.value n cs = some (d, '\x7d' :: rest)) :
    Document.members (n + 1) ((writeString name).toList ++ ':' :: cs) =
      some ([(some name, d)], rest) := by
  obtain ⟨ds, hds, hname⟩ := stringText_writeString name (':' :: cs)
  have hcolon : skipSpace (':' :: cs) = ':' :: cs := skipSpace_of_head (by decide) cs
  have hbrace : skipSpace ('\x7d' :: rest) = '\x7d' :: rest := skipSpace_of_head (by decide) rest
  rw [hds, List.cons_append, Document.members, skipSpace_of_head (by decide)]
  simp only [hname, hcolon, h, hbrace]

/-- A member of an object with others behind it. -/
theorem members_comma {n : Nat} {name : String} {cs rest : List Char} {d : Document}
    (h : Document.value n cs = some (d, ',' :: rest)) :
    Document.members (n + 1) ((writeString name).toList ++ ':' :: cs) =
      (Document.members n rest).map fun (ms, left) => ((some name, d) :: ms, left) := by
  obtain ⟨ds, hds, hname⟩ := stringText_writeString name (':' :: cs)
  have hcolon : skipSpace (':' :: cs) = ':' :: cs := skipSpace_of_head (by decide) cs
  have hcomma : skipSpace (',' :: rest) = ',' :: rest := skipSpace_of_head (by decide) rest
  rw [hds, List.cons_append, Document.members, skipSpace_of_head (by decide)]
  simp only [hname, hcolon, h, hcomma]

mutual

/-- **A tree is read back from its text**, whatever follows that does not go on with a number.  The
depth of the reading is bounded by twice the length of the text. -/
theorem value_write : ∀ (j : Json) (n : Nat) (rest : List Char), j.Returns →
    (∀ c ∈ rest.head?, EndsNumber c) → 2 * j.write.toList.length ≤ n →
      Document.value n (j.write.toList ++ rest) = some (j.document, rest)
  | null, n, rest => by
    intro _ _ hn
    obtain ⟨m, rfl⟩ : ∃ m, n = m + 1 := ⟨n - 1, by simp [write] at hn; omega⟩
    rfl
  | bool b, n, rest => by
    intro _ _ hn
    obtain ⟨m, rfl⟩ : ∃ m, n = m + 1 := ⟨n - 1, by cases b <;> simp [write] at hn <;> omega⟩
    cases b <;> rfl
  | number x, n, rest => by
    rintro ⟨t, ht, hx⟩ hr hn
    obtain ⟨c, ds, hc, hopen⟩ := numberText_head ht
    have happend := numberText_append hr ht
    rw [write] at hn ⊢
    rw [hc] at hn happend ⊢
    obtain ⟨m, rfl⟩ : ∃ m, n = m + 1 := ⟨n - 1, by simp at hn; omega⟩
    rw [List.cons_append] at happend ⊢
    rw [value_number hopen, happend]
    simp [document, hx]
  | string s, n, rest => by
    intro _ _ hn
    obtain ⟨cs, hcs, hs⟩ := stringText_writeString s rest
    rw [write] at hn ⊢
    rw [hcs] at hn ⊢
    obtain ⟨m, rfl⟩ : ∃ m, n = m + 1 := ⟨n - 1, by simp at hn; omega⟩
    rw [List.cons_append, Document.value, skipSpace_of_head (by decide)]
    simp [hs, document]
  | array items, n, rest => by
    intro hj _ hn
    rw [toList_write_array] at hn ⊢
    have hlen : 2 * (joined (writeItems items)).length + 4 ≤ n := by
      simp at hn
      omega
    obtain ⟨m, rfl⟩ : ∃ m, n = m + 1 := ⟨n - 1, by omega⟩
    cases items with
    | nil => rfl
    | cons j js =>
        obtain ⟨c, cs, hc, hopen⟩ := joined_writeItems_head js hj.1
        have helements := elements_write (j :: js) m rest (by simp) hj (by omega)
        rw [List.cons_append, List.append_assoc, List.singleton_append]
        rw [hc] at helements ⊢
        rw [List.cons_append] at helements ⊢
        rw [value_array hopen, helements]
        rfl
  | object members, n, rest => by
    intro hj _ hn
    rw [toList_write_object] at hn ⊢
    have hlen : 2 * (joined (writeMembers members)).length + 4 ≤ n := by
      simp at hn
      omega
    obtain ⟨m, rfl⟩ : ∃ m, n = m + 1 := ⟨n - 1, by omega⟩
    cases members with
    | nil => rfl
    | cons entry ms =>
        obtain ⟨cs, hc⟩ := joined_writeMembers_head entry ms
        have hmembers := members_write (entry :: ms) m rest (by simp) hj (by omega)
        rw [List.cons_append, List.append_assoc, List.singleton_append]
        rw [hc] at hmembers ⊢
        rw [List.cons_append] at hmembers ⊢
        rw [value_object, hmembers]
        rfl

/-- The elements of an array are read back, up to the bracket that closes it. -/
theorem elements_write : ∀ (js : List Json) (n : Nat) (rest : List Char), js ≠ [] → AllReturn js →
    2 * (joined (writeItems js)).length + 1 ≤ n →
      Document.elements n (joined (writeItems js) ++ ']' :: rest) = some (documents js, rest)
  | [], _, _ => fun h => absurd rfl h
  | [j], n, rest => by
    intro _ hj hn
    rw [writeItems, writeItems, joined_singleton] at hn ⊢
    obtain ⟨m, rfl⟩ : ∃ m, n = m + 1 := ⟨n - 1, by omega⟩
    have hend : EndsNumber ']' := by decide
    have hvalue := value_write j m _ hj.1 (endsNumber_head hend rest) (by omega)
    exact elements_bracket hvalue
  | j :: j' :: js, n, rest => by
    intro _ hj hn
    rw [writeItems, writeItems, joined_cons_cons] at hn ⊢
    rw [← writeItems] at hn ⊢
    have hlen : 2 * j.write.toList.length + 2 * (joined (writeItems (j' :: js))).length + 3 ≤
        n := by
      simp at hn
      omega
    obtain ⟨m, rfl⟩ : ∃ m, n = m + 1 := ⟨n - 1, by omega⟩
    have hend : EndsNumber ',' := by decide
    have hvalue := value_write j m _ hj.1
      (endsNumber_head hend (joined (writeItems (j' :: js)) ++ ']' :: rest)) (by omega)
    have helements := elements_write (j' :: js) m rest (by simp) hj.2 (by omega)
    rw [List.append_assoc, List.cons_append, elements_comma hvalue, helements]
    rfl

/-- The members of an object are read back, up to the brace that closes it. -/
theorem members_write : ∀ (ms : List (String × Json)) (n : Nat) (rest : List Char), ms ≠ [] →
    MembersReturn ms → 2 * (joined (writeMembers ms)).length + 1 ≤ n →
      Document.members n (joined (writeMembers ms) ++ '\x7d' :: rest) =
        some (memberDocuments ms, rest)
  | [], _, _ => fun h => absurd rfl h
  | [(name, j)], n, rest => by
    intro _ hj hn
    rw [writeMembers, writeMembers, joined_singleton, toList_member] at hn ⊢
    have hlen : 2 * j.write.toList.length + 3 ≤ n := by
      simp at hn
      omega
    obtain ⟨m, rfl⟩ : ∃ m, n = m + 1 := ⟨n - 1, by omega⟩
    have hend : EndsNumber '\x7d' := by decide
    have hvalue := value_write j m _ hj.1 (endsNumber_head hend rest) (by omega)
    rw [List.append_assoc, List.cons_append]
    exact members_brace hvalue
  | (name, j) :: entry :: ms, n, rest => by
    intro _ hj hn
    rw [writeMembers, writeMembers, joined_cons_cons, toList_member] at hn ⊢
    rw [← writeMembers] at hn ⊢
    have hlen : 2 * j.write.toList.length + 2 * (joined (writeMembers (entry :: ms))).length + 3 ≤
        n := by
      simp at hn
      omega
    obtain ⟨m, rfl⟩ : ∃ m, n = m + 1 := ⟨n - 1, by omega⟩
    have hend : EndsNumber ',' := by decide
    have hvalue := value_write j m _ hj.1
      (endsNumber_head hend (joined (writeMembers (entry :: ms)) ++ '\x7d' :: rest)) (by omega)
    have hmembers := members_write (entry :: ms) m rest (by simp) hj.2 (by omega)
    rw [List.append_assoc, List.append_assoc, List.cons_append, List.cons_append,
      members_comma hvalue, hmembers]
    rfl

end

/-- **The reader returns the tree that was written**, the members of its objects sorted by name. -/
theorem parse?_write {j : Json} (hj : j.Returns) (hd : j.nesting ≤ depthLimit) :
    parse? j.write = some j.asRead := by
  have hvalue := value_write j (2 * (j.write.toList.length + 1)) [] hj (by simp) (by omega)
  rw [List.append_nil] at hvalue
  have hdocument : Document.parse? j.write = some j.document := by
    rw [Document.parse?, hvalue]
    rfl
  rw [parse?, hdocument, Option.bind_some, ofDocument?_document j hd]

end Json

/-! ### Values -/

namespace Value

mutual

/-- Is there no double in the value? -/
def noDoubles : Value → Bool
  | .double _ => false
  | .sequence items => noDoublesAll items
  | .record _ values => noDoublesAll values
  | .grouping key elements => key.noDoubles && noDoublesAll elements
  | _ => true

/-- Is there no double in the values? -/
def noDoublesAll : List Value → Bool
  | [] => true
  | v :: vs => v.noDoubles && noDoublesAll vs

end

mutual

/-- The integers of a value fit in 64 bits, so without doubles every number is read back. -/
theorem returns_toJson : ∀ (v : Value), v.noDoubles = true → v.toJson.Returns
  | .null, _ | .bool _, _ | .string _, _ | .timestamp _, _ => trivial
  | .int n, _ => by
    have hlow := n.le_toInt
    have hhigh := n.toInt_lt
    exact Json.Number.returns_int (by omega) (by omega)
  | .long n, _ => by
    have hlow := n.le_toInt
    have hhigh := n.toInt_lt
    exact Json.Number.returns_int (by omega) (by omega)
  | .double _, h => by cases h
  | .sequence items, h => allReturn_toJsonAll items h
  | .record type values, h => membersReturn_toMembers type.fields values h
  | .grouping key elements, h => by
    obtain ⟨hkey, helements⟩ := Bool.and_eq_true_iff.mp h
    exact ⟨returns_toJson key hkey, allReturn_toJsonAll elements helements, trivial⟩

theorem allReturn_toJsonAll : ∀ (vs : List Value), noDoublesAll vs = true →
    Json.AllReturn (toJsonAll vs)
  | [], _ => trivial
  | v :: vs, h => by
    obtain ⟨hv, hvs⟩ := Bool.and_eq_true_iff.mp h
    exact ⟨returns_toJson v hv, allReturn_toJsonAll vs hvs⟩

theorem membersReturn_toMembers : ∀ (fields : List (String × Ty)) (vs : List Value),
    noDoublesAll vs = true → Json.MembersReturn (toMembers fields vs)
  | [], [], _ | [], _ :: _, _ | _ :: _, [], _ => by simp [toMembers, Json.MembersReturn]
  | (name, _) :: fields, v :: vs, h => by
    obtain ⟨hv, hvs⟩ := Bool.and_eq_true_iff.mp h
    rw [toMembers]
    exact ⟨returns_toJson v hv, membersReturn_toMembers fields vs hvs⟩

end

/-- The text of a value without doubles is read as its tree, if it is not nested too deeply. -/
theorem parse?_toJsonText {v : Value} (hd : v.noDoubles = true)
    (hn : v.toJson.nesting ≤ Json.depthLimit) :
    Json.parse? v.toJsonText = some v.toJson.asRead :=
  Json.parse?_write (returns_toJson v hd) hn

/-! ### Values out of their texts -/

/-- **A value is read back from its text** at each plain type to which it belongs, if the reader of
documents returns the tree that was written. -/
theorem ofJsonText_toJsonText {t : Ty} {v : Value} (ht : t.isPlain = true) (hv : v.Belongs t)
    (hp : v.isPlain = true) (hread : Json.parse? v.toJsonText = some v.toJson.asRead) :
    ofJsonText t v.toJsonText = .ok v := by
  have htree := ofJson_toJson t ht hv hp
  simp only [ofJsonText, hread, htree]

/-- A record whose fields do not stand in the order of their names, with a list that holds null. -/
theorem ofJsonText_toJsonText_record :
    let t : RecordTy :=
      { name := some "Row"
        fields :=
          [("text", .string), ("marks", .list (.nullable .bool)), ("left", .sequence .string)] }
    let v := Value.record t
      [.string "\"a\"\n", .sequence [.bool true, .null, .bool false], .sequence []]
    v.toJsonText = "\x7b\"text\":\"\\\"a\\\"\\n\",\"marks\":[true,null,false],\"left\":[]\x7d" ∧
      ofJsonText t.toTy v.toJsonText = .ok v := by
  intro t v
  have hread : Json.parse? v.toJsonText = some v.toJson.asRead :=
    parse?_toJsonText (by decide) (by decide)
  exact ⟨by cbv, ofJsonText_toJsonText (by decide) (by decide) (by decide) hread⟩

/-- **A value without doubles is read back from its text** at each plain type to which it belongs,
as long as it is not nested too deeply. -/
theorem ofJsonText_toJsonText_of_noDoubles {t : Ty} {v : Value} (ht : t.isPlain = true)
    (hv : v.Belongs t) (hp : v.isPlain = true) (hd : v.noDoubles = true)
    (hn : v.toJson.nesting ≤ Json.depthLimit) : ofJsonText t v.toJsonText = .ok v := by
  have hread := parse?_toJsonText hd hn
  have htree := ofJson_toJson t ht hv hp
  simp only [ofJsonText, hread, htree]

end Value

end LambdaQuery
