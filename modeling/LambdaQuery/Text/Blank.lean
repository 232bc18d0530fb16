/-
Blank characters, the Unicode property `White_Space`: what may stand between tokens, and what
trimming takes from the two ends of a text.

* `isBlank`, `isBlankText` — the class, and texts made of it alone;
* `trim` — a text without its blank ends;
* `exists_blanks_around`, `trim_ne_empty` — what trimming takes away, and what it leaves.
-/

import LambdaQuery.Text.Ranges

namespace LambdaQuery.Text

/-- The code points of Unicode `White_Space`. -/
def blankRanges : Ranges :=
  [(0x9, 0xd), (0x20, 0x20), (0x85, 0x85), (0xa0, 0xa0), (0x1680, 0x1680), (0x2000, 0x200a),
   (0x2028, 0x2029), (0x202f, 0x202f), (0x205f, 0x205f), (0x3000, 0x3000)]

/-- Has the character the property `White_Space`? -/
def isBlank (c : Char) : Bool := blankRanges.holds c.toNat

/-- A text that holds nothing but blanks. -/
def isBlankText (s : String) : Bool := s.toList.all isBlank

/-- A text without the blanks at either end. -/
def trim (s : String) : String :=
  String.ofList (((s.toList.dropWhile isBlank).reverse.dropWhile isBlank).reverse)

/-- What core calls white space is blank. -/
theorem isBlank_of_isWhitespace {c : Char} (h : c.isWhitespace = true) : isBlank c = true := by
  simp only [Char.isWhitespace, Bool.or_eq_true, decide_eq_true_eq] at h
  rcases h with ((h | h) | h) | h <;> subst h <;> decide

/-- Trimming takes nothing but blanks from the two ends. -/
theorem exists_blanks_around (s : String) :
    ∃ before after : List Char, s.toList = before ++ (trim s).toList ++ after ∧
      (∀ c ∈ before, isBlank c = true) ∧ ∀ c ∈ after, isBlank c = true := by
  let rest := s.toList.dropWhile isBlank
  refine ⟨s.toList.takeWhile isBlank, (rest.reverse.takeWhile isBlank).reverse, ?_,
    List.all_eq_true.mp List.all_takeWhile, ?_⟩
  · have hrest : (rest.reverse.dropWhile isBlank).reverse ++
        (rest.reverse.takeWhile isBlank).reverse = rest := by
      rw [← List.reverse_append, List.takeWhile_append_dropWhile, List.reverse_reverse]
    rw [trim, String.toList_ofList, List.append_assoc, hrest, List.takeWhile_append_dropWhile]
  · intro c hc
    exact List.all_eq_true.mp List.all_takeWhile c (List.mem_reverse.mp hc)

theorem trim_ne_empty {s : String} (h : isBlankText s = false) : trim s ≠ "" := by
  intro he
  obtain ⟨before, after, hs, hb, ha⟩ := exists_blanks_around s
  rw [he] at hs
  have hall : ∀ c ∈ s.toList, isBlank c = true := by
    intro c hc
    rw [hs] at hc
    simp only [String.toList_empty, List.append_nil, List.mem_append] at hc
    exact hc.elim (hb c) (ha c)
  exact absurd (List.all_eq_true.mpr hall) (by rw [← isBlankText, h]; simp)

end LambdaQuery.Text
