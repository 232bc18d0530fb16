/-
Classes of characters, given as lists of code point ranges.

* `Ranges.holds` — membership of a code point, reading the ranges from the lowest up;
* `Ranges.holds_eq_false_of_lt` — nothing below the first range is in the class.
-/

namespace LambdaQuery.Text

/-- A class of characters: the ranges of code points it holds, both ends included, disjoint and
in increasing order. -/
abbrev Ranges := List (Nat × Nat)

namespace Ranges

/-- Is the code point in one of the ranges?  The search ends at the first range that starts above
it. -/
def holds : Ranges → Nat → Bool
  | [], _ => false
  | (first, last) :: rest, n => if n < first then false else n ≤ last || holds rest n

theorem holds_eq_false_of_lt {first last n : Nat} {rest : Ranges} (h : n < first) :
    holds ((first, last) :: rest) n = false := by
  simp [holds, h]

end Ranges

end LambdaQuery.Text
