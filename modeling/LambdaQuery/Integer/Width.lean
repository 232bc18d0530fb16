/-
Signed integers of a given width.

* `fits` — is an integer one of those that so many bits hold?
-/

namespace LambdaQuery

/-- The first integer past those of so many bits. -/
def widthBound (bits : Nat) : Nat := Nat.pow 2 (bits - 1)

/-- Is the integer one of the signed ones of so many bits? -/
def fits (bits : Nat) (n : Int) : Bool := -(widthBound bits : Int) ≤ n && n < widthBound bits

end LambdaQuery
