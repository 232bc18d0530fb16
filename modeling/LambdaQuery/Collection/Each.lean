/-
Computations carried out for the elements of a collection one by one, in order.

* `Each.map`, `Each.keep`, `Each.all` — the images, the elements for which a condition holds, and
  whether it holds for all;
* `Each.takeWhile`, `Each.dropWhile` — the elements before the first for which a condition does not
  hold, and the elements from there on;
* `Each.fold` — a value into which the elements are taken.

What a computation does besides, failing for one, ends or goes on as in the sequence of the single
computations.  A condition is not asked for elements past the first that decides.
-/

namespace LambdaQuery.Each

variable {m : Type → Type} [Monad m] {α β : Type}

/-- The images of the elements. -/
def map (f : α → m β) : List α → m (List β)
  | [] => pure []
  | x :: xs => do
    let y ← f x
    let ys ← map f xs
    return y :: ys

/-- The elements for which a condition holds. -/
def keep (test : α → m Bool) : List α → m (List α)
  | [] => pure []
  | x :: xs => do
    let holds ← test x
    let rest ← keep test xs
    return if holds then x :: rest else rest

/-- Does the condition hold for all elements?  The first for which it does not ends the search. -/
def all (test : α → m Bool) : List α → m Bool
  | [] => pure true
  | x :: xs => do
    if ← test x then all test xs else return false

/-- The elements before the first for which the condition does not hold. -/
def takeWhile (test : α → m Bool) : List α → m (List α)
  | [] => pure []
  | x :: xs => do
    if ← test x then
      let rest ← takeWhile test xs
      return x :: rest
    else return []

/-- The elements from the first on for which the condition does not hold. -/
def dropWhile (test : α → m Bool) : List α → m (List α)
  | [] => pure []
  | x :: xs => do
    if ← test x then dropWhile test xs else return x :: xs

/-- Takes the elements into a value, the first one first. -/
def fold (f : β → α → m β) (acc : β) : List α → m β
  | [] => pure acc
  | x :: xs => do
    let acc ← f acc x
    fold f acc xs

end LambdaQuery.Each
