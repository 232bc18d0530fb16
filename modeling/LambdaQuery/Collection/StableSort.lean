/-
The sort of lists.  It is stable, and it is meant for an order of the items; it notices some orders
that are none, and gives up on them.

Few items are sorted by insertion.  More of them are cut into runs, which are merged two by two in
the order of a tree: a stretch that ascends or descends for long enough is a run as it stands, and
what lies between such stretches is sorted by itself.  A stretch of at most thirty-two items is
sorted in two halves that are merged from both ends at once; a longer one is split at a pivot.

* `insertionSort` — each item in turn moves down past the greater ones before it;
* `mergeFromEnds` — the two ends of a merge, which meet if the order is one;
* `smallSort`, `quickSort` — a stretch without long runs;
* `splitRuns`, `mergeRuns`, `sortRuns` — the runs of a list, and their merges;
* `sortBy` — the sort, `none` where it gives up.
-/

namespace LambdaQuery.Collection

/-- Does the first item come before the second? -/
def isLess {α : Type} (order : α → α → Ordering) (a b : α) : Bool := order a b == .lt

variable {α : Type} (order : α → α → Ordering)

/-! ### Insertion -/

/-- Puts an item into a list that descends by `order`, past the items that are greater. -/
def insertEntry (x : α) : List α → List α
  | [] => [x]
  | y :: ys => if isLess order x y then y :: insertEntry x ys else x :: y :: ys

/-- Puts items into a sorted list, one after the other. -/
def insertAll (sorted xs : List α) : List α :=
  (xs.foldl (fun descending x => insertEntry order x descending) sorted.reverse).reverse

/-- Sorts by insertion. -/
def insertionSort (xs : List α) : List α := insertAll order [] xs

/-! ### Merging -/

/-- Merges two sorted lists from their heads. -/
def mergeUp (xs ys : List α) : List α := xs.merge ys fun x y => !isLess order y x

/-- Merges two sorted lists, from the ends where the shorter one stands. -/
def mergeSorted (xs ys : List α) : List α :=
  if xs.length ≤ ys.length then mergeUp order xs ys
  else (mergeUp (flip order) ys.reverse xs.reverse).reverse

/-- The first items of a merge, and what is left of both lists. -/
def draw : Nat → List α → List α → List α × List α × List α
  | n + 1, x :: xs, y :: ys =>
    if isLess order y x then
      let (drawn, rest) := draw n (x :: xs) ys
      (y :: drawn, rest)
    else
      let (drawn, rest) := draw n xs (y :: ys)
      (x :: drawn, rest)
  | _, xs, ys => ([], xs, ys)

/-- Merges two sorted lists from both ends at once, as many items from below as from above and the
one in the middle last.  Each end goes by its own comparisons; where they do not meet, the order is
none. -/
def mergeFromEnds (xs ys : List α) : Option (List α) :=
  let n := xs.length + ys.length
  let (low, xsUp, ysUp) := draw order (n / 2) xs ys
  let (high, ysDown, xsDown) := draw (flip order) (n / 2) ys.reverse xs.reverse
  let i := xs.length - xsUp.length
  let j := ys.length - ysUp.length
  let (middle, i, j) :=
    if n % 2 = 0 then ([], i, j)
    else if i < xsDown.length then (xsUp.take 1, i + 1, j)
    else (ysUp.take 1, i, j + 1)
  if i = xsDown.length ∧ j = ysDown.length then some (low ++ middle ++ high.reverse) else none

/-! ### Small sorts -/

/-- Two items in their order. -/
def sortTwo (a b : α) : α × α := if isLess order b a then (b, a) else (a, b)

/-- Four items in their order, by five comparisons. -/
def sortFour (a b c d : α) : List α :=
  let (a, b) := sortTwo order a b
  let (c, d) := sortTwo order c d
  let (least, x, y, greatest) :=
    match isLess order c a, isLess order d b with
    | false, false => (a, b, c, d)
    | false, true => (a, c, d, b)
    | true, false => (c, a, b, d)
    | true, true => (c, a, d, b)
  let (x, y) := sortTwo order x y
  [least, x, y, greatest]

/-- Sorts half of a small list.  Unless the list is very small, four items are sorted at once. -/
def sortHalf (four : Bool) (xs : List α) : List α :=
  match four, xs with
  | true, a :: b :: c :: d :: rest => insertAll order (sortFour order a b c d) rest
  | _, xs => insertionSort order xs

/-- The length up to which a stretch is sorted in two halves. -/
def smallLength : Nat := 32

/-- Sorts a small list. -/
def smallSort (xs : List α) : Option (List α) :=
  if xs.length < 2 then some xs
  else
    let half := xs.length / 2
    let four := decide (8 ≤ xs.length)
    mergeFromEnds order (sortHalf order four (xs.take half)) (sortHalf order four (xs.drop half))

/-! ### Pivots -/

/-- Is the item at the first place less than the one at the second? -/
def isLessAt (xs : List α) (i j : Nat) : Bool :=
  match xs[i]?, xs[j]? with
  | some a, some b => isLess order a b
  | _, _ => false

/-- The place of the median of three items. -/
def medianOfThree (xs : List α) (i j k : Nat) : Nat :=
  let below := isLessAt order xs i j
  if below == isLessAt order xs i k then
    if isLessAt order xs j k ^^ below then k else j
  else i

/-- The place of a median of medians, taken from the `n` items that start at each of the places. -/
def medianOfMedians (xs : List α) (n i j k : Nat) : Nat :=
  if 8 ≤ n then
    let m := n / 8
    let inner (place : Nat) := medianOfMedians xs m place (place + m * 4) (place + m * 7)
    medianOfThree order xs (inner i) (inner j) (inner k)
  else medianOfThree order xs i j k
termination_by n

/-- The place of the item at which a list is split. -/
def pivotPlace (xs : List α) : Nat :=
  let m := xs.length / 8
  medianOfMedians order xs m 0 (m * 4) (m * 7)

/-- Splits a list in two by a test.  The item at the given place goes where it is told. -/
def splitAtPivot (goesLeft : α → Bool) (xs : List α) (place : Nat) (itGoesLeft : Bool) :
    List α × List α :=
  let before := xs.take place
  let it := (xs.drop place).take 1
  let after := xs.drop (place + 1)
  (before.filter goesLeft ++ (if itGoesLeft then it else []) ++ after.filter goesLeft,
    before.filter (!goesLeft ·) ++ (if itGoesLeft then [] else it) ++ after.filter (!goesLeft ·))

/-- Sorts a stretch by splitting it at pivots.  No item is less than `bound`, the pivot at which the
stretch was cut off on its left.  Where no item is less than the pivot, those equal to it are set
apart instead.  After `limit` splits on one way down the stretch goes to the `fallback`. -/
def quickSort (fallback : List α → Option (List α)) :
    Nat → Option α → List α → Option (List α)
  | limit, bound, xs =>
    if xs.length ≤ smallLength then smallSort order xs
    else
      match limit with
      | 0 => fallback xs
      | limit + 1 =>
        let place := pivotPlace order xs
        match xs[place]? with
        | none => none
        | some pivot =>
          let (less, others) := splitAtPivot (isLess order · pivot) xs place false
          if bound.any (!isLess order · pivot) || less.isEmpty then
            let (equal, greater) := splitAtPivot (!isLess order pivot ·) xs place true
            (quickSort fallback limit none greater).map (equal ++ ·)
          else do
            let right ← quickSort fallback limit (some pivot) others
            let left ← quickSort fallback limit bound less
            return left ++ right

/-! ### Runs -/

/-- A stretch of the list, which may have been sorted already. -/
structure Run (α : Type) where
  items : List α
  sorted : Bool

/-- How many items go on after `last` as the test tells of each and the one before it. -/
def stretch (goesOn : α → α → Bool) (last : α) : List α → Nat
  | [] => 0
  | x :: xs => if goesOn last x then stretch goesOn x xs + 1 else 0

/-- The length of the run at the head of a list, and whether it descends.  A run that descends has
no equal items. -/
def headRun : List α → Nat × Bool
  | x :: y :: rest =>
    if isLess order y x then (stretch (fun a b => isLess order b a) y rest + 2, true)
    else (stretch (fun a b => !isLess order b a) y rest + 2, false)
  | xs => (xs.length, false)

/-- The number of items of the next run, and the run.  One of `good` length is taken as it stands.
Else some items are taken and sorted at once if the cutting is `eager`, or left for later. -/
def nextRun (good : Nat) (eager : Bool) (xs : List α) : Nat × Option (Run α) :=
  let (n, descends) := headRun order xs
  if good ≤ n then
    (n, some ⟨if descends then (xs.take n).reverse else xs.take n, true⟩)
  else if eager then
    let n := min smallLength xs.length
    (n, (smallSort order (xs.take n)).map (⟨·, true⟩))
  else
    let n := min good xs.length
    (n, some ⟨xs.take n, false⟩)

theorem nextRun_pos {good : Nat} (hgood : 0 < good) (eager : Bool) (x : α) (xs : List α) :
    0 < (nextRun order good eager (x :: xs)).1 := by
  rw [nextRun]
  simp only
  split
  · omega
  · split <;> simp only [smallLength, List.length_cons] <;> omega

/-- The runs of a list. -/
def splitRuns {good : Nat} (hgood : 0 < good) (eager : Bool) (xs : List α) :
    Option (List (Run α)) :=
  match xs with
  | [] => some []
  | x :: xs => do
    let run ← (nextRun order good eager (x :: xs)).2
    let runs ← splitRuns hgood eager ((x :: xs).drop (nextRun order good eager (x :: xs)).1)
    return run :: runs
termination_by xs.length
decreasing_by
  have hpos := nextRun_pos order hgood eager x xs
  simp only [List.length_drop, List.length_cons]
  omega

/-- The items of a run, sorted now if they are not yet. -/
def Run.sort (quick : List α → Option (List α)) (run : Run α) : Option (List α) :=
  if run.sorted then some run.items else quick run.items

/-- Joins two neighbouring runs.  Runs that both wait to be sorted wait together, as long as there
is `room` for them. -/
def Run.join (quick : List α → Option (List α)) (room : Nat) (a b : Run α) : Option (Run α) :=
  if room < a.items.length + b.items.length ∨ a.sorted ∨ b.sorted then do
    let xs ← a.sort quick
    let ys ← b.sort quick
    return ⟨mergeSorted order xs ys, true⟩
  else some ⟨a.items ++ b.items, false⟩

/-- The depth at which two neighbouring runs meet in the tree of merges over the whole list: the
number of binary digits that the middles of the two runs share, as parts of its length. -/
def mergeDepth (length start middle stop : Nat) : Nat :=
  let scale := (Nat.pow 2 62 + length - 1) / length
  let z := (scale * (start + middle)) ^^^ (scale * (middle + stop))
  if z = 0 then 64 else 63 - z.log2

/-- Joins a run with the runs before it that meet it at the given depth or deeper. -/
def joinDeeper (join : Run α → Run α → Option (Run α)) (depth : Nat) :
    List (Run α × Nat) → Run α → Option (List (Run α × Nat) × Run α)
  | (before, d) :: stack, run =>
    if depth ≤ d then do joinDeeper join depth stack (← join before run)
    else some ((before, d) :: stack, run)
  | [], run => some ([], run)

/-- Joins runs in the order of the tree of merges.  The stack holds runs with the depths at which
they meet their successors, `run` ends at `place`, and the other runs follow it. -/
def mergeRuns (join : Run α → Run α → Option (Run α)) (length : Nat) :
    List (Run α × Nat) → Run α → Nat → List (Run α) → Option (Run α)
  | stack, run, _, [] => (joinDeeper join 0 stack run).map (·.2)
  | stack, run, place, next :: runs => do
    let depth := mergeDepth length (place - run.items.length) place (place + next.items.length)
    let (stack, run) ← joinDeeper join depth stack run
    mergeRuns join length ((run, depth) :: stack) next (place + next.items.length) runs

/-- The least length of a stretch that is taken as a run, for a list of `n` items: half of them, or
sixty-four, or about the square root of their number. -/
def goodLength (n : Nat) : Nat :=
  if n ≤ 64 * 64 then min (n - n / 2) 64
  else
    let root := Nat.pow 2 ((1 + n.log2) / 2)
    (root + n / root) / 2

theorem goodLength_pos {n : Nat} (h : 2 ≤ n) : 0 < goodLength n := by
  rw [goodLength]
  split
  · omega
  · have hroot : 2 ≤ Nat.pow 2 ((1 + n.log2) / 2) := by
      have hlog : 1 ≤ n.log2 := (Nat.le_log2 (by omega)).mpr (by omega)
      exact Nat.le_self_pow (by omega) 2
    exact Nat.div_pos (Nat.le_trans hroot (Nat.le_add_right ..)) (by omega)

/-- The number of items that are moved at once at most, in a list of `n` items. -/
def sortRoom (n : Nat) : Nat := max (n / 2) (min n 166666)

/-- Sorts a list by its runs. -/
def sortRuns (quick : List α → Option (List α)) (eager : Bool) (xs : List α) : Option (List α) :=
  if h : xs.length < 2 then some xs
  else do
    match ← splitRuns order (goodLength_pos (Nat.le_of_not_lt h)) eager xs with
    | [] => some []
    | first :: runs =>
      let join := Run.join order quick (sortRoom xs.length)
      (← mergeRuns join xs.length [] first first.items.length runs).sort quick

/-! ### The sort -/

/-- Sorts a stretch that has no long runs.  What has been split too often is sorted by its runs
after all, eagerly, so that none of them waits. -/
def sortStretch (xs : List α) : Option (List α) :=
  quickSort order (sortRuns order (some ∘ insertionSort order) true) (2 * xs.length.log2) none xs

/-- **The sort of a list.** -/
def sortBy (xs : List α) : Option (List α) :=
  if xs.length ≤ 20 then some (insertionSort order xs)
  else sortRuns order (sortStretch order) (decide (xs.length ≤ 2 * smallLength)) xs

end LambdaQuery.Collection
