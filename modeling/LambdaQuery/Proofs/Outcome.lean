/-
**Outcomes within bounds.**  A computation that may fail keeps to a promise if its value has a given
property, or if its error is one of those that are allowed.

`Within allowed P r` says so of a result `r`.  It passes through sequencing and through the
functions of `Each`, so that what holds of the single computations holds of the whole.

Main definitions:
* `Within` — the value has the property, or the error is allowed.

Main results:
* `bind_eq_ok`, `pure_eq_ok`, `map_eq_ok` — how a sequence of computations succeeds;
* `bind_mapError`, `Each.map_mapError`, `Each.keep_mapError`, `Each.all_mapError` — the errors of a
  sequence and of computations over lists change with those of their parts;
* `Each.map_eq_ok`, `Each.keep_eq_ok` — computations over a list of which none fails;
* `Within.bind`, `Within.mapError` — the promise of a sequence, and of a result whose error changes;
* `Within.each_map`, `Within.each_keep`, `Within.each_all`, `Within.each_takeWhile`,
  `Within.each_dropWhile`, `Within.each_fold` — the promises of computations over lists.
-/

import LambdaQuery.Collection.Each
import Mathlib

namespace LambdaQuery

variable {ε ε' α β : Type}

/-! ### Successful computations -/

/-- A sequence succeeds when both its parts do. -/
theorem bind_eq_ok {r : Except ε α} {k : α → Except ε β} {b : β} :
    (r >>= k) = .ok b ↔ ∃ a, r = .ok a ∧ k a = .ok b := by
  cases r with
  | error e => simp [bind, Except.bind]
  | ok a => simp [bind, Except.bind]

theorem pure_eq_ok {a b : α} : (pure a : Except ε α) = .ok b ↔ a = b := by
  simp [pure, Except.pure]

theorem map_eq_ok {r : Except ε α} {f : α → β} {b : β} :
    r.map f = .ok b ↔ ∃ a, r = .ok a ∧ f a = b := by
  cases r <;> simp [Except.map]

theorem mapError_eq_ok {r : Except ε α} {f : ε → ε'} {a : α} :
    r.mapError f = .ok a ↔ r = .ok a := by
  cases r <;> simp [Except.mapError]

/-- The value of a sequence changes if that of its last part does. -/
theorem bind_map_comm {β' : Type} {r : Except ε α} {g : β → β'} {k : α → Except ε β}
    {k' : α → Except ε β'} (h : ∀ a, k' a = (k a).map g) : (r >>= k') = (r >>= k).map g := by
  cases r with
  | error e => rfl
  | ok a => exact h a

/-- Likewise where the value of the first part changes as well. -/
theorem map_bind_comm {α' β' : Type} {r : Except ε α} {f : α → α'} {g : β → β'}
    {k : α → Except ε β} {k' : α' → Except ε β'} (h : ∀ a, k' (f a) = (k a).map g) :
    (r.map f >>= k') = (r >>= k).map g := by
  cases r with
  | error e => rfl
  | ok a => exact h a

theorem isOk_iff {r : Except ε α} : r.isOk = true ↔ ∃ a, r = .ok a := by
  cases r <;> simp [Except.isOk, Except.toBool]

/-! ### Changed errors -/

/-- The errors of a sequence change with those of its parts. -/
theorem bind_mapError (r : Except ε α) (k : α → Except ε β) (f : ε → ε') :
    (r >>= k).mapError f = r.mapError f >>= fun a => (k a).mapError f := by
  cases r <;> rfl

/-- A sequence depends on what follows the values of its first part alone. -/
theorem bind_congr_ok {r : Except ε α} {k k' : α → Except ε β} (h : ∀ a, r = .ok a → k a = k' a) :
    (r >>= k) = (r >>= k') := by
  cases r with
  | error e => rfl
  | ok a => exact h a rfl

/-- The errors of computations over a list change with those of the single ones. -/
theorem Each.map_mapError (g : α → Except ε β) (f : ε → ε') (xs : List α) :
    (Each.map g xs).mapError f = Each.map (fun x => (g x).mapError f) xs := by
  induction xs with
  | nil => rfl
  | cons x xs ih =>
      rw [Each.map, Each.map, bind_mapError, ← ih]
      congr 1
      funext y
      exact bind_mapError ..

theorem Each.keep_mapError (test : α → Except ε Bool) (f : ε → ε') (xs : List α) :
    (Each.keep test xs).mapError f = Each.keep (fun x => (test x).mapError f) xs := by
  induction xs with
  | nil => rfl
  | cons x xs ih =>
      rw [Each.keep, Each.keep, bind_mapError, ← ih]
      congr 1
      funext holds
      exact bind_mapError ..

theorem Each.all_mapError (test : α → Except ε Bool) (f : ε → ε') (xs : List α) :
    (Each.all test xs).mapError f = Each.all (fun x => (test x).mapError f) xs := by
  induction xs with
  | nil => rfl
  | cons x xs ih =>
      rw [Each.all, Each.all, bind_mapError, ← ih]
      congr 1
      funext holds
      cases holds <;> rfl

/-! ### Computations over the same list -/

/-- Computations over a list depend on those for its elements alone. -/
theorem Each.map_congr {g g' : α → Except ε β} :
    ∀ {xs : List α}, (∀ x ∈ xs, g x = g' x) → Each.map g xs = Each.map g' xs := by
  intro xs
  induction xs with
  | nil =>
      intro _
      rfl
  | cons x xs ih =>
      intro h
      rw [Each.map, Each.map, h x (List.mem_cons_self ..),
        ih fun y hy => h y (List.mem_cons_of_mem _ hy)]

/-- Computations over the images of a list. -/
theorem Each.map_map {γ : Type} (g : β → Except ε γ) (f : α → β) (xs : List α) :
    Each.map g (xs.map f) = Each.map (fun x => g (f x)) xs := by
  induction xs with
  | nil => rfl
  | cons x xs ih => rw [List.map_cons, Each.map, Each.map, ih]

/-- Computations over a list that goes on with another. -/
theorem Each.map_append (g : α → Except ε β) (xs ys : List α) :
    Each.map g (xs ++ ys) =
      Each.map g xs >>= fun as => Each.map g ys >>= fun bs => pure (as ++ bs) := by
  induction xs with
  | nil => exact (bind_pure (Each.map g ys)).symm
  | cons x xs ih =>
      rw [List.cons_append, Each.map, Each.map, ih]
      simp only [bind_assoc, pure_bind, List.cons_append]

/-- Computations over a list of which none fails give the list of their values. -/
theorem Each.map_eq_ok {g : α → Except ε β} {f : α → β} :
    ∀ {xs : List α}, (∀ x ∈ xs, g x = .ok (f x)) → Each.map g xs = .ok (xs.map f) := by
  intro xs
  induction xs with
  | nil =>
      intro _
      rfl
  | cons x xs ih =>
      intro h
      rw [Each.map, h x (List.mem_cons_self ..), ih fun y hy => h y (List.mem_cons_of_mem _ hy)]
      rfl

/-- A condition that does not fail keeps the elements for which it holds. -/
theorem Each.keep_eq_ok {test : α → Except ε Bool} {p : α → Bool} :
    ∀ {xs : List α}, (∀ x ∈ xs, test x = .ok (p x)) → Each.keep test xs = .ok (xs.filter p) := by
  intro xs
  induction xs with
  | nil =>
      intro _
      rfl
  | cons x xs ih =>
      intro h
      rw [Each.keep, h x (List.mem_cons_self ..), ih fun y hy => h y (List.mem_cons_of_mem _ hy),
        List.filter_cons]
      rfl

/-! ### Outcomes within bounds -/

/-- The value of a result has the property, or its error is allowed. -/
inductive Within (allowed : ε → Prop) (P : α → Prop) : Except ε α → Prop
  | ok {a : α} (h : P a) : Within allowed P (.ok a)
  | error {e : ε} (h : allowed e) : Within allowed P (.error e)

namespace Within

variable {allowed : ε → Prop} {P : α → Prop} {Q : β → Prop}

/-! ### Sequencing -/

theorem mono {allowed' : ε → Prop} {P' : α → Prop} {r : Except ε α} (h : Within allowed P r)
    (he : ∀ e, allowed e → allowed' e) (hP : ∀ a, P a → P' a) : Within allowed' P' r := by
  cases h with
  | ok h => exact .ok (hP _ h)
  | error h => exact .error (he _ h)

theorem imp {P' : α → Prop} {r : Except ε α} (h : Within allowed P r) (hP : ∀ a, P a → P' a) :
    Within allowed P' r :=
  h.mono (fun _ he => he) hP

theorem bind {r : Except ε α} {k : α → Except ε β} (h : Within allowed P r)
    (hk : ∀ a, P a → Within allowed Q (k a)) : Within allowed Q (r >>= k) := by
  cases h with
  | ok h => exact hk _ h
  | error h => exact .error h

theorem map {r : Except ε α} {f : α → β} (h : Within allowed P r) (hf : ∀ a, P a → Q (f a)) :
    Within allowed Q (r.map f) := by
  cases h with
  | ok h => exact .ok (hf _ h)
  | error h => exact .error h

theorem mapError {allowed' : ε' → Prop} {r : Except ε α} {f : ε → ε'} (h : Within allowed P r)
    (hf : ∀ e, allowed e → allowed' (f e)) : Within allowed' P (r.mapError f) := by
  cases h with
  | ok h => exact .ok h
  | error h => exact .error (hf _ h)

/-! ### Lists -/

theorem each_map {f : α → Except ε β} :
    ∀ {xs : List α}, (∀ x ∈ xs, Within allowed Q (f x)) →
      Within allowed (fun ys => ∀ y ∈ ys, Q y) (Each.map f xs) := by
  intro xs
  induction xs with
  | nil =>
      intro _
      refine .ok fun y hy => ?_
      cases hy
  | cons x xs ih =>
      intro h
      have hx := h x (List.mem_cons_self ..)
      have hxs := ih fun y hy => h y (List.mem_cons_of_mem _ hy)
      refine hx.bind fun y hy => hxs.bind fun ys hys => .ok ?_
      intro z hz
      rcases List.mem_cons.mp hz with rfl | hz
      · exact hy
      · exact hys z hz

/-- Computations over a list give as many values as it has elements. -/
theorem each_map_length {f : α → Except ε β} {xs : List α}
    (h : ∀ x ∈ xs, Within allowed (fun _ => True) (f x)) :
    Within allowed (fun ys => ys.length = xs.length) (Each.map f xs) := by
  induction xs with
  | nil => exact .ok rfl
  | cons x xs ih =>
      have hx := h x (List.mem_cons_self ..)
      have hxs := ih fun y hy => h y (List.mem_cons_of_mem _ hy)
      exact hx.bind fun y _ => hxs.bind fun ys hys => .ok (congrArg Nat.succ hys)

/-- What is kept is among the elements. -/
theorem each_keep {test : α → Except ε Bool} :
    ∀ {xs : List α}, (∀ x ∈ xs, Within allowed (fun _ => True) (test x)) →
      Within allowed (fun ys => ∀ y ∈ ys, y ∈ xs) (Each.keep test xs) := by
  intro xs
  induction xs with
  | nil =>
      intro _
      exact .ok fun y hy => hy
  | cons x xs ih =>
      intro h
      have hx := h x (List.mem_cons_self ..)
      have hxs := ih fun y hy => h y (List.mem_cons_of_mem _ hy)
      refine hx.bind fun b _ => hxs.bind fun ys hys => .ok ?_
      intro z hz
      cases b with
      | false => exact List.mem_cons_of_mem _ (hys z hz)
      | true =>
          rcases List.mem_cons.mp hz with rfl | hz
          · exact List.mem_cons_self ..
          · exact List.mem_cons_of_mem _ (hys z hz)

theorem each_all {test : α → Except ε Bool} :
    ∀ {xs : List α}, (∀ x ∈ xs, Within allowed (fun _ => True) (test x)) →
      Within allowed (fun _ => True) (Each.all test xs) := by
  intro xs
  induction xs with
  | nil =>
      intro _
      exact .ok trivial
  | cons x xs ih =>
      intro h
      have hx := h x (List.mem_cons_self ..)
      have hxs := ih fun y hy => h y (List.mem_cons_of_mem _ hy)
      refine hx.bind fun b _ => ?_
      cases b with
      | false => exact .ok trivial
      | true => exact hxs

theorem each_takeWhile {test : α → Except ε Bool} :
    ∀ {xs : List α}, (∀ x ∈ xs, Within allowed (fun _ => True) (test x)) →
      Within allowed (fun ys => ∀ y ∈ ys, y ∈ xs) (Each.takeWhile test xs) := by
  intro xs
  induction xs with
  | nil =>
      intro _
      exact .ok fun y hy => hy
  | cons x xs ih =>
      intro h
      have hx := h x (List.mem_cons_self ..)
      have hxs := ih fun y hy => h y (List.mem_cons_of_mem _ hy)
      refine hx.bind fun b _ => ?_
      cases b with
      | false => exact .ok fun z hz => by cases hz
      | true =>
          refine hxs.bind fun ys hys => .ok ?_
          intro z hz
          rcases List.mem_cons.mp hz with rfl | hz
          · exact List.mem_cons_self ..
          · exact List.mem_cons_of_mem _ (hys z hz)

theorem each_dropWhile {test : α → Except ε Bool} :
    ∀ {xs : List α}, (∀ x ∈ xs, Within allowed (fun _ => True) (test x)) →
      Within allowed (fun ys => ∀ y ∈ ys, y ∈ xs) (Each.dropWhile test xs) := by
  intro xs
  induction xs with
  | nil =>
      intro _
      exact .ok fun y hy => hy
  | cons x xs ih =>
      intro h
      have hx := h x (List.mem_cons_self ..)
      have hxs := ih fun y hy => h y (List.mem_cons_of_mem _ hy)
      refine hx.bind fun b _ => ?_
      cases b with
      | false => exact .ok fun z hz => hz
      | true => exact hxs.imp fun ys hys y hy => List.mem_cons_of_mem _ (hys y hy)

/-- An invariant of the accumulated value that every step keeps. -/
theorem each_fold {f : β → α → Except ε β} :
    ∀ {xs : List α} {acc : β}, Q acc → (∀ b, Q b → ∀ x ∈ xs, Within allowed Q (f b x)) →
      Within allowed Q (Each.fold f acc xs) := by
  intro xs
  induction xs with
  | nil =>
      intro acc hacc _
      exact .ok hacc
  | cons x xs ih =>
      intro acc hacc h
      have hx := h acc hacc x (List.mem_cons_self ..)
      exact hx.bind fun b hb => ih hb fun b hb y hy => h b hb y (List.mem_cons_of_mem _ hy)

end Within

end LambdaQuery
