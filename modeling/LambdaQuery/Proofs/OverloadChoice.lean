/-
**Which overload a call fits.**  The library is searched in its order, and the first overload that a
call fits is taken.  The order matters only where a call fits several.  Sums and means alone have
several overloads in one shape, one for each type of numbers; what a function returns, or the type
of the elements, fits one of them, since a number is not read as a number of another type.

There is one exception.  The tree of an ordered source of nulls may stand for a query of any type
that has null among its values, and so for the queries of all three types of numbers that may be
missing.

Main definitions:
* `Signature.fits` — the overloads of a list that a call fits;
* `Signature.resolveIn` — the choice by the order of another library;
* `Signature.FunctionsGiven` — the arguments are functions where the overloads ask for functions;
* `Signature.total`, `Signature.totalOf` — the overloads of sums and means;
* `Signature.TotalOfNulls` — a sum or a mean of the nulls of an ordered source.

Main results:
* `Signature.firstFit_toOption` — the choice is the first of the overloads that a call fits;
* `Signature.length_overloads_le_one` — all but sums and means have one overload in each shape;
* `Signature.eq_element_of_total`, `Signature.eq_returns_of_totalOf` — the overload of a sum or a
  mean that a call fits is told by its elements, or by what its function returns;
* `Signature.resolveIn_toOption_of_perm` — where a call fits one overload at most, it gets that in
  every order of the library;
* `Signature.unambiguous` — **with that exception a call fits at most one overload, whatever the
  order of the library**.
-/

import LambdaQuery.Proofs.AcceptedCalls

namespace LambdaQuery

open TypePattern

namespace Signature

variable {operator : Operator} {shape : Shape} {typeArgs argTypes : List Ty} {t : Ty}

/-! ### The overloads that a call fits -/

/-- The overload with the type of the call, if the call fits it. -/
def fit? (typeArgs argTypes : List Ty) (s : Signature) : Option (Signature × Ty) :=
  (s.check typeArgs argTypes).toOption.map fun r => (s, r)

/-- The overloads of a list that a call fits, with the type of the call. -/
def fits (typeArgs argTypes : List Ty) (signatures : List Signature) : List (Signature × Ty) :=
  signatures.filterMap (fit? typeArgs argTypes)

theorem check_of_fit? {s : Signature} (h : (fit? typeArgs argTypes s).isSome = true) :
    ∃ r, s.check typeArgs argTypes = .ok r := by
  rw [fit?, Option.isSome_map] at h
  cases hcheck : s.check typeArgs argTypes with
  | ok r => exact ⟨r, rfl⟩
  | error e => rw [hcheck] at h; cases h

/-- The choice is the first of the overloads that a call fits. -/
theorem firstFit_toOption {failure : SignatureError} (signatures : List Signature) :
    (firstFit typeArgs argTypes failure signatures).toOption =
      (fits typeArgs argTypes signatures).head? := by
  induction signatures generalizing failure with
  | nil => rfl
  | cons s rest ih =>
      rw [firstFit, fits, List.filterMap_cons, fit?]
      cases s.check typeArgs argTypes with
      | ok r => rfl
      | error e => exact ih

/-- The choice by the order of another library. -/
def resolveIn (signatures : List Signature) (operator : Operator) (shape : Shape)
    (typeArgs argTypes : List Ty) : Except SignatureError (Signature × Ty) :=
  firstFit typeArgs argTypes (.noOverload operator shape)
    (signatures.filter fun s => s.operator == operator && s.shape == shape)

theorem resolve_eq_resolveIn (operator : Operator) (shape : Shape) (typeArgs argTypes : List Ty) :
    resolve operator shape typeArgs argTypes =
      resolveIn library operator shape typeArgs argTypes := rfl

/-- Lists of one element at most have one order. -/
theorem eq_of_perm_of_length_le_one {α : Type} {as bs : List α} (h : as.Perm bs)
    (hb : bs.length ≤ 1) : as = bs := by
  match bs, hb with
  | [], _ => exact h.eq_nil
  | [b], _ => exact List.perm_singleton.mp h

/-- Where a call fits one overload at most, the order of the library does not matter. -/
theorem resolveIn_toOption_of_perm {signatures : List Signature} (hp : signatures.Perm library)
    (h : (fits typeArgs argTypes (overloads operator shape)).length ≤ 1) :
    (resolveIn signatures operator shape typeArgs argTypes).toOption =
      (resolve operator shape typeArgs argTypes).toOption := by
  rw [resolve_eq_resolveIn, resolveIn, resolveIn, firstFit_toOption, firstFit_toOption]
  exact congrArg List.head? (eq_of_perm_of_length_le_one ((hp.filter _).filterMap _) h)

/-- Of different signatures of which a call fits one at most there is one at most that it fits. -/
theorem length_filterMap_le_one {α β : Type} {f : α → Option β} {as : List α} (hnodup : as.Nodup)
    (h : ∀ a ∈ as, ∀ b ∈ as, (f a).isSome = true → (f b).isSome = true → a = b) :
    (as.filterMap f).length ≤ 1 := by
  induction as with
  | nil => exact Nat.zero_le 1
  | cons a as ih =>
      obtain ⟨ha, hnodup⟩ := List.nodup_cons.mp hnodup
      cases hfa : f a with
      | none =>
          rw [List.filterMap_cons_none hfa]
          exact ih hnodup fun b hb c hc =>
            h b (List.mem_cons_of_mem _ hb) c (List.mem_cons_of_mem _ hc)
      | some x =>
          -- nothing after `a` has a value, or it would be `a`
          have hrest : as.filterMap f = [] := by
            rw [List.filterMap_eq_nil_iff]
            intro b hb
            by_contra hfb
            have hab : a = b := h a (List.mem_cons_self ..) b (List.mem_cons_of_mem _ hb)
              (by rw [hfa]; rfl) (Option.isSome_iff_ne_none.mpr hfb)
            exact ha (hab ▸ hb)
          rw [List.filterMap_cons_some hfa, hrest]
          exact Nat.le_refl 1

/-- Of a family of overloads a call fits one at most if it fits no two of them. -/
theorem length_fits_map_le_one {members : List Ty} {family : Ty → Signature}
    (hnodup : members.Nodup)
    (h : ∀ n ∈ members, ∀ m ∈ members, ∀ r r', (family n).check typeArgs argTypes = .ok r →
      (family m).check typeArgs argTypes = .ok r' → n = m) :
    (fits typeArgs argTypes (members.map family)).length ≤ 1 := by
  rw [fits, List.filterMap_map]
  refine length_filterMap_le_one hnodup ?_
  intro n hn m hm hfit hfit'
  obtain ⟨r, hr⟩ := check_of_fit? hfit
  obtain ⟨r', hr'⟩ := check_of_fit? hfit'
  exact h n hn m hm r r' hr hr'

/-! ### Operators with one overload in a shape -/

/-- All but sums and means have one overload in each shape. -/
theorem length_overloads_le_one (h : operator.isNumeric = false) (shape : Shape) :
    (overloads operator shape).length ≤ 1 := by
  let single : List Signature := library.filter fun s => !s.operator.isNumeric
  let form : Signature → Operator × Shape := fun s => (s.operator, s.shape)
  have hnodup : (single.map form).Nodup := by decide
  calc (overloads operator shape).length
      = library.countP fun s => s.operator == operator && s.shape == shape :=
        List.countP_eq_length_filter.symm
    _ = single.countP fun s => s.operator == operator && s.shape == shape := by
        rw [List.countP_filter]
        refine List.countP_congr fun s _ => ?_
        cases hs : s.operator == operator with
        | true => rw [beq_iff_eq.mp hs, h, Bool.not_false, Bool.and_true]
        | false => rw [Bool.false_and, Bool.false_and]
    _ = (single.map form).count (operator, shape) := by
        rw [List.count, List.countP_map]
        rfl
    _ ≤ 1 := List.nodup_iff_count_le_one.mp hnodup _

/-! ### Sums and means -/

/-- The overload of a sum or a mean of the elements, for one type of numbers. -/
def total (operator : Operator) (n : Ty) : Signature :=
  ⟨operator, .none, 0, [.query (.concrete n)], .concrete ((operator.totalType n).getD n)⟩

/-- That overload with the type of a call that fits it. -/
def totalFit (operator : Operator) (n : Ty) : Signature × Ty :=
  (total operator n, (operator.totalType n).getD n)

/-- The overload of a sum or a mean of what a function returns, for one type of numbers. -/
def totalOf (operator : Operator) (n : Ty) : Signature :=
  ⟨operator, .selector, 1, [.query typeT, .function [typeT] (.concrete n)],
    .concrete ((operator.totalType n).getD n)⟩

/-- The first argument is a source of elements of the type. -/
def SourceOf (t : Ty) (argTypes : List Ty) : Prop :=
  argTypes.head? = some (.query t) ∨ argTypes.head? = some (.orderedQuery t)

/-- The arguments that stand where the overloads take functions are functions. -/
def FunctionsGiven (operator : Operator) (shape : Shape) (argTypes : List Ty) : Prop :=
  ∀ s ∈ overloads operator shape, ∀ (i : Nat) (params : List TypePattern) (result : TypePattern),
    s.params[i]? = some (.function params result) → ∀ t, argTypes[i]? = some t →
      ∃ given returns, t = .function given returns

/-- A sum or a mean of the elements of an ordered source whose elements are all null. -/
def TotalOfNulls (operator : Operator) (shape : Shape) (typeArgs argTypes : List Ty) : Prop :=
  (operator = .sum ∨ operator = .average) ∧ shape = .none ∧ typeArgs = [] ∧
    argTypes = [.orderedQuery .null]

section Total

variable {n r : Ty}

/-- A call that fits such an overload has one argument, which may stand for a query of its
numbers. -/
theorem argument_of_total (h : (total operator n).check typeArgs argTypes = .ok r) :
    typeArgs = [] ∧ ∃ a, argTypes = [a] ∧ a.assignable (.query n) = true := by
  refine ⟨List.length_eq_zero_iff.mp (length_eq_of_check h), ?_⟩
  obtain ⟨hargs, -⟩ := check_eq_ok h
  cases hargs with
  | cons ha hrest =>
      cases hrest
      obtain ⟨e, he, ha⟩ := ha
      cases he
      exact ⟨_, rfl, ha⟩

/-- A source of elements that are not all null stands for a query of one type of numbers. -/
theorem eq_element_of_total (hn : n ∈ numbers) (hsource : SourceOf t argTypes)
    (hnull : ¬ TotalOfNulls operator .none typeArgs argTypes)
    (hop : operator = .sum ∨ operator = .average)
    (h : (total operator n).check typeArgs argTypes = .ok r) : n = t := by
  obtain ⟨rfl, a, rfl, ha⟩ := argument_of_total h
  rcases hsource with hsource | hsource
  · cases hsource
    exact (Ty.query_assignable_iff.mp ha).symm
  · cases hsource
    have ht : t ≠ .null := by
      rintro rfl
      exact hnull ⟨hop, rfl, rfl, rfl⟩
    exact (Source.eq_of_reads_number ht hn (Ty.orderedQuery_assignable_iff.mp ha)).symm

theorem second_of_totalOf (h : (totalOf operator n).check typeArgs argTypes = .ok r) :
    ∃ f, argTypes[1]? = some f := by
  obtain ⟨hargs, -⟩ := check_eq_ok h
  have hlength : argTypes.length = 2 := hargs.length_eq.symm
  exact ⟨_, List.getElem?_eq_getElem (by omega)⟩

/-- A function fits the overload for the numbers that it returns. -/
theorem eq_returns_of_totalOf {given : List Ty} {returns : Ty}
    (hfunction : argTypes[1]? = some (.function given returns))
    (h : (totalOf operator n).check typeArgs argTypes = .ok r) : n = returns := by
  obtain ⟨hargs, -⟩ := check_eq_ok h
  cases hargs with
  | cons _ hargs =>
      cases hargs with
      | cons hf hargs =>
          cases hfunction
          obtain ⟨e, he, hf⟩ := hf
          simp only [typeT, instantiate?, instantiateAll?, Option.bind_eq_bind, Option.pure_def,
            Option.bind_some, Option.bind_eq_some_iff, Option.some.injEq] at he
          obtain ⟨_, _, rfl⟩ := he
          exact (Ty.function_assignable_iff.mp hf).2.symm

/-- Without a function nothing is asked of the arguments. -/
theorem functionsGiven_total (hop : operator = .sum ∨ operator = .average) (a : Ty) :
    FunctionsGiven operator .none [a] := by
  rw [FunctionsGiven, overloads_total hop]
  rintro s hs (_ | i) params result hp t ht
  · obtain ⟨n, -, rfl⟩ := List.mem_map.mp hs
    cases hp
  · cases ht

end Total

/-- With one exception a call fits at most one overload. -/
theorem length_fits_le_one (hsource : SourceOf t argTypes)
    (hfunctions : FunctionsGiven operator shape argTypes)
    (hnull : ¬ TotalOfNulls operator shape typeArgs argTypes) :
    (fits typeArgs argTypes (overloads operator shape)).length ≤ 1 := by
  cases hn : operator.isNumeric with
  | false => exact (List.length_filterMap_le ..).trans (length_overloads_le_one hn shape)
  | true =>
      have hop : operator = .sum ∨ operator = .average := by
        cases operator <;> first | exact .inl rfl | exact .inr rfl | cases hn
      have hnumbers : numbers.Nodup := by decide
      cases shape
      case none =>
        rw [overloads_total hop]
        refine length_fits_map_le_one hnumbers ?_
        intro n hn m hm r r' hr hr'
        exact (eq_element_of_total hn hsource hnull hop hr).trans
          (eq_element_of_total hm hsource hnull hop hr').symm
      case selector =>
        rw [FunctionsGiven, overloads_totalOf hop] at hfunctions
        rw [overloads_totalOf hop]
        refine length_fits_map_le_one hnumbers ?_
        intro n hn m _ r r' hr hr'
        obtain ⟨f, hf⟩ := second_of_totalOf hr
        obtain ⟨given, returns, rfl⟩ := hfunctions _ (List.mem_map_of_mem hn) 1 _ _ rfl f hf
        exact (eq_returns_of_totalOf hf hr).trans (eq_returns_of_totalOf hf hr').symm
      all_goals rcases hop with rfl | rfl <;> exact Nat.zero_le 1

/-- **With one exception a call fits at most one overload**, so that the order of the library does
not matter.  The nulls of an ordered source are added up by the overloads of all numbers that may be
missing, of which the first is taken. -/
theorem unambiguous (operator : Operator) (shape : Shape) (typeArgs argTypes : List Ty) (t : Ty)
    (hsource : SourceOf t argTypes) (hfunctions : FunctionsGiven operator shape argTypes) :
    (¬ TotalOfNulls operator shape typeArgs argTypes →
      (fits typeArgs argTypes (overloads operator shape)).length ≤ 1 ∧
      ∀ signatures : List Signature, signatures.Perm library →
        (resolveIn signatures operator shape typeArgs argTypes).toOption =
          (resolve operator shape typeArgs argTypes).toOption) ∧
    (TotalOfNulls operator shape typeArgs argTypes →
      fits typeArgs argTypes (overloads operator shape) =
        [totalFit operator (.nullable .int), totalFit operator (.nullable .long),
          totalFit operator (.nullable .double)] ∧
      resolve operator shape typeArgs argTypes = .ok (totalFit operator (.nullable .int))) := by
  constructor
  · intro hnull
    have hone := length_fits_le_one hsource hfunctions hnull
    exact ⟨hone, fun _ hp => resolveIn_toOption_of_perm hp hone⟩
  · rintro ⟨hop, rfl, rfl, rfl⟩
    rcases hop with rfl | rfl <;> exact ⟨rfl, rfl⟩

/-- A sum of what a function makes of nulls is decided by the function, by the library in reverse as
well; a sum of the nulls themselves is not. -/
theorem unambiguous_nulls :
    let numbered := [Ty.orderedQuery .null, .function [.null] (.nullable .long)]
    let nulls := [Ty.orderedQuery .null]
    (fits [.null] numbered (overloads .sum .selector)).length ≤ 1 ∧
      (resolveIn library.reverse .sum .selector [.null] numbered).toOption =
        some (totalOf .sum (.nullable .long), .nullable .long) ∧
      resolve .sum .none [] nulls = .ok (totalFit .sum (.nullable .int)) := by
  intro numbered nulls
  have hnumbered : FunctionsGiven .sum .selector numbered := by
    rw [FunctionsGiven, overloads_totalOf (.inl rfl)]
    rintro s hs (_ | _ | i) params result hp t ht
    · obtain ⟨n, -, rfl⟩ := List.mem_map.mp hs
      cases hp
    · cases ht
      exact ⟨_, _, rfl⟩
    · cases ht
  have hnulls : FunctionsGiven .sum .none nulls := functionsGiven_total (.inl rfl) _
  have hother : ¬ TotalOfNulls .sum .selector [.null] numbered := by
    rintro ⟨-, hshape, -⟩
    cases hshape
  obtain ⟨hone, horder⟩ :=
    (unambiguous .sum .selector [.null] numbered .null (.inr rfl) hnumbered).1 hother
  refine ⟨hone, (horder library.reverse (List.reverse_perm library)).trans rfl, ?_⟩
  exact ((unambiguous .sum .none [] nulls .null (.inr rfl) hnulls).2 ⟨.inl rfl, rfl, rfl, rfl⟩).2

/-- A sum of the nulls of an ordered source fits three overloads, and the order of the library
decides which type it has. -/
theorem ambiguous_nulls :
    let nulls := [Ty.orderedQuery .null]
    SourceOf .null nulls ∧ FunctionsGiven .sum .none nulls ∧
      (fits [] nulls (overloads .sum .none)).length = 3 ∧
      library.reverse.Perm library ∧
      (resolve .sum .none [] nulls).toOption.map (·.2) = some (.nullable .int) ∧
      (resolveIn library.reverse .sum .none [] nulls).toOption.map (·.2) =
        some (.nullable .double) := by
  intro nulls
  exact ⟨.inr rfl, functionsGiven_total (.inl rfl) _, rfl, List.reverse_perm library, rfl, rfl⟩

end Signature

end LambdaQuery
