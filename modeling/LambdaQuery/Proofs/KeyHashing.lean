/-
**Values are lawful keys.**  A table that finds its keys by hashes looks only at some of them, and
yet it behaves as if it looked at all if equal keys have equal hashes and the equality is one.  The
equality and the data for the hash are two recursions over values; they agree where it matters, in
doubles as well, whose two zeros and whose NaNs give the same data.

With this a table of keys holds the distinct ones in the order in which they came, and a table of
groups is the one that `Collection.groupPairs` makes, whatever the hash is and whatever else the
search compares.

Main definitions:
* `HashSearch.Lawful` — what the tables of a search hold.

Main results:
* `Double.hashBits_eq_of_same` — equal doubles have the same bits for their hash;
* `Value.sameSharing_eq` — values that share their storage need not be looked into;
* `Value.hashParts_eq_of_same` — **equal values give the same data to a hash**;
* `HashSearch.isSome_find?` — a search finds a key if there is one;
* `HashSearch.lawful` — **the tables of every search are ordered sets and maps**;
* `Value.lawful_keys` — both together with the laws of the equality.
-/

import LambdaQuery.Collection.Table
import LambdaQuery.Proofs.Joining

namespace LambdaQuery

/-! ### Doubles -/

/-- Equal doubles have the same bits for their hash, whether they are one, zeros or NaNs. -/
theorem Double.hashBits_eq_of_same {x y : Double} (h : same x y = true) :
    hashBits x = hashBits y := by
  have hzero : unpack 0.0 = .zero .positive := rfl
  rcases same_iff.mp h with hone | ⟨⟨s, hx⟩, t, hy⟩
  · cases hx : x.isNaN with
    | false => rw [eq_of_unpack hx hone]
    | true =>
        have hy : y.isNaN = true := by rwa [isNaN_iff, ← hone, ← isNaN_iff]
        -- as numbers they equal nothing, so both have the bits that stand for all NaNs
        have hne : ∀ z : Double, z.isNaN = true → z.equals 0.0 = false := by
          intro z hz
          rw [← Bool.not_eq_true, equals_iff, hz]
          simp
        rw [hashBits, hashBits, hne x hx, hne y hy, hx, hy]
        rfl
  · have heq : ∀ (z : Double) s, z.unpack = .zero s → z.equals 0.0 = true := by
      intro z s hz
      refine equals_iff.mpr ⟨?_, .inr ⟨⟨s, hz⟩, _, hzero⟩⟩
      rw [← Bool.not_eq_true, isNaN_iff, hz]
      exact nofun
    rw [hashBits, hashBits, heq x s hx, heq y t hy]
    rfl

/-! ### Values -/

namespace Value

mutual

/-- Equal values give the same data to a hash. -/
theorem hashParts_eq_of_same : ∀ {a b : Value}, a.same b = true → a.hashParts = b.hashParts
  | a, b => by
    intro h
    cases a <;> cases b <;> simp only [same, Bool.false_eq_true] at h
    case null.null => rfl
    case double.double => simp only [hashParts, Double.hashBits_eq_of_same h]
    case sequence.sequence =>
      obtain ⟨hlength, hparts⟩ := hashPartsAll_eq_of_same h
      simp only [hashParts, hlength, hparts]
    case record.record =>
      -- that the types are equal as well does not matter
      obtain ⟨hlength, hparts⟩ := hashPartsAll_eq_of_same (Bool.and_eq_true _ _ ▸ h).2
      simp only [hashParts, hlength, hparts]
    case grouping.grouping =>
      rw [Bool.and_eq_true] at h
      obtain ⟨hlength, hparts⟩ := hashPartsAll_eq_of_same h.2
      simp only [hashParts, hashParts_eq_of_same h.1, hlength, hparts]
    all_goals rw [beq_iff_eq.mp h]

theorem hashPartsAll_eq_of_same : ∀ {as bs : List Value}, sameAll as bs = true →
    as.length = bs.length ∧ hashPartsAll as = hashPartsAll bs
  | [], [] => fun _ => ⟨rfl, rfl⟩
  | [], _ :: _ | _ :: _, [] => fun h => by cases h
  | a :: as, b :: bs => fun h => by
    rw [sameAll, Bool.and_eq_true] at h
    obtain ⟨hlength, hparts⟩ := hashPartsAll_eq_of_same h.2
    exact ⟨congrArg (· + 1) hlength, by
      rw [hashPartsAll, hashPartsAll, hashParts_eq_of_same h.1, hparts]⟩

end

/-- What is one in storage is one value, and so the same. -/
theorem shared_or_same {shared : Value → Value → Bool}
    (hshared : ∀ a b : Value, shared a b = true → a = b) (a b : Value) :
    (shared a b || a.same b) = a.same b := by
  cases h : shared a b with
  | false => rfl
  | true => rw [hshared a b h, same_self, Bool.true_or]

mutual

/-- Whether values share their storage makes no difference to their equality. -/
theorem sameSharing_eq {shared : Value → Value → Bool}
    (hshared : ∀ a b : Value, shared a b = true → a = b) :
    ∀ a b : Value, a.sameSharing shared b = a.same b
  | a, b => by
    cases a <;> cases b <;> try rfl
    case sequence.sequence as bs =>
      rw [sameSharing, sameSharingAll_eq hshared as bs]
      exact shared_or_same hshared (sequence as) (sequence bs)
    case record.record s as t bs =>
      rw [sameSharing, sameSharingAll_eq hshared as bs]
      exact shared_or_same hshared (record s as) (record t bs)
    case grouping.grouping j as k bs =>
      rw [sameSharing, sameSharing_eq hshared j k, sameSharingAll_eq hshared as bs]
      exact shared_or_same hshared (grouping j as) (grouping k bs)

theorem sameSharingAll_eq {shared : Value → Value → Bool}
    (hshared : ∀ a b : Value, shared a b = true → a = b) :
    ∀ as bs : List Value, sameSharingAll shared as bs = sameAll as bs
  | [], [] | [], _ :: _ | _ :: _, [] => rfl
  | a :: as, b :: bs => by
    rw [sameSharingAll, sameAll, sameSharing_eq hshared a b, sameSharingAll_eq hshared as bs]

end

end Value

/-! ### Tables -/

namespace Collection

variable {key element : Value} {groups : Groups} {i : Nat} {group : Value × List Value}

/-- An element with a new key makes a group of its own at the end. -/
theorem addToGroup_of_not_contains (h : contains (groups.map (·.1)) key = false) :
    addToGroup key element groups = groups ++ [(key, [element])] := by
  induction groups with
  | nil => rfl
  | cons group groups ih =>
      rw [List.map_cons, contains, List.any_cons, Bool.or_eq_false_iff] at h
      rw [addToGroup, if_neg (Bool.not_eq_true _ ▸ h.1), ih h.2, List.cons_append]

/-- In a table whose keys are all different an element goes to the one group whose key equals its
own. -/
theorem addToGroup_of_getElem? (hapart : groups.Pairwise fun g h => g.1.same h.1 = false)
    (hi : groups[i]? = some group) (hkey : group.1.same key = true) :
    addToGroup key element groups =
      groups.modify i fun group => (group.1, group.2 ++ [element]) := by
  induction groups generalizing i with
  | nil => cases hi
  | cons first groups ih =>
      obtain ⟨hfirst, hapart⟩ := List.pairwise_cons.mp hapart
      cases i with
      | zero =>
          cases hi
          rw [addToGroup, if_pos hkey]
          rfl
      | succ i =>
          -- the first key differs from that of the group, and so from the one that equals it
          have hother : first.1.same key = false := by
            rw [Value.same_comm, ← Value.same_congr hkey, Value.same_comm]
            exact hfirst _ (List.mem_of_getElem? hi)
          rw [addToGroup, hother, if_neg Bool.false_ne_true, ih hapart hi]
          rfl

/-- The keys of a table are those of the pairs. -/
theorem contains_groupPairs (pairs : List (Value × Value)) (key : Value) :
    contains ((groupPairs pairs).map (·.1)) key = contains (pairs.map (·.1)) key := by
  rw [groupPairs_eq, List.map_map, ← contains_distinct (pairs.map (·.1))]
  exact congrArg (contains · key) (List.map_id _)

end Collection

namespace HashSearch

open Collection

variable (p : HashSearch) {keys : List Value} {key : Value} {i : Nat}

/-- A key that is found equals the one that is looked for. -/
theorem find?_eq_some (h : p.find? keys key = some i) :
    ∃ k, keys[i]? = some k ∧ k.same key = true := by
  have hi := List.find?_some h
  rwa [Option.any_eq_true] at hi

/-- **A search finds a key if there is one**: equal keys have equal hashes, so that the place of
such a key is among those that are compared. -/
theorem isSome_find? (keys : List Value) (key : Value) :
    (p.find? keys key).isSome = contains keys key := by
  rw [Bool.eq_iff_iff, contains_eq_true]
  constructor
  · intro h
    obtain ⟨i, hi⟩ := Option.isSome_iff_exists.mp h
    obtain ⟨k, hk, hsame⟩ := p.find?_eq_some hi
    exact ⟨k, List.mem_of_getElem? hk, hsame⟩
  · rintro ⟨k, hk, hsame⟩
    obtain ⟨i, hi⟩ := List.mem_iff_getElem?.mp hk
    have hhash : (keys.map p.hashOf)[i]? = some (p.hashOf key) := by
      rw [List.getElem?_map, hi, Option.map_some, hashOf, hashOf, Value.hashParts_eq_of_same hsame]
    rw [find?, List.find?_isSome]
    exact ⟨i, p.complete hhash, by rw [hi]; exact hsame⟩

theorem set_eq (keys : List Value) : p.set keys = distinct keys := by
  induction keys using List.reverseRecOn with
  | nil => rfl
  | append_singleton keys key ih =>
      rw [set, List.foldl_append, ← set, ih, List.foldl_cons, List.foldl_nil, insert, has,
        isSome_find?, contains_distinct, distinct_snoc]
      split
      · rw [List.append_nil]
      · rfl

/-- An element is added to a table of different keys as `addToGroup` does it. -/
theorem push_eq {groups : Groups} (hapart : groups.Pairwise fun g h => g.1.same h.1 = false)
    (key element : Value) : p.push groups key element = addToGroup key element groups := by
  have hsome := p.isSome_find? (groups.map (·.1)) key
  rw [push]
  cases hfind : p.find? (groups.map (·.1)) key with
  | none =>
      rw [hfind] at hsome
      exact (addToGroup_of_not_contains hsome.symm).symm
  | some i =>
      obtain ⟨k, hk, hsame⟩ := p.find?_eq_some hfind
      rw [List.getElem?_map, Option.map_eq_some_iff] at hk
      obtain ⟨group, hgroup, rfl⟩ := hk
      exact (addToGroup_of_getElem? hapart hgroup hsame).symm

theorem groups_eq (pairs : List (Value × Value)) : p.groups pairs = groupPairs pairs := by
  induction pairs using List.reverseRecOn with
  | nil => rfl
  | append_singleton pairs pair ih =>
      obtain ⟨key, element⟩ := pair
      rw [groups, List.foldl_append, ← groups, ih, groupPairs_snoc]
      exact p.push_eq (partition_groupPairs pairs).apart key element

/-- What is looked up in a table of groups is what came with an equal key. -/
theorem get_eq (pairs : List (Value × Value)) (key : Value) :
    p.get (p.groups pairs) key = elementsUnder pairs key := by
  have hsome := p.isSome_find? ((groupPairs pairs).map (·.1)) key
  rw [groups_eq, get]
  cases hfind : p.find? ((groupPairs pairs).map (·.1)) key with
  | none =>
      rw [hfind, contains_groupPairs] at hsome
      exact (elementsUnder_of_not_contains hsome.symm).symm
  | some i =>
      obtain ⟨k, hk, hsame⟩ := p.find?_eq_some hfind
      rw [List.getElem?_map, Option.map_eq_some_iff] at hk
      obtain ⟨group, hgroup, rfl⟩ := hk
      rw [Option.bind_some, hgroup]
      have hmem : group ∈ groupPairs pairs := List.mem_of_getElem? hgroup
      calc group.2 = elementsUnder pairs group.1 :=
            (partition_groupPairs pairs).elements group hmem
        _ = elementsUnder pairs key := elementsUnder_congr hsame

/-- What the tables of a search hold: as sets of keys and as maps from keys to elements they depend
on the equality of keys alone, and they keep the order in which the keys came. -/
structure Lawful : Prop where
  set : ∀ keys : List Value, p.set keys = distinct keys
  /-- A key stands in its place if it equals none that came before it. -/
  set_firsts : ∀ keys : List Value, p.set keys = firsts keys
  has : ∀ (keys : List Value) (key : Value), p.has (p.set keys) key = contains keys key
  union : ∀ a b : List Value, p.set (a ++ b) = union a b
  intersect : ∀ a b : List Value, p.set (a.filter (p.has (p.set b))) = intersect a b
  except : ∀ a b : List Value, p.set (a.filter fun v => !p.has (p.set b) v) = except a b
  groups : ∀ pairs : List (Value × Value), p.groups pairs = groupPairs pairs
  partition : ∀ pairs : List (Value × Value), Partition pairs (p.groups pairs)
  get : ∀ (pairs : List (Value × Value)) (key : Value),
    p.get (p.groups pairs) key = elementsUnder pairs key

/-- **The tables of every search are ordered sets and maps.** -/
theorem lawful : p.Lawful := by
  have hhas : ∀ (keys : List Value) (key : Value), p.has (p.set keys) key = contains keys key := by
    intro keys key
    rw [has, isSome_find?, set_eq, contains_distinct]
  constructor
  case set => exact p.set_eq
  case set_firsts => exact fun keys => (p.set_eq keys).trans (distinct_eq_firsts keys)
  case has => exact hhas
  case union => exact fun a b => p.set_eq (a ++ b)
  case intersect =>
    intro a b
    rw [set_eq, funext (hhas b)]
    rfl
  case except =>
    intro a b
    rw [set_eq, funext (hhas b)]
    rfl
  case groups => exact p.groups_eq
  case partition => exact fun pairs => p.groups_eq pairs ▸ partition_groupPairs pairs
  case get => exact p.get_eq

end HashSearch

namespace Value

/-- **Values are lawful keys.**  Their equality is reflexive, symmetric and transitive, whether or
not it takes note of shared storage; equal values give the same data to a hash; and so the tables of
every search are the sets and maps that the equality determines. -/
theorem lawful_keys :
    (∀ a : Value, a.same a = true) ∧
      (∀ a b : Value, a.same b = true → b.same a = true) ∧
      (∀ a b c : Value, a.same b = true → b.same c = true → a.same c = true) ∧
      (∀ shared : Value → Value → Bool, (∀ a b : Value, shared a b = true → a = b) →
        ∀ a b : Value, a.sameSharing shared b = a.same b) ∧
      (∀ a b : Value, a.same b = true → a.hashParts = b.hashParts) ∧
      ∀ p : HashSearch, p.Lawful := by
  refine ⟨same_self, ?_, ?_, ?_, ?_, HashSearch.lawful⟩
  · intro a b h
    rw [same_comm, h]
  · exact fun a b c => same_trans
  · exact fun shared hshared => sameSharing_eq hshared
  · exact fun a b => hashParts_eq_of_same

/-- Keys that differ in the signs of their zeros and in the bits of their NaNs, within sequences and
records: the first of them stands in a table for all.  Records of identical doubles are taken to be
one in storage. -/
theorem lawful_keys_zeros :
    let nan := double ⟨0x7ff8000000000000⟩
    let minusNaN := double ⟨0xfff8000000000001⟩
    let zero := double ⟨0⟩
    let minusZero := double ⟨0x8000000000000000⟩
    let point : RecordTy := { name := none, fields := [("x", .double), ("y", .double)] }
    let a := grouping zero [sequence [nan, minusZero], record point [minusZero, nan]]
    let b := grouping minusZero [sequence [minusNaN, zero], record point [minusZero, nan]]
    let c := grouping minusZero [sequence [nan, zero], record point [zero, minusNaN]]
    let shared := fun u v : Value => match u, v with
      | record s [double x, double y], record t [double z, double w] =>
        s == t && x == z && y == w
      | _, _ => false
    let p := HashSearch.byTag hash
    a.same a = true ∧ b.same a = true ∧ a.same c = true ∧ a.sameSharing shared b = true ∧
      a.hashParts = b.hashParts ∧ p.set [a, zero, b, minusZero, c] = [a, zero] ∧
      p.get (p.groups [(a, .int 1), (zero, .int 2), (b, .int 3)]) c = [.int 1, .int 3] := by
  intro nan minusNaN zero minusZero point a b c shared p
  obtain ⟨hrefl, hsymm, htrans, hsharing, hparts, htables⟩ := lawful_keys
  have hab : a.same b = true := rfl
  have hbc : b.same c = true := rfl
  have hshared : ∀ u v : Value, shared u v = true → u = v := by
    intro u v h
    simp only [shared] at h
    split at h
    · simp only [Bool.and_eq_true, beq_iff_eq] at h
      rw [h.1.1, h.1.2, h.2]
    · cases h
  refine ⟨hrefl a, hsymm a b hab, htrans a b c hab hbc, ?_, hparts a b hab, ?_, ?_⟩
  · rw [hsharing shared hshared, hab]
  · exact ((htables p).set _).trans rfl
  · exact ((htables p).get _ _).trans rfl

end Value

end LambdaQuery
