/-
**Reading what was written.**  A term that is written by the table of levels, with any parentheses
beyond those that the table asks for, is read back as it was, from any spelling of its tokens.

Main definitions:
* `Term.Settles` — a reading that comes to one result once it may be nested deeply enough;
* `Term.power`, `Term.stop` — the powers that stand for a level of the table: the least one of the
  operators inside a term, and one above all that may follow it;
* `Term.Follows` — what may follow an operand: no operator that would bind it tighter, and neither
  `(` nor `=>`;
* `Term.Opens` — what a term may start with, so that no look-ahead mistakes it;
* `Term.Reads` — **the invariant of the reader**: it comes to a term and goes on behind it.

Main results:
* `Term.continuation_of_follows` — an operand ends before what may follow it;
* `Term.Written.opens` — no term starts like the parameters of a lambda or a named member;
* `Term.Written.reads` — the invariant holds of all that is written, by induction on how;
* `Term.Written.unique` — **tokens write one term only**;
* `Term.parse_of_written` — **every spelling of a written term is read as the term**;
* `Term.parse_write` — **reading undoes writing**.

A text is read from an operand on: what has been read goes to `Term.continuation`, which takes the
operators behind it.  The left operand of an operator is therefore read before the operator is
known, and the invariant speaks of the continuation behind a term rather than of the term alone.
-/

import LambdaQuery.Proofs.TermWriting
import LambdaQuery.Term.Parser

namespace LambdaQuery

namespace Term

open Reading Tokens

/-! ### Deep enough -/

/-- The reading comes to `r` wherever it may be nested `n` levels deep. -/
def Settles {α : Type} (n : Nat) (f : Nat → Reading α) (r : Reading α) : Prop :=
  ∀ d, n ≤ d → f d = r

namespace Settles

variable {α : Type} {f : Nat → Reading α} {r : Reading α} {m n : Nat}

theorem mono (h : Settles n f r) (hn : n ≤ m) : Settles m f r := by
  intro d hd
  exact h d (Nat.le_trans hn hd)

theorem const (r : Reading α) : Settles n (fun _ => r) r := fun _ _ => rfl

/-- A reading that spends a level before it goes on. -/
theorem succ (h : Settles n (fun d => f (d + 1)) r) : Settles (n + 1) f r := by
  intro d hd
  cases d with
  | zero => omega
  | succ d => exact h d (by omega)

/-- A reading that goes on with what another one has read. -/
theorem andThen {β : Type} {a : α} {rest : Tokens} {g : Nat → α → Tokens → Reading β}
    {r : Reading β} (hf : Settles m f (ok a rest)) (hg : Settles n (fun d => g d a rest) r) :
    Settles (max m n) (fun d => (f d).andThen (g d)) r := by
  intro d hd
  change (f d).andThen (g d) = r
  rw [hf d (by omega)]
  exact hg d (by omega)

end Settles

/-! ### Tokens to the end of their text -/

@[simp] theorem ready_ofList (ts : List Token) : (ofList ts).ready = .ok (ofList ts) := by
  cases ts <;> rfl

@[simp] theorem after_ofList {α : Type} (ts : List Token) (f : Tokens → Reading α) :
    after (ofList ts) f = f (ofList ts) := by
  simp [after]

@[simp] theorem after_more {α : Type} (t : Token) (rest : Tokens) (f : Tokens → Reading α) :
    after (more t rest) f = f (more t rest) := rfl

@[simp] theorem expectSign_ofList {α : Type} (s : Sign) (ts : List Token) (f : Tokens → Reading α) :
    expectSign s (ofList (.sign s :: ts)) f = f (ofList ts) := by
  simp [expectSign, ofList]

@[simp] theorem expectName_ofList {α : Type} (text : String) (ts : List Token)
    (f : String → Tokens → Reading α) :
    expectName (ofList (.name text :: ts)) f = f text (ofList ts) := by
  simp [expectName, ofList]

/-! ### Levels as powers -/

/-- The power of the loosest operator in a term of a level. -/
def power : Nat → Nat
  | 0 => 0
  | 1 => 4
  | 2 => 6
  | 3 => 10
  | 4 => 20
  | 5 => 30
  | 6 => 35
  | 7 => 40
  | 8 => 50
  | _ => 70

/-- The power that no operator behind a term of a level may reach. -/
def stop : Nat → Nat
  | 0 => 0
  | 1 => 3
  | 2 => 5
  | 3 => 11
  | 4 => 21
  | 5 => 31
  | 6 => 36
  | 7 => 41
  | 8 => 51
  | 9 => Sign.leadingPower
  | _ => 71

theorem power_mono {k m : Nat} (h : k ≤ m) : power k ≤ power m := by
  induction h with
  | refl => exact Nat.le_refl _
  | @step m _ ih =>
      refine Nat.le_trans ih ?_
      match m with
      | 0 | 1 | 2 | 3 | 4 | 5 | 6 | 7 | 8 => decide
      | _ + 9 => exact Nat.le_refl _

theorem stop_mono {k m : Nat} (h : k ≤ m) : stop k ≤ stop m := by
  induction h with
  | refl => exact Nat.le_refl _
  | @step m _ ih =>
      refine Nat.le_trans ih ?_
      match m with
      | 0 | 1 | 2 | 3 | 4 | 5 | 6 | 7 | 8 | 9 => decide
      | _ + 10 => exact Nat.le_refl _

/-- An operator binds its left operand with the power of its level, and its right one so that it
stops where the level does. -/
theorem power?_sign (op : BinaryOp) : op.sign.power? = some (power op.level, stop op.level) := by
  cases op <;> rfl

theorem level_le_leftLevel (op : BinaryOp) : op.level ≤ op.leftLevel := by
  cases op <;> decide

theorem level_le_rightLevel (op : BinaryOp) : op.level ≤ op.rightLevel := by
  cases op <;> decide

theorem power_lt_stop_leftLevel (op : BinaryOp) : power op.level < stop op.leftLevel := by
  cases op <;> decide

theorem stop_le_power_rightLevel (op : BinaryOp) : stop op.level ≤ power op.rightLevel := by
  cases op <;> decide

/-! ### What may follow -/

/-- May the sign follow an operand that is read with a power?  It neither binds the operand tighter
nor makes a call or a lambda of it. -/
def follows (p : Nat) (s : Sign) : Bool :=
  s != .leftParen && s != .arrow && s.power?.all fun power => power.1 < p

/-- What may follow an operand that is read with a power. -/
def Follows (p : Nat) : List Token → Prop
  | .sign s :: _ => follows p s = true
  | _ => True

theorem Follows.mono {p q : Nat} {rest : List Token} (h : Follows p rest) (hpq : p ≤ q) :
    Follows q rest := by
  unfold Follows at h ⊢
  split
  · next s _ =>
    simp only [follows, Bool.and_eq_true] at h ⊢
    refine ⟨h.1, ?_⟩
    cases hs : s.power? with
    | none => rfl
    | some powers =>
        have hp := h.2
        simp only [hs, Option.all_some, decide_eq_true_eq] at hp ⊢
        omega
  · trivial

theorem Follows.sign {p : Nat} {s : Sign} (h : follows p s = true) (rest : List Token) :
    Follows p (.sign s :: rest) := h

theorem Follows.op {p : Nat} {op : BinaryOp} (h : power op.level < p) (rest : List Token) :
    Follows p (.sign op.sign :: rest) := by
  have hs : op.sign ≠ .leftParen ∧ op.sign ≠ .arrow := by cases op <;> decide
  simp [Follows, follows, hs, power?_sign, h]

/-- **An operand ends before what may follow it.** -/
theorem continuation_of_follows {p : Nat} {rest : List Token} (h : Follows p rest) (d : Nat)
    (t : Term) : continuation (d + 1) p t (ofList rest) = ok t (ofList rest) := by
  match rest, h with
  | [], _ => simp [continuation, ofList]
  | .sign s :: rest, h =>
      simp only [Follows, follows, Bool.and_eq_true] at h
      cases hs : s.power? with
      | none => simp [continuation, ofList, hs]
      | some powers =>
          have hp := h.2
          simp only [hs, Option.all_some, decide_eq_true_eq] at hp
          simp [continuation, ofList, hs, hp]
  | .string _ :: _, _ | .integer _ :: _, _ | .long _ :: _, _ | .float _ :: _, _ | .name _ :: _, _
  | .positional _ :: _, _ | .named _ :: _, _ | .keyword _ :: _, _ => simp [continuation, ofList]

/-! ### What a term starts with -/

/-- What a term may start with: neither with a closing sign nor as the parameters of a lambda or a
named member would. -/
inductive Opens : List Token → Prop
  | name (text : String) : Opens [.name text]
  | nameSign {s : Sign} (text : String) (hs : s ≠ .comma ∧ s ≠ .rightParen ∧ s ≠ .assign)
      (ts : List Token) : Opens (.name text :: .sign s :: ts)
  | sign {s : Sign} (hs : s ≠ .rightParen ∧ s ≠ .rightBrace) (ts : List Token) :
      Opens (.sign s :: ts)
  | other {t : Token} (hn : ∀ text, t ≠ .name text) (hs : ∀ s, t ≠ .sign s) (ts : List Token) :
      Opens (t :: ts)

theorem Opens.append_sign {ts : List Token} {s : Sign} (h : Opens ts)
    (hs : s ≠ .comma ∧ s ≠ .rightParen ∧ s ≠ .assign) (us : List Token) :
    Opens (ts ++ .sign s :: us) := by
  cases h with
  | name text => exact .nameSign text hs us
  | nameSign text hs' ts => exact .nameSign text hs' _
  | sign hs' ts => exact .sign hs' _
  | other hn hs' ts => exact .other hn hs' _

theorem sign_opens (op : BinaryOp) :
    op.sign ≠ .comma ∧ op.sign ≠ .rightParen ∧ op.sign ≠ .assign := by
  cases op <;> decide

/-- Arguments start with their parenthesis, so that no name before them is a parameter. -/
theorem Arguments.opens_call {args : List Term} {us : List Token} (h : Arguments args us)
    (method : String) : Opens (.name method :: us) := by
  cases h with
  | none => exact .nameSign _ (by decide) _
  | some _ => exact .nameSign _ (by decide) _

theorem unary_opens (op : UnaryOp) (ts : List Token) : Opens (.sign op.sign :: ts) := by
  cases op <;> exact .sign (by decide) _

mutual

/-- **No term starts like the parameters of a lambda or a named member.** -/
theorem Written.opens : ∀ {k : Nat} {t : Term} {ts : List Token}, Written k t ts → Opens ts
  | _, _, _, .bare _ h => h.opens
  | _, _, _, .parens _ => .sign (by decide) _

theorem Bare.opens : ∀ {t : Term} {ts : List Token}, Bare t ts → Opens ts
  | _, _, .name _ => .name _
  | _, _, .string _ | _, _, .integer _ | _, _, .long _ | _, _, .true | _, _, .false | _, _, .null
  | _, _, .positional _ | _, _, .named _ => .other (by simp) (by simp) _
  | _, _, .member _ h => h.opens.append_sign (by decide) _
  | _, _, .call _ ha => ha.opens_call _
  | _, _, .methodCall _ ht _ => ht.opens.append_sign (by decide) _
  | _, _, .binary hl _ => hl.opens.append_sign (sign_opens _) _
  | _, _, .unary _ => unary_opens _ _
  | _, _, .cond ht _ _ => ht.opens.append_sign (by decide) _
  | _, _, .arrow _ _ => .nameSign _ (by decide) _
  | _, _, .lambda _ _ => .sign (by decide) _
  | _, _, .record _ | _, _, .recordInBraces _ => .other (by simp) (by simp) _

end

/-- Do the tokens start with something other than a closing sign? -/
def Starts (ts : List Token) : Prop :=
  ∃ u us, ts = u :: us ∧ u ≠ .sign .rightParen ∧ u ≠ .sign .rightBrace

theorem Starts.append {ts : List Token} (h : Starts ts) (us : List Token) : Starts (ts ++ us) := by
  obtain ⟨u, vs, rfl, hu⟩ := h
  exact ⟨u, vs ++ us, rfl, hu⟩

theorem Opens.starts {ts : List Token} (h : Opens ts) : Starts ts := by
  cases h with
  | name text => exact ⟨_, _, rfl, by simp⟩
  | nameSign text => exact ⟨_, _, rfl, by simp⟩
  | sign hs => exact ⟨_, _, rfl, by simpa using hs⟩
  | other hn hs => exact ⟨_, _, rfl, hs _, hs _⟩

theorem Listed.starts {terms : List Term} {ts : List Token} (h : Listed terms ts) : Starts ts := by
  cases h with
  | one h => exact h.opens.starts
  | more h _ => exact h.opens.starts.append _

theorem Member.starts {m : Option String × Term} {ts : List Token} (h : Member m ts) :
    Starts ts := by
  cases h with
  | assigned text h => exact ⟨_, _, rfl, by simp⟩
  | renamed text h => exact h.opens.starts.append _
  | unnamed _ h => exact h.opens.starts

theorem Members.starts {members : List (Option String × Term)} {ts : List Token}
    (h : Members members ts) : Starts ts := by
  cases h with
  | one h => exact h.starts
  | more h _ => exact h.starts.append _

/-! ### Look-ahead -/

theorem arrow?_of_follows {p : Nat} {rest : List Token} (h : Follows p rest) :
    arrow? (ofList rest) = .ok none := by
  unfold arrow?
  split
  · next hr =>
    match rest, hr with
    | .sign .arrow :: _, _ => exact absurd h (by simp [Follows, follows])
  · rfl

theorem arrow?_arrow (rest : List Token) :
    arrow? (ofList (.sign .arrow :: rest)) = .ok (some (ofList rest)) := by
  change (ofList rest).ready.map some = _
  rw [ready_ofList]
  rfl

theorem lambdaNames?_last (text : String) (ts : List Token) :
    lambdaNames? (ofList (.name text :: .sign .rightParen :: ts)) =
      (arrow? (ofList ts)).map fun found => found.map fun rest => ([text], rest) := by
  change ((ofList ts).ready >>= fun rest => (arrow? rest) >>= fun found =>
    Except.ok (found.map fun rest => ([text], rest))) = _
  rw [ready_ofList]
  rfl

theorem lambdaNames?_comma (text : String) (ts : List Token) :
    lambdaNames? (ofList (.name text :: .sign .comma :: ts)) =
      (lambdaNames? (ofList ts)).map fun found =>
        found.map fun (names, rest) => (text :: names, rest) := by
  change ((ofList ts).ready >>= fun _ => lambdaNames? (ofList ts) >>= fun found =>
    Except.ok (found.map fun (names, rest) => (text :: names, rest))) = _
  rw [ready_ofList]
  rfl

theorem lambdaHead?_empty (ts : List Token) :
    lambdaHead? (ofList (.sign .rightParen :: ts)) =
      (arrow? (ofList ts)).map fun found => found.map fun rest => ([], rest) := by
  change ((ofList ts).ready >>= fun rest => (arrow? rest) >>= fun found =>
    Except.ok (found.map fun rest => ([], rest))) = _
  rw [ready_ofList]
  rfl

/-- A term between parentheses is not taken for the parameters of a lambda. -/
theorem lambdaHead?_of_opens {ts rest : List Token} {p : Nat} (h : Opens ts) (hr : Follows p rest) :
    lambdaHead? (ofList (ts ++ .sign .rightParen :: rest)) = .ok none := by
  cases h with
  | name text =>
      -- one name between parentheses: what decides is the token behind them
      have head : lambdaHead? (ofList ([.name text] ++ .sign .rightParen :: rest)) =
          lambdaNames? (ofList (.name text :: .sign .rightParen :: rest)) := rfl
      rw [head, lambdaNames?_last, arrow?_of_follows hr]
      rfl
  | @nameSign s text hs us => cases s <;> first | rfl | exact absurd hs (by decide)
  | @sign s hs us => cases s <;> first | rfl | exact absurd hs (by decide)
  | @other t hn hs us => cases t <;> first | rfl | exact absurd rfl (hn _) | exact absurd rfl (hs _)

/-- Only `=` behind a name makes a named member of it. -/
theorem memberHead?_of_opens {ts rest : List Token} (h : Opens ts) (hr : Follows 0 rest) :
    memberHead? (ofList (ts ++ rest)) = .ok none := by
  cases h with
  | name text =>
      match rest, hr with
      | [], _ => rfl
      | t :: rest, hr =>
          cases t with
          | sign s =>
              cases s <;>
                first | rfl | exact absurd hr (by simp [Follows, follows, Sign.power?])
          | _ => rfl
  | @nameSign s text hs us => cases s <;> first | rfl | exact absurd hs (by decide)
  | sign => rfl
  | @other t hn hs us => cases t <;> first | rfl | exact absurd rfl (hn _)

theorem lambdaNames?_nameTokens {names : List String} (hne : names ≠ []) (rest : List Token) :
    lambdaNames? (ofList (nameTokens names ++ .sign .rightParen :: .sign .arrow :: rest)) =
      .ok (some (names, ofList rest)) := by
  fun_induction nameTokens names with
  | case1 => exact absurd rfl hne
  | case2 text =>
      rw [List.cons_append, List.nil_append, lambdaNames?_last, arrow?_arrow]
      rfl
  | case3 text next names ih =>
      rw [List.cons_append, List.cons_append, lambdaNames?_comma, ih (by simp)]
      rfl

/-- The parameters of a lambda are read back, and what follows the arrow. -/
theorem lambdaHead?_nameTokens (names : List String) (rest : List Token) :
    lambdaHead? (ofList (nameTokens names ++ .sign .rightParen :: .sign .arrow :: rest)) =
      .ok (some (names, ofList rest)) := by
  match names with
  | [] =>
      rw [nameTokens, List.nil_append, lambdaHead?_empty, arrow?_arrow]
      rfl
  | [text] => exact lambdaNames?_nameTokens (by simp) rest
  | text :: next :: names => exact lambdaNames?_nameTokens (by simp) rest

/-! ### The invariant of the reader -/

/-- An operand is read from its first token on, whatever the power asked. -/
def ReadsAsOperand (p : Nat) (t : Term) (ts : List Token) : Prop :=
  ∀ ⦃rest : List Token⦄, Follows p rest →
    Settles (8 * ts.length) (fun d => primary d (ofList (ts ++ rest))) (ok t (ofList rest))

/-- **The invariant of the reader**: where a level is asked for, the reader comes to the term and
goes on behind it, with eight levels of nesting spent for each token. -/
def Reads (k : Nat) (t : Term) (ts : List Token) : Prop :=
  ∀ ⦃p e : Nat⦄ ⦃rest : List Token⦄ ⦃r : Reading Term⦄, p ≤ power k → Follows (stop k) rest →
    Settles e (fun d => continuation d p t (ofList rest)) r →
    Settles (e + 8 * ts.length + 1) (fun d => expression d p (ofList (ts ++ rest))) r

theorem ReadsAsOperand.reads {k : Nat} {t : Term} {ts : List Token}
    (h : ReadsAsOperand (stop k) t ts) : Reads k t ts := by
  intro p e rest r _ hr hc
  refine (Settles.succ ?_).mono (n := max (8 * ts.length) e + 1) (by omega)
  simp only [expression]
  exact (h hr).andThen hc

namespace Reads

variable {k m p : Nat} {t : Term} {ts rest : List Token}

theorem mono (h : Reads m t ts) (hk : k ≤ m) : Reads k t ts := by
  intro p e rest r hp hr hc
  exact h (Nat.le_trans hp (power_mono hk)) (hr.mono (stop_mono hk)) hc

/-- A whole expression ends where nothing goes on with it. -/
theorem whole (h : Reads k t ts) (hp : p ≤ power k) (hs : p ≤ stop k) (hr : Follows p rest) :
    Settles (8 * ts.length + 2) (fun d => expression d p (ofList (ts ++ rest)))
      (ok t (ofList rest)) := by
  have hc : Settles 1 (fun d => continuation d p t (ofList rest)) (ok t (ofList rest)) := by
    refine Settles.succ (n := 0) ?_
    simp only [continuation_of_follows hr]
    exact .const _
  exact (h hp (hr.mono hs) hc).mono (by omega)

theorem alone (h : Reads Level.any t ts) (hr : Follows 0 rest) :
    Settles (8 * ts.length + 2) (fun d => expression d 0 (ofList (ts ++ rest)))
      (ok t (ofList rest)) :=
  h.whole (Nat.zero_le _) (Nat.zero_le _) hr

end Reads

/-! ### Operators -/

theorem continuation_binary {op : BinaryOp} {p : Nat} (hp : p ≤ power op.level) (d : Nat)
    (lhs : Term) (rest : List Token) :
    continuation (d + 1) p lhs (ofList (.sign op.sign :: rest)) =
      (expression d (stop op.level) (ofList rest)).andThen fun rhs rest =>
        continuation d p (binary op lhs rhs) rest := by
  have hlt : ¬power op.level < p := Nat.not_lt.mpr hp
  rw [ofList, continuation]
  simp only [power?_sign, hlt, if_false, after_ofList]
  cases op <;> rfl

theorem Reads.binary {op : BinaryOp} {lhs rhs : Term} {ts us : List Token}
    (hl : Reads op.leftLevel lhs ts) (hr : Reads op.rightLevel rhs us) :
    Reads op.level (.binary op lhs rhs) (ts ++ .sign op.sign :: us) := by
  intro p e rest r hp hf hc
  have hrhs := hr.whole (stop_le_power_rightLevel op) (stop_mono (level_le_rightLevel op)) hf
  -- the right operand stops where the level does, and the whole goes on behind it
  have hop : Settles (max (8 * us.length + 2) e + 1)
      (fun d => continuation d p lhs (ofList (.sign op.sign :: (us ++ rest)))) r := by
    refine Settles.succ ?_
    simp only [continuation_binary hp]
    exact hrhs.andThen hc
  have h := hl (Nat.le_trans hp (power_mono (level_le_leftLevel op)))
    (Follows.op (power_lt_stop_leftLevel op) _) hop
  rw [List.append_assoc, List.cons_append]
  refine h.mono ?_
  simp only [List.length_append, List.length_cons]
  omega

theorem continuation_question {p : Nat} (hp : p ≤ power Level.choice) (d : Nat) (test : Term)
    (rest : List Token) :
    continuation (d + 1) p test (ofList (.sign .question :: rest)) =
      (expression d 0 (ofList rest)).andThen fun ifTrue rest =>
        expectSign .colon rest fun rest =>
          (expression d (stop Level.choice) rest).andThen fun ifFalse rest =>
            continuation d p (cond test ifTrue ifFalse) rest := by
  have hlt : ¬power Level.choice < p := Nat.not_lt.mpr hp
  have hs : Sign.power? .question = some (power Level.choice, stop Level.choice) := rfl
  rw [ofList, continuation]
  simp only [hs, hlt, if_false, after_ofList]

theorem Reads.cond {test ifTrue ifFalse : Term} {ts us vs : List Token}
    (ht : Reads (Level.choice + 1) test ts) (hu : Reads Level.choice ifTrue us)
    (hv : Reads Level.choice ifFalse vs) :
    Reads Level.choice (.cond test ifTrue ifFalse)
      (ts ++ .sign .question :: (us ++ .sign .colon :: vs)) := by
  intro p e rest r hp hf hc
  -- the first branch stands between two signs, so that nothing in it can bind too loosely
  have hcolon : Follows 0 (.sign .colon :: (vs ++ rest)) := .sign (by decide) _
  have hfirst := hu.whole (Nat.zero_le _) (Nat.zero_le _) hcolon
  have hsecond := hv.whole (p := stop Level.choice) (by decide) (Nat.le_refl _) hf
  have hq : Settles (max (8 * us.length + 2) (max (8 * vs.length + 2) e) + 1)
      (fun d => continuation d p test
        (ofList (.sign .question :: (us ++ .sign .colon :: (vs ++ rest))))) r := by
    refine Settles.succ ?_
    simp only [continuation_question hp]
    refine hfirst.andThen ?_
    simp only [expectSign_ofList]
    exact hsecond.andThen hc
  have hquestion : Follows (stop (Level.choice + 1))
      (.sign .question :: (us ++ .sign .colon :: (vs ++ rest))) := .sign (by decide) _
  have h := ht (Nat.le_trans hp (power_mono (Nat.le_succ _))) hquestion hq
  simp only [List.append_assoc, List.cons_append]
  refine h.mono ?_
  simp only [List.length_append, List.length_cons]
  omega

/-- An operator before an operand takes members and calls along, and no operator between two. -/
theorem ReadsAsOperand.unary {op : UnaryOp} {operand : Term} {ts : List Token}
    (h : Reads Level.leading operand ts) :
    ReadsAsOperand (stop Level.leading) (.unary op operand) (.sign op.sign :: ts) := by
  intro rest hr
  have hoperand := h.whole (p := Sign.leadingPower) (by decide) (by decide) hr
  have hsign : Settles (max (8 * ts.length + 2) 0)
      (fun d => (expression d Sign.leadingPower (ofList (ts ++ rest))).andThen fun operand rest =>
        ok (Term.unary op operand) rest) (ok (Term.unary op operand) (ofList rest)) :=
    hoperand.andThen (.const _)
  refine (Settles.succ ?_).mono (n := max (8 * ts.length + 2) 0 + 1) ?_
  · cases op
    · simp only [List.cons_append, ofList, UnaryOp.sign, primary, after_ofList]
      exact hsign
    · simp only [List.cons_append, ofList, UnaryOp.sign, primary, after_ofList]
      exact hsign
  · simp only [List.length_cons]
    omega

/-! ### Parentheses and lambdas -/

theorem ReadsAsOperand.parens {p : Nat} {t : Term} {ts : List Token} (ho : Opens ts)
    (h : Reads Level.any t ts) :
    ReadsAsOperand p t (.sign .leftParen :: (ts ++ [.sign .rightParen])) := by
  intro rest hr
  -- a parenthesis ends whatever is read without a power
  have hclose : Follows 0 (.sign .rightParen :: rest) := .sign (by decide) _
  have hinner := h.alone hclose
  refine (Settles.succ ?_).mono (n := max (8 * ts.length + 2) 0 + 1) ?_
  · simp only [List.cons_append, List.append_assoc, List.nil_append, ofList, primary, after_ofList,
      lambdaHead?_of_opens ho hr]
    refine hinner.andThen ?_
    simp only [expectSign_ofList]
    exact .const _
  · simp only [List.length_cons, List.length_append]
    omega

theorem ReadsAsOperand.arrow {body : Term} {ts : List Token} (text : String)
    (h : Reads Level.any body ts) :
    ReadsAsOperand (stop Level.any) (.lambda [text] body) (.name text :: .sign .arrow :: ts) := by
  intro rest hr
  have hbody := h.alone hr
  refine (Settles.succ ?_).mono (n := max (8 * ts.length + 2) 0 + 1) ?_
  · simp only [List.cons_append, ofList, primary, after_more, after_ofList]
    exact hbody.andThen (.const _)
  · simp only [List.length_cons]
    omega

theorem ReadsAsOperand.lambda {body : Term} {ts : List Token} (names : List String)
    (h : Reads Level.any body ts) :
    ReadsAsOperand (stop Level.any) (.lambda names body)
      (.sign .leftParen :: (nameTokens names ++ .sign .rightParen :: .sign .arrow :: ts)) := by
  intro rest hr
  have hbody := h.alone hr
  refine (Settles.succ ?_).mono (n := max (8 * ts.length + 2) 0 + 1) ?_
  · simp only [List.cons_append, List.append_assoc, ofList, primary, after_ofList,
      lambdaHead?_nameTokens]
    exact hbody.andThen (.const _)
  · simp only [List.length_cons, List.length_append]
    omega

/-! ### Names, members and calls -/

theorem primary_name {p : Nat} {rest : List Token} (hr : Follows p rest) (d : Nat) (text : String) :
    primary (d + 1) (ofList (.name text :: rest)) = ok (.name text) (ofList rest) := by
  simp only [ofList, primary, after_ofList]
  match rest, hr with
  | [], _ => rfl
  | t :: rest, hr =>
      cases t with
      | sign s => cases s <;> first | rfl | exact absurd hr (by simp [Follows, follows])
      | _ => rfl

theorem continuation_member {p q : Nat} {rest : List Token} (hp : p ≤ power Level.operand)
    (hr : Follows q rest) (d : Nat) (target : Term) (text : String) :
    continuation (d + 1) p target (ofList (.sign .dot :: .name text :: rest)) =
      continuation d p (member target text) (ofList rest) := by
  have hlt : ¬power Level.operand < p := Nat.not_lt.mpr hp
  have hs : Sign.power? .dot = some (power Level.operand, stop Level.operand) := rfl
  rw [ofList, continuation]
  simp only [hs, hlt, if_false, after_ofList, expectName_ofList]
  match rest, hr with
  | [], _ => rfl
  | t :: rest, hr =>
      cases t with
      | sign s => cases s <;> first | rfl | exact absurd hr (by simp [Follows, follows])
      | _ => rfl

theorem continuation_methodCall {p : Nat} (hp : p ≤ power Level.operand) (d : Nat) (target : Term)
    (method : String) (rest : List Token) :
    continuation (d + 1) p target
        (ofList (.sign .dot :: .name method :: .sign .leftParen :: rest)) =
      (arguments d (ofList (.sign .leftParen :: rest))).andThen fun args rest =>
        continuation d p (call (some target) method args) rest := by
  have hlt : ¬power Level.operand < p := Nat.not_lt.mpr hp
  have hs : Sign.power? .dot = some (power Level.operand, stop Level.operand) := rfl
  rw [ofList, continuation]
  simp only [hs, hlt, if_false, after_ofList, expectName_ofList]
  rfl

/-- Arguments are read from the opening parenthesis to the closing one. -/
def ReadsAsArguments (args : List Term) (us : List Token) : Prop :=
  ∃ vs, us = .sign .leftParen :: vs ∧ ∀ rest,
    Settles (8 * us.length) (fun d => arguments d (ofList (us ++ rest))) (ok args (ofList rest))

/-- Terms with commas between them are read up to a closing parenthesis. -/
def ReadsAsList (terms : List Term) (ts : List Token) : Prop :=
  ∀ rest, Settles (8 * ts.length + 3)
    (fun d => argumentList d (ofList (ts ++ .sign .rightParen :: rest)))
    (ok terms (ofList (.sign .rightParen :: rest)))

theorem Reads.member {target : Term} {ts : List Token} (text : String)
    (h : Reads Level.operand target ts) :
    Reads Level.operand (.member target text) (ts ++ [.sign .dot, .name text]) := by
  intro p e rest r hp hf hc
  have hdot : Settles (e + 1)
      (fun d => continuation d p target (ofList (.sign .dot :: .name text :: rest))) r := by
    refine Settles.succ ?_
    simp only [continuation_member hp hf]
    exact hc
  have ht := h hp (Follows.sign (by decide) _) hdot
  simp only [List.append_assoc, List.cons_append, List.nil_append]
  refine ht.mono ?_
  simp only [List.length_append, List.length_cons, List.length_nil]
  omega

theorem ReadsAsOperand.call {p : Nat} {args : List Term} {us : List Token} (method : String)
    (ha : ReadsAsArguments args us) :
    ReadsAsOperand p (.call none method args) (.name method :: us) := by
  intro rest _
  obtain ⟨vs, rfl, ha⟩ := ha
  have hargs := ha rest
  refine (Settles.succ ?_).mono (n := max (8 * (vs.length + 1)) 0 + 1) ?_
  · simp only [List.cons_append, ofList, primary, after_more] at hargs ⊢
    exact hargs.andThen (.const _)
  · simp only [List.length_cons]
    omega

theorem Reads.methodCall {target : Term} {args : List Term} {ts us : List Token} (method : String)
    (h : Reads Level.operand target ts) (ha : ReadsAsArguments args us) :
    Reads Level.operand (.call (some target) method args)
      (ts ++ .sign .dot :: .name method :: us) := by
  intro p e rest r hp hf hc
  obtain ⟨vs, rfl, ha⟩ := ha
  have hdot : Settles (max (8 * (vs.length + 1)) e + 1)
      (fun d => continuation d p target
        (ofList (.sign .dot :: .name method :: .sign .leftParen :: (vs ++ rest)))) r := by
    refine Settles.succ ?_
    simp only [continuation_methodCall hp]
    exact (ha rest).andThen hc
  have ht := h hp (Follows.sign (by decide) _) hdot
  simp only [List.append_assoc, List.cons_append]
  refine ht.mono ?_
  simp only [List.length_append, List.length_cons]
  omega

theorem ReadsAsList.one {t : Term} {ts : List Token} (h : Reads Level.any t ts) :
    ReadsAsList [t] ts := by
  intro rest
  have hend : Follows 0 (.sign .rightParen :: rest) := .sign (by decide) _
  have ht := h.alone hend
  refine (Settles.succ ?_).mono (n := max (8 * ts.length + 2) 0 + 1) (by omega)
  simp only [argumentList]
  exact ht.andThen (.const _)

theorem ReadsAsList.more {t : Term} {terms : List Term} {ts us : List Token}
    (h : Reads Level.any t ts) (hs : ReadsAsList terms us) :
    ReadsAsList (t :: terms) (ts ++ .sign .comma :: us) := by
  intro rest
  have hcomma : Follows 0 (.sign .comma :: (us ++ .sign .rightParen :: rest)) :=
    .sign (by decide) _
  have ht := h.alone hcomma
  have hrest := (hs rest).andThen (g := fun _ args rest => ok (t :: args) rest) (.const (n := 0) _)
  refine (Settles.succ ?_).mono (n := max (8 * ts.length + 2) (max (8 * us.length + 3) 0) + 1) ?_
  · simp only [argumentList, List.append_assoc, List.cons_append]
    refine ht.andThen ?_
    simp only [ofList, after_ofList]
    exact hrest
  · simp only [List.length_append, List.length_cons]
    omega

theorem ReadsAsArguments.none : ReadsAsArguments [] [.sign .leftParen, .sign .rightParen] := by
  refine ⟨_, rfl, fun rest => ?_⟩
  refine (Settles.succ (n := 0) ?_).mono (by simp)
  simp only [arguments, List.cons_append, expectSign_ofList]
  simp only [List.nil_append, ofList, after_ofList]
  exact .const _

/-- Terms that do not start with a closing parenthesis are read as arguments. -/
theorem ReadsAsArguments.some {args : List Term} {ts : List Token} (hs : Starts ts)
    (h : ReadsAsList args ts) :
    ReadsAsArguments args (.sign .leftParen :: (ts ++ [.sign .rightParen])) := by
  refine ⟨_, rfl, fun rest => ?_⟩
  have hlist := (h rest).andThen
    (g := fun _ args rest => expectSign .rightParen rest (ok args)) (.const (n := 0) _)
  refine (Settles.succ ?_).mono (n := max (8 * ts.length + 3) 0 + 1) ?_
  · simp only [arguments, List.cons_append, List.append_assoc, List.nil_append, expectSign_ofList]
    rw [expectSign_ofList] at hlist
    obtain ⟨u, us, rfl, hp, -⟩ := hs
    cases u with
    | sign s => cases s <;> first | exact hlist | exact absurd rfl hp
    | _ => exact hlist
  · simp only [List.length_cons, List.length_append]
    omega

/-! ### Members of `new` -/

/-- A sign that ends a member of `new`. -/
def EndsMember (s : Sign) : Prop := s = .comma ∨ s = .rightParen ∨ s = .rightBrace

theorem EndsMember.follows {s : Sign} (h : EndsMember s) (rest : List Token) :
    Follows 0 (.sign s :: rest) := by
  rcases h with rfl | rfl | rfl <;> exact .sign (by decide) _

/-- The signs that the members of `new` may stand between. -/
inductive Brackets : Sign → Sign → Prop
  | round : Brackets .leftParen .rightParen
  | curly : Brackets .leftBrace .rightBrace

theorem Brackets.endsMember {opening close : Sign} (h : Brackets opening close) :
    EndsMember close := by
  cases h with
  | round => exact .inr (.inl rfl)
  | curly => exact .inr (.inr rfl)

/-- A member is read up to the sign that ends it. -/
def ReadsAsMember (m : Option String × Term) (ts : List Token) : Prop :=
  ∀ ⦃s : Sign⦄ (rest : List Token), EndsMember s →
    Settles (8 * ts.length + 3) (fun d => memberTerm d (ofList (ts ++ .sign s :: rest)))
      (ok m (ofList (.sign s :: rest)))

/-- Members with commas between them are read up to the closing sign. -/
def ReadsAsMembers (members : List (Option String × Term)) (ts : List Token) : Prop :=
  ∀ ⦃opening close : Sign⦄ (rest : List Token), Brackets opening close →
    Settles (8 * ts.length + 4) (fun d => memberList d (ofList (ts ++ .sign close :: rest)))
      (ok members (ofList (.sign close :: rest)))

theorem ReadsAsMember.assigned {value : Term} {ts : List Token} (text : String)
    (h : Reads Level.any value ts) :
    ReadsAsMember (some text, value) (.name text :: .sign .assign :: ts) := by
  intro s rest hs
  have hvalue := h.alone (hs.follows rest)
  have hhead : memberHead? (ofList (.name text :: .sign .assign :: (ts ++ .sign s :: rest))) =
      .ok (some (text, ofList (ts ++ .sign s :: rest))) := by
    change ((ofList (ts ++ .sign s :: rest)).ready >>= fun rest =>
      Except.ok (some (text, rest))) = _
    rw [ready_ofList]
    rfl
  refine (Settles.succ ?_).mono (n := max (8 * ts.length + 2) 0 + 1) ?_
  · simp only [List.cons_append, memberTerm, hhead]
    exact hvalue.andThen (.const _)
  · simp only [List.length_cons]
    omega

theorem ReadsAsMember.renamed {value : Term} {ts : List Token} (text : String) (ho : Opens ts)
    (h : Reads Level.any value ts) :
    ReadsAsMember (some text, value) (ts ++ [.keyword .asWord, .name text]) := by
  intro s rest hs
  have has : Follows 0 (.keyword .asWord :: .name text :: .sign s :: rest) := trivial
  have hvalue := h.alone has
  refine (Settles.succ ?_).mono (n := max (8 * ts.length + 2) 0 + 1) ?_
  · simp only [List.append_assoc, List.cons_append, List.nil_append, memberTerm,
      memberHead?_of_opens ho has]
    refine hvalue.andThen ?_
    simp only [ofList, after_more, expectName]
    exact .const _
  · simp only [List.length_append, List.length_cons]
    omega

theorem ReadsAsMember.unnamed {value : Term} {ts : List Token}
    (hn : value.memberName?.isSome = true) (ho : Opens ts) (h : Reads Level.any value ts) :
    ReadsAsMember (none, value) ts := by
  intro s rest hs
  have hvalue := h.alone (hs.follows rest)
  refine (Settles.succ ?_).mono (n := max (8 * ts.length + 2) 0 + 1) (by omega)
  simp only [memberTerm, memberHead?_of_opens ho (hs.follows rest)]
  refine hvalue.andThen ?_
  simp only [ofList, hn, if_true]
  exact .const _

theorem ReadsAsMembers.one {m : Option String × Term} {ts : List Token} (h : ReadsAsMember m ts) :
    ReadsAsMembers [m] ts := by
  intro opening close rest hb
  have hm := h rest hb.endsMember
  refine (Settles.succ ?_).mono (n := max (8 * ts.length + 3) 0 + 1) (by omega)
  simp only [memberList]
  refine hm.andThen ?_
  cases hb <;> exact .const _

theorem ReadsAsMembers.more {m : Option String × Term} {members : List (Option String × Term)}
    {ts us : List Token} (h : ReadsAsMember m ts) (hs : ReadsAsMembers members us) :
    ReadsAsMembers (m :: members) (ts ++ .sign .comma :: us) := by
  intro opening close rest hb
  have hm := h (us ++ .sign close :: rest) (.inl rfl)
  have hrest := (hs rest hb).andThen (g := fun _ members rest => ok (m :: members) rest)
    (.const (n := 0) _)
  refine (Settles.succ ?_).mono (n := max (8 * ts.length + 3) (max (8 * us.length + 4) 0) + 1) ?_
  · simp only [memberList, List.append_assoc, List.cons_append]
    refine hm.andThen ?_
    simp only [ofList, after_ofList]
    exact hrest
  · simp only [List.length_append, List.length_cons]
    omega

theorem recordBody_of_starts {ts : List Token} (h : Starts ts) {opening close : Sign}
    (hb : Brackets opening close) (d : Nat) :
    recordBody (d + 1) close (ofList ts) =
      (memberList d (ofList ts)).andThen fun members rest =>
        expectSign close rest (ok (.record members)) := by
  -- an empty list of members is told by a closing sign at its start
  obtain ⟨u, us, rfl, hround, hcurly⟩ := h
  cases u with
  | sign s =>
      have hs : s ≠ close := by
        rintro rfl
        cases hb with
        | round => exact hround rfl
        | curly => exact hcurly rfl
      simp [ofList, recordBody, hs]
  | _ => simp [ofList, recordBody]

theorem recordBody_settles {members : List (Option String × Term)} {ts : List Token}
    (hs : Starts ts) (h : ReadsAsMembers members ts) {opening close : Sign}
    (hb : Brackets opening close) (rest : List Token) :
    Settles (8 * ts.length + 5) (fun d => recordBody d close (ofList (ts ++ .sign close :: rest)))
      (ok (.record members) (ofList rest)) := by
  refine (Settles.succ ?_).mono (n := max (8 * ts.length + 4) 0 + 1) (by omega)
  simp only [recordBody_of_starts (hs.append _) hb]
  refine (h rest hb).andThen ?_
  simp only [expectSign_ofList]
  exact .const _

theorem ReadsAsOperand.record {p : Nat} {opening closing : Sign} (hb : Brackets opening closing)
    {members : List (Option String × Term)} {ts : List Token} (hs : Starts ts)
    (h : ReadsAsMembers members ts) :
    ReadsAsOperand p (.record members)
      (.keyword .newWord :: .sign opening :: (ts ++ [.sign closing])) := by
  intro rest _
  have hbody := recordBody_settles hs h hb rest
  refine (Settles.succ (Settles.succ ?_)).mono (n := 8 * ts.length + 5 + 1 + 1) ?_
  · cases hb <;>
      simp only [List.cons_append, List.append_assoc, List.nil_append, ofList, primary, recordTerm,
        after_more, after_ofList] <;>
      exact hbody
  · simp only [List.length_cons, List.length_append]
    omega

/-! ### All that is written is read -/

/-- A token that is a term on its own. -/
theorem ReadsAsOperand.token {p : Nat} {t : Term} {u : Token}
    (h : ∀ d rest, primary (d + 1) (ofList (u :: rest)) = ok t (ofList rest)) :
    ReadsAsOperand p t [u] := by
  intro rest _
  refine (Settles.succ (n := 0) ?_).mono (by simp)
  simp only [List.cons_append, List.nil_append, h]
  exact .const _

theorem ReadsAsOperand.name {p : Nat} (text : String) :
    ReadsAsOperand p (.name text) [.name text] := by
  intro rest hr
  refine (Settles.succ (n := 0) ?_).mono (by simp)
  simp only [List.cons_append, List.nil_append, primary_name hr]
  exact .const _

mutual

/-- **The invariant of the reader holds of all that is written.** -/
theorem Written.reads : ∀ {k : Nat} {t : Term} {ts : List Token}, Written k t ts → Reads k t ts
  | _, _, _, .bare hk h => h.reads.mono hk
  | _, _, _, .parens h => (ReadsAsOperand.parens h.opens h.reads).reads

theorem Bare.reads : ∀ {t : Term} {ts : List Token}, Bare t ts → Reads t.level t ts
  | _, _, .string _ | _, _, .integer _ | _, _, .long _ | _, _, .true | _, _, .false | _, _, .null
  | _, _, .positional _ | _, _, .named _ =>
    (ReadsAsOperand.token fun _ _ => by simp [ofList, primary]).reads
  | _, _, .name text => (ReadsAsOperand.name text).reads
  | _, _, .member text h => .member text h.reads
  | _, _, .call method ha => (ReadsAsOperand.call method ha.reads).reads
  | _, _, .methodCall method ht ha => .methodCall method ht.reads ha.reads
  | _, _, .binary hl hr => .binary hl.reads hr.reads
  | _, _, .unary h => (ReadsAsOperand.unary h.reads).reads
  | _, _, .cond ht hu hv => .cond ht.reads hu.reads hv.reads
  | _, _, .arrow text h => (ReadsAsOperand.arrow text h.reads).reads
  | _, _, .lambda names h => (ReadsAsOperand.lambda names h.reads).reads
  | _, _, .record h => (ReadsAsOperand.record .round h.starts h.reads).reads
  | _, _, .recordInBraces h => (ReadsAsOperand.record .curly h.starts h.reads).reads

theorem Arguments.reads : ∀ {args : List Term} {us : List Token}, Arguments args us →
    ReadsAsArguments args us
  | _, _, .none => .none
  | _, _, .some h => .some h.starts h.reads

theorem Listed.reads : ∀ {terms : List Term} {ts : List Token}, Listed terms ts →
    ReadsAsList terms ts
  | _, _, .one h => .one h.reads
  | _, _, .more h hs => .more h.reads hs.reads

theorem Members.reads : ∀ {members : List (Option String × Term)} {ts : List Token},
    Members members ts → ReadsAsMembers members ts
  | _, _, .one h => .one h.reads
  | _, _, .more h hs => .more h.reads hs.reads

theorem Member.reads : ∀ {m : Option String × Term} {ts : List Token}, Member m ts →
    ReadsAsMember m ts
  | _, _, .assigned text h => .assigned text h.reads
  | _, _, .renamed text h => .renamed text h.opens h.reads
  | _, _, .unnamed hn h => .unnamed hn h.opens h.reads

end

theorem length_ofList (ts : List Token) : (ofList ts).length = ts.length := by
  induction ts with
  | nil => rfl
  | cons t ts ih => rw [ofList, Tokens.length, ih, List.length_cons]

/-- A written term is read to the end of its tokens. -/
theorem Written.settles {t : Term} {ts : List Token} (h : Written Level.any t ts) :
    Settles (8 * ts.length + 2) (fun d => expression d 0 (ofList ts)) (ok t done) := by
  have hend : Follows 0 [] := trivial
  have hread := h.reads.alone hend
  rwa [List.append_nil] at hread

/-- **Tokens write one term only.** -/
theorem Written.unique {t u : Term} {ts : List Token} (ht : Written Level.any t ts)
    (hu : Written Level.any u ts) : t = u := by
  have h := (ht.settles _ (Nat.le_refl _)).symm.trans (hu.settles _ (Nat.le_refl _))
  simpa [ok] using h

/-- **Every spelling of a written term is read as the term.** -/
theorem parse_of_written {t : Term} {ts : List Token} {text : String}
    (h : Written Level.any t ts) (hs : Spells text.toList ts) : parse text = .ok t := by
  have htokens : ofText text = ofList ts := ofChars_of_spells hs
  -- the nesting that the reader allows is not used up
  have hdepth : 8 * ts.length + 2 ≤ depthFor ts.length := by
    simp only [depthFor]
    omega
  have hread := h.settles (depthFor ts.length) hdepth
  simp only [parse, htokens, length_ofList, after_ofList, hread]
  rfl

/-- **Reading undoes writing**: a term that has a text is read from its text with no more
parentheses than the table asks for, and from every text that writes it, with any parentheses,
either form of a lambda's parameters and of a record's members, and any spelling of its tokens. -/
theorem parse_write {t : Term} (h : t.Writable) :
    parse t.write = .ok t ∧
      ∀ (ts : List Token) (text : String), Written Level.any t ts → Spells text.toList ts →
        parse text = .ok t := by
  refine ⟨parse_of_written h.bare.written ?_, fun ts text hw hs => parse_of_written hw hs⟩
  rw [write, String.toList_ofList]
  exact spells_write t.tokens h.tokens

theorem parse_write_price :
    let t := lambda ["o"] (.binary .multiply
      (.binary .add (.member (.name "o") "Tax") (.integer 10))
      (.unary .negate (.call (some (.name "o")) "Price" [])))
    t.write = "o => ( o . Tax + 10 ) * - o . Price ( )" ∧
      parse "o => ( o . Tax + 10 ) * - o . Price ( )" = .ok t := by
  have h := parse_write (t := lambda ["o"] (.binary .multiply
      (.binary .add (.member (.name "o") "Tax") (.integer 10))
      (.unary .negate (.call (some (.name "o")) "Price" []))))
    (.lambda (by decide) (.binary _ (.binary _ (.member (.name (by decide)) (by decide))
      (.integer (by decide))) (.unary _ (.methodCall (.name (by decide)) (by decide) (by simp)))))
  exact ⟨by decide, h.1⟩

end Term

end LambdaQuery
