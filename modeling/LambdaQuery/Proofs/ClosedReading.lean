/-
**Reading before a closing parenthesis.**  What is read as a whole text is read in the same way as
an argument: a closing parenthesis behind it ends every reading where the end of the text did, and
no look-ahead takes it for something else.

Main definitions:
* `Tokens.closed` — tokens with a closing parenthesis at their end;
* `Tokens.Ready` — the next token can be read, and the text ends as told;
* `Term.Closes` — **the invariant of reading**: where one reading succeeds, the other one succeeds
  with the same result, on the same tokens closed;
* `Term.Steady` — all functions of the reader close, from one nesting allowed to another.

Main results:
* `Term.Steady.succ` — one level of nesting more keeps the functions steady;
* `Term.steady_of_le` — **reading is steady** for every deeper nesting, by induction;
* `Term.parse_eq_ok` — a text that is read has tokens to its end;
* `Term.parse_methodText` — **the text of a method call is read as the call of what its argument is
  read as**.
-/

import LambdaQuery.Proofs.Outcome
import LambdaQuery.Proofs.ParserCorrectness
import LambdaQuery.Proofs.TokenTails

namespace LambdaQuery

namespace Tokens

/-- The tokens with a closing parenthesis at their end. -/
def closed (ts : Tokens) : Tokens := ts.append (more (.sign .rightParen) done)

@[simp] theorem closed_done : done.closed = more (.sign .rightParen) done := rfl

@[simp] theorem closed_more (t : Token) (ts : Tokens) : (more t ts).closed = more t ts.closed := rfl

/-- The next token can be read, and the text ends as told. -/
structure Ready (e : Option SyntaxError) (ts : Tokens) : Prop where
  ready : ts.ready = .ok ts
  ends : ts.error? = e

theorem ready_of_eq_ok {ts us : Tokens} (h : ts.ready = .ok us) :
    us = ts ∧ ts.closed.ready = .ok ts.closed := by
  cases ts with
  | done =>
      cases h
      exact ⟨rfl, rfl⟩
  | broken e => cases h
  | more t ts =>
      cases h
      exact ⟨rfl, rfl⟩

end Tokens

namespace Term

open Reading Tokens

/-! ### The invariant of reading -/

/-- Where the first reading succeeds, so does the second one with the same result, on tokens that
are closed, and what is left can be read on. -/
def Closes {α : Type} (e : Option SyntaxError) (r r' : Reading α) : Prop :=
  ∀ a rest, r = ok a rest → rest.Ready e ∧ r' = ok a rest.closed

namespace Closes

variable {α β : Type} {e : Option SyntaxError} {r r' : Reading α} {tokens rest : Tokens}

theorem ofOk {a : α} (h : rest.Ready e) : Closes e (ok a rest) (ok a rest.closed) := by
  intro a' rest' heq
  cases heq
  exact ⟨h, rfl⟩

theorem ofError {x : SyntaxError} : Closes e (error x) r' := by
  intro a rest h
  cases h

theorem ofNone : Closes e none r' := by
  intro a rest h
  cases h

theorem andThen {f f' : α → Tokens → Reading β} (h : Closes e r r')
    (hf : ∀ a rest, rest.Ready e → Closes e (f a rest) (f' a rest.closed)) :
    Closes e (r.andThen f) (r'.andThen f') := by
  match r, h with
  | some (.ok (a, rest)), h =>
      obtain ⟨hready, rfl⟩ := h a rest rfl
      exact hf a rest hready
  | some (.error x), _ => exact ofError
  | none, _ => exact ofNone

theorem after {f f' : Tokens → Reading α} (h : rest.error? = e)
    (hf : rest.Ready e → Closes e (f rest) (f' rest.closed)) :
    Closes e (after rest f) (Reading.after rest.closed f') := by
  cases rest with
  | done => exact hf ⟨rfl, h⟩
  | broken x => exact ofError
  | more t rest => exact hf ⟨rfl, h⟩

theorem expectSign {s : Sign} {f f' : Tokens → Reading α} (h : tokens.Ready e)
    (hf : ∀ rest, rest.Ready e → Closes e (f rest) (f' rest.closed)) :
    Closes e (expectSign s tokens f) (Term.expectSign s tokens.closed f') := by
  cases tokens with
  | done => exact ofError
  | broken x => exact ofError
  | more t rest =>
      cases t with
      | sign found =>
          rw [closed_more, Term.expectSign, Term.expectSign]
          split
          · exact after h.ends (hf rest)
          · exact ofError
      | _ => exact ofError

theorem expectName {f f' : String → Tokens → Reading α} (h : tokens.Ready e)
    (hf : ∀ text rest, rest.Ready e → Closes e (f text rest) (f' text rest.closed)) :
    Closes e (expectName tokens f) (Term.expectName tokens.closed f') := by
  cases tokens with
  | done => exact ofError
  | broken x => exact ofError
  | more t rest =>
      cases t with
      | name text => exact after h.ends (hf text rest)
      | _ => exact ofError

end Closes

/-! ### Look-ahead -/

section LookAhead

variable {e : Option SyntaxError} {tokens : Tokens}

/-- A look-ahead that succeeds finds the same in tokens that are closed, and what is behind it can
be read on. -/
def FindsClosed {α : Type} (e : Option SyntaxError)
    (r r' : Except SyntaxError (Option (α × Tokens))) : Prop :=
  ∀ found, r = .ok found → r' = .ok (found.map fun (a, rest) => (a, rest.closed)) ∧
    ∀ a rest, found = some (a, rest) → rest.Ready e

namespace FindsClosed

variable {α β : Type} {r r' : Except SyntaxError (Option (α × Tokens))}

theorem nothing :
    FindsClosed e (.ok none : Except SyntaxError (Option (α × Tokens))) (.ok none) := by
  rintro found ⟨⟩
  exact ⟨rfl, by simp⟩

theorem failure {x : SyntaxError} : FindsClosed e (.error x) r' := by
  rintro found ⟨⟩

theorem found {a : α} {rest : Tokens} (h : rest.Ready e) :
    FindsClosed e (.ok (some (a, rest))) (.ok (some (a, rest.closed))) := by
  rintro found ⟨⟩
  refine ⟨rfl, ?_⟩
  rintro a rest ⟨⟩
  exact h

theorem map (h : FindsClosed e r r') (f : α → β) :
    FindsClosed e (r.map fun found => found.map fun (a, rest) => (f a, rest))
      (r'.map fun found => found.map fun (a, rest) => (f a, rest)) := by
  intro found hr
  obtain ⟨found', hfound, rfl⟩ := map_eq_ok.mp hr
  obtain ⟨rfl, hready⟩ := h found' hfound
  cases found' with
  | none => exact ⟨rfl, by simp⟩
  | some p =>
      refine ⟨rfl, ?_⟩
      rintro a rest ⟨⟩
      exact hready _ _ rfl

/-- A look-ahead behind a token that is passed. -/
theorem after {rest : Tokens} {k k' : Tokens → Except SyntaxError (Option (α × Tokens))}
    (h : rest.error? = e) (hk : rest.Ready e → FindsClosed e (k rest) (k' rest.closed)) :
    FindsClosed e (rest.ready >>= k) (rest.closed.ready >>= k') := by
  cases rest with
  | done => exact hk ⟨rfl, h⟩
  | broken x => exact failure
  | more t rest => exact hk ⟨rfl, h⟩

end FindsClosed

theorem arrow?_closed {α : Type} (a : α) (h : tokens.error? = e) :
    FindsClosed e ((arrow? tokens).map fun found => found.map fun rest => (a, rest))
      ((arrow? tokens.closed).map fun found => found.map fun rest => (a, rest)) := by
  have hother : arrow? tokens = .ok none → arrow? tokens.closed = .ok none →
      FindsClosed e ((arrow? tokens).map fun found => found.map fun rest => (a, rest))
        ((arrow? tokens.closed).map fun found => found.map fun rest => (a, rest)) := by
    intro hnone hnone'
    rw [hnone, hnone']
    exact .nothing
  have harrow : ∀ rest : Tokens,
      ((arrow? (more (.sign .arrow) rest)).map fun found => found.map fun rest => (a, rest)) =
        rest.ready >>= fun rest => .ok (some (a, rest)) := by
    intro rest
    cases rest <;> rfl
  cases tokens with
  | done => exact hother rfl rfl
  | broken x => exact hother rfl rfl
  | more t rest =>
      cases t with
      | sign s =>
          cases s with
          | arrow =>
              rw [closed_more, harrow, harrow]
              exact .after h fun hready => .found hready
          | _ => exact hother rfl rfl
      | _ => exact hother rfl rfl

theorem lambdaNames?_closed : ∀ (tokens : Tokens), tokens.error? = e →
    FindsClosed e (lambdaNames? tokens) (lambdaNames? tokens.closed)
  | .done, _ | .broken _, _ => .nothing
  | .more (.name text) .done, _ => .nothing
  | .more (.name text) (.broken x), _ => .failure
  | .more (.name text) (.more t rest), h => by
    cases t with
    | sign s =>
        cases s with
        | comma =>
            exact .after h fun hready => .after hready.ends fun _ =>
              (lambdaNames?_closed rest h).map (text :: ·)
        | rightParen =>
            exact .after h fun hready => .after hready.ends fun hready =>
              arrow?_closed [text] hready.ends
        | _ => exact .nothing
    | _ => exact .nothing
  | .more (.string _) _, _ | .more (.integer _) _, _ | .more (.long _) _, _ | .more (.float _) _, _
  | .more (.positional _) _, _ | .more (.named _) _, _ | .more (.keyword _) _, _
  | .more (.sign _) _, _ => .nothing

theorem lambdaHead?_closed (h : tokens.error? = e) :
    FindsClosed e (lambdaHead? tokens) (lambdaHead? tokens.closed) := by
  cases tokens with
  | done => exact .nothing
  | broken x => exact .nothing
  | more t rest =>
      cases t with
      | sign s =>
          cases s with
          | rightParen => exact .after h fun hready => arrow?_closed [] hready.ends
          | _ => exact .nothing
      | _ => exact lambdaNames?_closed _ h

theorem memberHead?_closed (h : tokens.error? = e) :
    FindsClosed e (memberHead? tokens) (memberHead? tokens.closed) := by
  cases tokens with
  | done => exact .nothing
  | broken x => exact .nothing
  | more t rest =>
      cases t with
      | name text =>
          refine .after h fun hready => ?_
          cases rest with
          | done => exact .nothing
          | broken x => exact .nothing
          | more t rest =>
              cases t with
              | sign s =>
                  cases s with
                  | assign => exact .after hready.ends fun hready => .found hready
                  | _ => exact .nothing
              | _ => exact .nothing
      | _ => exact .nothing

end LookAhead

/-! ### The end of a text -/

/-- The reading does not succeed. -/
def Fails {α : Type} (r : Reading α) : Prop := ∀ a rest, r ≠ ok a rest

namespace Fails

variable {α β : Type} {r : Reading α}

theorem andThen {f : α → Tokens → Reading β} (h : Fails r) : Fails (r.andThen f) := by
  match r, h with
  | some (.ok (a, rest)), h => exact absurd rfl (h a rest)
  | some (.error x), _ => rintro a rest ⟨⟩
  | none, _ => rintro a rest ⟨⟩

theorem closes {e : Option SyntaxError} {r' : Reading α} (h : Fails r) : Closes e r r' :=
  fun a rest hr => absurd hr (h a rest)

end Fails

/-! Nothing is read at the end of a text.  There the closing parenthesis would matter, which ends a
list of arguments or members before its first one. -/

theorem expression_done (d power : Nat) : Fails (expression d power done) := by
  have hprimary : ∀ d, Fails (primary d done) := by
    intro d
    cases d <;> rintro a rest ⟨⟩
  cases d with
  | zero => rintro a rest ⟨⟩
  | succ d => exact (hprimary d).andThen

theorem argumentList_done (d : Nat) : Fails (argumentList d done) := by
  cases d with
  | zero => rintro a rest ⟨⟩
  | succ d => exact (expression_done d 0).andThen

theorem memberList_done (d : Nat) : Fails (memberList d done) := by
  have hmember : ∀ d, Fails (memberTerm d done) := by
    intro d
    cases d with
    | zero => rintro a rest ⟨⟩
    | succ d => exact (expression_done d 0).andThen
  cases d with
  | zero => rintro a rest ⟨⟩
  | succ d => exact (hmember d).andThen

/-! ### One level of nesting -/

/-- All functions of the reader read the same from tokens that are closed, where `d` levels of
nesting are allowed for the tokens and `d'` for those that are closed. -/
structure Steady (d d' : Nat) : Prop where
  expression {e : Option SyntaxError} {tokens : Tokens} (power : Nat) (h : tokens.Ready e) :
    Closes e (expression d power tokens) (expression d' power tokens.closed)
  continuation {e : Option SyntaxError} {tokens : Tokens} (power : Nat) (lhs : Term)
      (h : tokens.Ready e) :
    Closes e (continuation d power lhs tokens) (continuation d' power lhs tokens.closed)
  primary {e : Option SyntaxError} {tokens : Tokens} (h : tokens.Ready e) :
    Closes e (primary d tokens) (primary d' tokens.closed)
  arguments {e : Option SyntaxError} {tokens : Tokens} (h : tokens.Ready e) :
    Closes e (arguments d tokens) (arguments d' tokens.closed)
  argumentList {e : Option SyntaxError} {tokens : Tokens} (h : tokens.Ready e) :
    Closes e (argumentList d tokens) (argumentList d' tokens.closed)
  recordTerm {e : Option SyntaxError} {tokens : Tokens} (h : tokens.Ready e) :
    Closes e (recordTerm d tokens) (recordTerm d' tokens.closed)
  recordBody {e : Option SyntaxError} {tokens : Tokens} (close : Sign) (h : tokens.Ready e) :
    Closes e (recordBody d close tokens) (recordBody d' close tokens.closed)
  memberList {e : Option SyntaxError} {tokens : Tokens} (h : tokens.Ready e) :
    Closes e (memberList d tokens) (memberList d' tokens.closed)
  memberTerm {e : Option SyntaxError} {tokens : Tokens} (h : tokens.Ready e) :
    Closes e (memberTerm d tokens) (memberTerm d' tokens.closed)

namespace Steady

variable {d d' : Nat} {e : Option SyntaxError} {tokens : Tokens}

theorem zero : Steady 0 d' := by
  constructor <;> intros <;> exact Closes.ofNone

/-- Behind a value of a record: the name it is given, or the one that it brings. -/
theorem value_closes (value : Term) (h : tokens.Ready e) :
    Closes e
      (match tokens with
        | .more (.keyword .asWord) rest =>
          after rest fun rest => expectName rest fun text rest => ok (some text, value) rest
        | _ =>
          if value.memberName?.isSome then ok (none, value) tokens else error .unnamedMember)
      (match tokens.closed with
        | .more (.keyword .asWord) rest =>
          after rest fun rest => expectName rest fun text rest => ok (some text, value) rest
        | _ =>
          if value.memberName?.isSome then ok (none, value) tokens.closed
          else error .unnamedMember) := by
  let own (rest : Tokens) : Reading (Option String × Term) :=
    if value.memberName?.isSome then ok (none, value) rest else error .unnamedMember
  have hown : Closes e (own tokens) (own tokens.closed) := by
    dsimp only [own]
    split
    · exact .ofOk h
    · exact .ofError
  cases tokens with
  | done => exact hown
  | broken x => cases h.ready
  | more t rest =>
      cases t with
      | keyword k =>
          cases k with
          | asWord =>
              exact .after h.ends fun hrest => .expectName hrest fun text rest hrest => .ofOk hrest
          | _ => exact hown
      | _ => exact hown

section Step

variable (hs : Steady d d')

include hs

theorem expression_succ (power : Nat) (h : tokens.Ready e) :
    Closes e (Term.expression (d + 1) power tokens)
      (Term.expression (d' + 1) power tokens.closed) := by
  rw [Term.expression, Term.expression]
  exact (hs.primary h).andThen fun lhs rest hrest => hs.continuation power lhs hrest

/-- Behind a name after a point: a call if a parenthesis follows, else a member. -/
theorem dot_closes (power : Nat) (lhs : Term) (text : String) (h : tokens.Ready e) :
    Closes e
      (match tokens with
        | .more (.sign .leftParen) _ =>
          (Term.arguments d tokens).andThen fun args rest =>
            Term.continuation d power (call (some lhs) text args) rest
        | _ => Term.continuation d power (member lhs text) tokens)
      (match tokens.closed with
        | .more (.sign .leftParen) _ =>
          (Term.arguments d' tokens.closed).andThen fun args rest =>
            Term.continuation d' power (call (some lhs) text args) rest
        | _ => Term.continuation d' power (member lhs text) tokens.closed) := by
  have hmember := hs.continuation power (member lhs text) h
  cases tokens with
  | done => exact hmember
  | broken x => cases h.ready
  | more t rest =>
      cases t with
      | sign s =>
          cases s with
          | leftParen =>
              exact (hs.arguments h).andThen fun args rest hrest => hs.continuation power _ hrest
          | _ => exact hmember
      | _ => exact hmember

/-- Behind the sign of an operator, if it is one: the right operand, and what goes on after it. -/
theorem operator_closes (power right : Nat) (lhs : Term) (s : Sign) (h : tokens.Ready e) :
    Closes e
      (match s.binaryOp? with
        | some op => (Term.expression d right tokens).andThen fun rhs rest =>
            Term.continuation d power (binary op lhs rhs) rest
        | none => error (.unexpectedToken (.sign s)))
      (match s.binaryOp? with
        | some op => (Term.expression d' right tokens.closed).andThen fun rhs rest =>
            Term.continuation d' power (binary op lhs rhs) rest
        | none => error (.unexpectedToken (.sign s))) := by
  cases s.binaryOp? with
  | none => exact .ofError
  | some op =>
      exact (hs.expression right h).andThen fun rhs rest hrest => hs.continuation power _ hrest

theorem continuation_succ (power : Nat) (lhs : Term) (h : tokens.Ready e) :
    Closes e (Term.continuation (d + 1) power lhs tokens)
      (Term.continuation (d' + 1) power lhs tokens.closed) := by
  cases tokens with
  | done => exact .ofOk h
  | broken x => cases h.ready
  | more t rest =>
      cases t with
      | sign s =>
          rw [closed_more, Term.continuation, Term.continuation]
          cases s.power? with
          | none => exact .ofOk h
          | some powers =>
              obtain ⟨left, right⟩ := powers
              simp only
              split
              · exact .ofOk h
              refine .after h.ends fun hrest => ?_
              have hoperator := hs.operator_closes power right lhs s hrest
              cases s with
              | dot =>
                  exact .expectName hrest fun text rest hrest => hs.dot_closes power lhs text hrest
              | question =>
                  exact (hs.expression 0 hrest).andThen fun ifTrue rest hrest =>
                    .expectSign hrest fun rest hrest =>
                      (hs.expression right hrest).andThen fun ifFalse rest hrest =>
                        hs.continuation power _ hrest
              | _ => exact hoperator
      | _ => exact .ofOk h

/-- Behind a name: a lambda if an arrow follows, a call if a parenthesis does, else the name. -/
theorem name_closes (text : String) (h : tokens.Ready e) :
    Closes e
      (match tokens with
        | .more (.sign .arrow) rest =>
          after rest fun rest =>
            (Term.expression d 0 rest).andThen fun body rest => ok (lambda [text] body) rest
        | .more (.sign .leftParen) _ =>
          (Term.arguments d tokens).andThen fun args rest => ok (call none text args) rest
        | _ => ok (name text) tokens)
      (match tokens.closed with
        | .more (.sign .arrow) rest =>
          after rest fun rest =>
            (Term.expression d' 0 rest).andThen fun body rest => ok (lambda [text] body) rest
        | .more (.sign .leftParen) _ =>
          (Term.arguments d' tokens.closed).andThen fun args rest => ok (call none text args) rest
        | _ => ok (name text) tokens.closed) := by
  cases tokens with
  | done => exact .ofOk h
  | broken x => cases h.ready
  | more t rest =>
      cases t with
      | sign s =>
          cases s with
          | arrow =>
              exact .after h.ends fun hrest =>
                (hs.expression 0 hrest).andThen fun body rest hrest => .ofOk hrest
          | leftParen => exact (hs.arguments h).andThen fun args rest hrest => .ofOk hrest
          | _ => exact .ofOk h
      | _ => exact .ofOk h

/-- Behind an opening parenthesis: the parameters of a lambda, or an expression. -/
theorem paren_closes (h : tokens.Ready e) :
    Closes e
      (match lambdaHead? tokens with
        | .error e => error e
        | .ok (some (params, rest)) =>
          (Term.expression d 0 rest).andThen fun body rest => ok (lambda params body) rest
        | .ok none =>
          (Term.expression d 0 tokens).andThen fun inner rest =>
            expectSign .rightParen rest (ok inner))
      (match lambdaHead? tokens.closed with
        | .error e => error e
        | .ok (some (params, rest)) =>
          (Term.expression d' 0 rest).andThen fun body rest => ok (lambda params body) rest
        | .ok none =>
          (Term.expression d' 0 tokens.closed).andThen fun inner rest =>
            expectSign .rightParen rest (ok inner)) := by
  cases hhead : lambdaHead? tokens with
  | error x => exact .ofError
  | ok found =>
      obtain ⟨hclosed, hready⟩ := lambdaHead?_closed h.ends found hhead
      rw [hclosed]
      cases found with
      | none =>
          exact (hs.expression 0 h).andThen fun inner rest hrest =>
            .expectSign hrest fun rest hrest => .ofOk hrest
      | some p =>
          exact (hs.expression 0 (hready _ _ rfl)).andThen fun body rest hrest => .ofOk hrest

theorem primary_succ (h : tokens.Ready e) :
    Closes e (Term.primary (d + 1) tokens) (Term.primary (d' + 1) tokens.closed) := by
  cases tokens with
  | done => exact .ofError
  | broken x => cases h.ready
  | more t rest =>
      have hleaf : ∀ t : Term, Closes e (after rest (ok t)) (after rest.closed (ok t)) :=
        fun t => .after h.ends fun hrest => .ofOk hrest
      have hleading : ∀ f : Term → Term, Closes e
          (after rest fun rest => (Term.expression d Sign.leadingPower rest).andThen
            fun operand rest => ok (f operand) rest)
          (after rest.closed fun rest => (Term.expression d' Sign.leadingPower rest).andThen
            fun operand rest => ok (f operand) rest) :=
        fun f => .after h.ends fun hrest =>
          (hs.expression _ hrest).andThen fun operand rest hrest => .ofOk hrest
      cases t with
      | string _ | integer _ | long _ | float _ | positional _ | named _ => exact hleaf _
      | keyword k =>
          cases k with
          | trueWord | falseWord | nullWord => exact hleaf _
          | newWord => exact .after h.ends fun hrest => hs.recordTerm hrest
          | asWord => exact .ofError
      | name text => exact .after h.ends (hs.name_closes text)
      | sign s =>
          cases s with
          | leftParen => exact .after h.ends hs.paren_closes
          | minus => exact hleading (unary .negate)
          | not => exact hleading (unary .not)
          | plus => exact .after h.ends fun hrest => hs.expression _ hrest
          | _ => exact .ofError

theorem arguments_succ (h : tokens.Ready e) :
    Closes e (Term.arguments (d + 1) tokens) (Term.arguments (d' + 1) tokens.closed) := by
  rw [Term.arguments, Term.arguments]
  refine .expectSign h fun rest hrest => ?_
  have hlist : Closes e
      ((Term.argumentList d rest).andThen fun args rest =>
        expectSign .rightParen rest (ok args))
      ((Term.argumentList d' rest.closed).andThen fun args rest =>
        expectSign .rightParen rest (ok args)) :=
    (hs.argumentList hrest).andThen fun args rest hrest =>
      .expectSign hrest fun rest hrest => .ofOk hrest
  cases rest with
  | done => exact (argumentList_done d).andThen.closes
  | broken x => cases hrest.ready
  | more t rest =>
      cases t with
      | sign s =>
          cases s with
          | rightParen => exact .after hrest.ends fun hrest => .ofOk hrest
          | _ => exact hlist
      | _ => exact hlist

theorem argumentList_succ (h : tokens.Ready e) :
    Closes e (Term.argumentList (d + 1) tokens) (Term.argumentList (d' + 1) tokens.closed) := by
  rw [Term.argumentList, Term.argumentList]
  refine (hs.expression 0 h).andThen fun arg rest hrest => ?_
  cases rest with
  | done => exact .ofOk hrest
  | broken x => cases hrest.ready
  | more t rest =>
      cases t with
      | sign s =>
          cases s with
          | comma =>
              exact .after hrest.ends fun hrest =>
                (hs.argumentList hrest).andThen fun args rest hrest => .ofOk hrest
          | _ => exact .ofOk hrest
      | _ => exact .ofOk hrest

theorem recordTerm_succ (h : tokens.Ready e) :
    Closes e (Term.recordTerm (d + 1) tokens) (Term.recordTerm (d' + 1) tokens.closed) := by
  cases tokens with
  | done => exact .ofError
  | broken x => cases h.ready
  | more t rest =>
      cases t with
      | sign s =>
          cases s with
          | leftParen => exact .after h.ends fun hrest => hs.recordBody .rightParen hrest
          | leftBrace => exact .after h.ends fun hrest => hs.recordBody .rightBrace hrest
          | _ => exact .ofError
      | _ => exact .ofError

theorem recordBody_succ (close : Sign) (h : tokens.Ready e) :
    Closes e (Term.recordBody (d + 1) close tokens)
      (Term.recordBody (d' + 1) close tokens.closed) := by
  have hlist : Closes e
      ((Term.memberList d tokens).andThen fun members rest =>
        expectSign close rest (ok (record members)))
      ((Term.memberList d' tokens.closed).andThen fun members rest =>
        expectSign close rest (ok (record members))) :=
    (hs.memberList h).andThen fun members rest hrest =>
      .expectSign hrest fun rest hrest => .ofOk hrest
  cases tokens with
  | done =>
      have hfails : Fails (Term.recordBody (d + 1) close done) := (memberList_done d).andThen
      exact hfails.closes
  | broken x => cases h.ready
  | more t rest =>
      cases t with
      | sign s =>
          rw [closed_more, Term.recordBody, Term.recordBody]
          split
          · exact .after h.ends fun _ => .ofError
          · exact hlist
      | _ => exact hlist

theorem memberList_succ (h : tokens.Ready e) :
    Closes e (Term.memberList (d + 1) tokens) (Term.memberList (d' + 1) tokens.closed) := by
  rw [Term.memberList, Term.memberList]
  refine (hs.memberTerm h).andThen fun m rest hrest => ?_
  cases rest with
  | done => exact .ofOk hrest
  | broken x => cases hrest.ready
  | more t rest =>
      cases t with
      | sign s =>
          cases s with
          | comma =>
              exact .after hrest.ends fun hrest =>
                (hs.memberList hrest).andThen fun members rest hrest => .ofOk hrest
          | _ => exact .ofOk hrest
      | _ => exact .ofOk hrest

theorem memberTerm_succ (h : tokens.Ready e) :
    Closes e (Term.memberTerm (d + 1) tokens) (Term.memberTerm (d' + 1) tokens.closed) := by
  rw [Term.memberTerm, Term.memberTerm]
  cases hhead : memberHead? tokens with
  | error x => exact .ofError
  | ok found =>
      obtain ⟨hclosed, hready⟩ := memberHead?_closed h.ends found hhead
      rw [hclosed]
      cases found with
      | none =>
          exact (hs.expression 0 h).andThen fun value rest hrest => value_closes value hrest
      | some p =>
          exact (hs.expression 0 (hready _ _ rfl)).andThen fun value rest hrest => .ofOk hrest

/-- One level of nesting more keeps the functions steady. -/
theorem succ : Steady (d + 1) (d' + 1) where
  expression := hs.expression_succ
  continuation := hs.continuation_succ
  primary := hs.primary_succ
  arguments := hs.arguments_succ
  argumentList := hs.argumentList_succ
  recordTerm := hs.recordTerm_succ
  recordBody := hs.recordBody_succ
  memberList := hs.memberList_succ
  memberTerm := hs.memberTerm_succ

end Step

end Steady

/-- **Reading is steady**: what is read of tokens is read of the closed tokens too, and the nesting
allowed there may be deeper. -/
theorem steady_of_le : ∀ {d d' : Nat}, d ≤ d' → Steady d d'
  | 0, _, _ => .zero
  | _ + 1, 0, h => absurd h (Nat.not_succ_le_zero _)
  | _ + 1, _ + 1, h => (steady_of_le (Nat.le_of_succ_le_succ h)).succ

/-! ### Texts -/

/-- A text that is read can be read to its end, and its tokens are read as the same term when they
are closed. -/
theorem parse_eq_ok {text : String} {t : Term} (h : parse text = .ok t) :
    (ofText text).error? = none ∧
      ∀ d, depthFor (ofText text).length ≤ d →
        expression d 0 (ofText text).closed = ok t (more (.sign .rightParen) done) := by
  unfold parse at h
  simp only at h
  cases hready : (ofText text).ready with
  | error e =>
      simp only [after, hready] at h
      cases h
  | ok us =>
      obtain ⟨rfl, -⟩ := ready_of_eq_ok hready
      simp only [after, hready] at h
      cases hr : expression (depthFor (ofText text).length) 0 (ofText text) with
      | none =>
          rw [hr] at h
          cases h
      | some r =>
          rw [hr] at h
          cases r with
          | error e => cases h
          | ok p =>
              obtain ⟨t', rest⟩ := p
              have hsteady := fun d (hd : depthFor (ofText text).length ≤ d) =>
                (steady_of_le hd).expression 0 ⟨hready, rfl⟩ t' rest hr
              cases rest with
              | more found rest => cases h
              | broken e => cases (hsteady _ (Nat.le_refl _)).1.ready
              | done =>
                  cases h
                  exact ⟨(hsteady _ (Nat.le_refl _)).1.ends.symm, fun d hd => (hsteady d hd).2⟩

/-- Trimming a text that can be read changes nothing of what is read. -/
theorem parse_of_trim {text : String} {t : Term} (h : parse (Text.trim text) = .ok t) :
    parse text = .ok t := by
  have htokens : ofText text = ofText (Text.trim text) := ofText_trim (parse_eq_ok h).1
  rw [← h]
  simp only [parse, htokens]

/-! ### Method calls -/

/-- The text of a literal that calls a method of its parameter `s`. -/
def methodText (method argument : String) : String := "s => s." ++ method ++ "(" ++ argument ++ ")"

/-- The tokens of such a text up to the opening parenthesis. -/
def methodTokens (method : String) (rest : Tokens) : Tokens :=
  more (.name "s") (more (.sign .arrow) (more (.name "s") (more (.sign .dot)
    (more (.name method) (more (.sign .leftParen) rest)))))

theorem ofText_methodText {method : String} (hm : isName method = true) (argument : String) :
    ofText (methodText method argument) =
      methodTokens method (ofChars (argument.toList ++ [')'])) := by
  have hchars : (methodText method argument).toList =
      ['s'] ++ ([' '] ++ ('=' :: '>' :: ([' '] ++ (['s'] ++ ('.' :: (method.toList ++
        ('(' :: (argument.toList ++ [')'])))))))) := by
    simp [methodText, String.toList_append]
  have hblank : ∀ c ∈ [' '], Text.isBlank c = true := List.forall_mem_singleton.mpr rfl
  have hname : isName "s" = true := by decide
  have hs : ∀ rest : List Char, (∀ c ∈ rest.head?, isNamePart c = false) →
      ofChars (['s'] ++ rest) = more (.name "s") (ofChars rest) :=
    fun rest hrest => ofChars_name hname hrest
  have hsign : ∀ {c : Char} {cs rest : List Char} {s : Sign},
      scanSign? (c :: cs) = some (s, rest) → ofChars (c :: cs) = more (.sign s) (ofChars rest) :=
    fun h => ofChars_of_next?_some (Token.next?_sign h)
  have hdot : ∀ cs, scanSign? ('.' :: cs) = some (.dot, cs) := fun cs => by cases cs <;> rfl
  have hparen : ∀ cs, scanSign? ('(' :: cs) = some (.leftParen, cs) := fun cs => by
    cases cs <;> rfl
  rw [ofText, hchars, hs _ (by simp; decide), ofChars_blanks_append hblank, hsign rfl,
    ofChars_blanks_append hblank, hs _ (by simp; decide), hsign (hdot _),
    ofChars_name hm (by simp; decide), hsign (hparen _)]
  rfl

/-- The call is read as soon as its arguments are. -/
theorem expression_methodTokens {d : Nat} {method : String} {rest : Tokens} {args : List Term}
    (h : arguments (d + 1) (more (.sign .leftParen) rest) = ok args done) :
    expression (d + 5) 0 (methodTokens method rest) =
      ok (lambda ["s"] (call (some (name "s")) method args)) done := by
  have hcall : expression (d + 3) 0
      (more (.name "s") (more (.sign .dot) (more (.name method) (more (.sign .leftParen) rest)))) =
        ok (call (some (name "s")) method args) done := by
    show ((arguments (d + 1) (more (.sign .leftParen) rest)).andThen fun args rest =>
      continuation (d + 1) 0 (call (some (name "s")) method args) rest) = _
    rw [h]
    rfl
  show (((expression (d + 3) 0 _).andThen fun body rest => ok (lambda ["s"] body) rest).andThen
    fun lhs rest => continuation (d + 4) 0 lhs rest) = _
  rw [hcall]
  rfl

/-- One argument is read up to the closing parenthesis. -/
theorem arguments_of_expression {d : Nat} {tokens : Tokens} {t : Term}
    (h : expression d 0 tokens = ok t (more (.sign .rightParen) done)) :
    arguments (d + 2) (more (.sign .leftParen) tokens) = ok [t] done := by
  have hlist : argumentList (d + 1) tokens = ok [t] (more (.sign .rightParen) done) := by
    rw [argumentList, h]
    rfl
  have hargs : ((argumentList (d + 1) tokens).andThen fun args rest =>
      expectSign .rightParen rest (ok args)) = ok [t] done := by
    rw [hlist]
    rfl
  -- no expression starts with the closing parenthesis
  cases tokens with
  | done => exact absurd h (expression_done d 0 _ _)
  | broken e => rcases d with _ | _ | d <;> cases h
  | more u rest =>
      cases u with
      | sign s =>
          cases s with
          | rightParen => rcases d with _ | _ | d <;> cases h
          | _ => exact hargs
      | _ => exact hargs

theorem length_closed {ts : Tokens} (h : ts.error? = none) : ts.closed.length = ts.length + 1 := by
  induction ts with
  | done => rfl
  | broken e => cases h
  | more t ts ih => rw [closed_more, Tokens.length, ih h, Tokens.length]

theorem ofChars_rightParen : ofChars [')'] = more (.sign .rightParen) done := by
  have hnext : Token.next? [')'] = .ok (some (.sign .rightParen, [])) := rfl
  rw [ofChars_of_next?_some hnext, ofChars_of_next?_none rfl]

theorem parse_of_arguments {method argument : String} {rest : Tokens} {args : List Term}
    (hm : isName method = true) (hrest : ofChars (argument.toList ++ [')']) = rest)
    (h : ∀ d, depthFor rest.length ≤ d →
      arguments d (more (.sign .leftParen) rest) = ok args done) :
    parse (methodText method argument) =
      .ok (lambda ["s"] (call (some (name "s")) method args)) := by
  have htokens := ofText_methodText hm argument
  rw [hrest] at htokens
  -- the six tokens before the argument allow far more nesting than they need
  have hdepth : depthFor (methodTokens method rest).length = depthFor rest.length + 43 + 5 := by
    show 8 * (rest.length + 6 + 1) = 8 * (rest.length + 1) + 43 + 5
    omega
  have hread : after (methodTokens method rest)
      (expression (depthFor (methodTokens method rest).length) 0) =
        ok (lambda ["s"] (call (some (name "s")) method args)) done := by
    rw [hdepth]
    exact expression_methodTokens (h (depthFor rest.length + 43 + 1) (by omega))
  simp only [parse, htokens, hread]
  rfl

/-- **The text of a method call is read as the call of what its argument is read as.** -/
theorem parse_methodText {method argument : String} {t : Term} (hm : isName method = true)
    (h : parse argument = .ok t) :
    parse (methodText method argument) =
      .ok (lambda ["s"] (call (some (name "s")) method [t])) := by
  obtain ⟨hend, hread⟩ := parse_eq_ok h
  have hapart : Apart [')'] := by
    rintro c ⟨⟩
    exact .rightParen
  have hrest : ofChars (argument.toList ++ [')']) = (ofText argument).closed := by
    rw [ofChars_append hapart hend, ofChars_rightParen]
    rfl
  refine parse_of_arguments hm hrest fun d hd => ?_
  rw [length_closed hend] at hd
  obtain ⟨d, rfl⟩ : ∃ d', d = d' + 2 := ⟨d - 2, by simp only [depthFor] at hd; omega⟩
  exact arguments_of_expression (hread d (by simp only [depthFor] at hd ⊢; omega))

/-- Without an argument it is read as the call without one. -/
theorem parse_methodText_of_blank {method argument : String} (hm : isName method = true)
    (h : Text.isBlankText argument = true) :
    parse (methodText method argument) =
      .ok (lambda ["s"] (call (some (name "s")) method [])) := by
  have hrest : ofChars (argument.toList ++ [')']) = more (.sign .rightParen) done := by
    rw [ofChars_blanks_append (List.all_eq_true.mp h), ofChars_rightParen]
  refine parse_of_arguments hm hrest fun d hd => ?_
  obtain ⟨d, rfl⟩ : ∃ d', d = d' + 1 := ⟨d - 1, by simp only [depthFor] at hd; omega⟩
  rfl

end Term

end LambdaQuery
