/-
**Reading comes to an end.**  Each expression that is read leaves fewer tokens than it found.  So a
reader that may be nested deeply enough for the length of its text comes to an answer, a term or an
error, whatever the text, and more nesting does not change the answer.

The functions of the reader call one another, and not each of them passes a token before it does.
What is left to read pays for the nesting: eight levels for each token, and a few more for the
functions on the way to the next one.

Main definitions:
* `Term.Proceeds` — **the invariant of reading**: it has an answer where enough nesting is allowed,
  keeps it where more is, and leaves tokens behind those it began with;
* `Term.Progress` — all functions of the reader proceed.

Main results:
* `Term.Progress.succ` — one level of nesting more keeps the functions proceeding;
* `Term.progress_of_le` — **reading proceeds**, by induction on the nesting allowed;
* `Term.exists_answer` — eight levels for each token and two more are enough for an answer;
* `Term.reading_terminates` — the lexer, the parser and its look-aheads together.
-/

import LambdaQuery.Proofs.LookAhead
import LambdaQuery.Proofs.ParserCorrectness

namespace LambdaQuery

namespace Term

open Reading Tokens

/-! ### The invariant -/

/-- **The invariant of reading**, of two readings of which the second may be nested more deeply: the
first one has an answer where enough nesting is allowed; the second one keeps any answer; and what
is left can be read on and is behind the tokens that the reading began with. -/
structure Proceeds {α : Type} (enough : Prop) (origin : Tokens) (r r' : Reading α) : Prop where
  answers : enough → r ≠ none
  keeps : r ≠ none → r' = r
  passes : ∀ a rest, r = ok a rest → rest.ready = .ok rest ∧ rest.Behind origin

namespace Proceeds

variable {α β : Type} {p q : Prop} {origin goal tokens rest : Tokens} {r r' : Reading α}

theorem ofOk {a : α} (hready : rest.ready = .ok rest) (hbehind : rest.Behind origin) :
    Proceeds p origin (ok a rest) (ok a rest) where
  answers := by simp [ok]
  keeps := fun _ => rfl
  passes := by
    rintro a rest ⟨⟩
    exact ⟨hready, hbehind⟩

theorem ofError {e : SyntaxError} : Proceeds p origin (error e : Reading α) (error e) where
  answers := by simp [error]
  keeps := fun _ => rfl
  passes := by
    rintro a rest ⟨⟩

/-- Where no nesting is left it was not enough. -/
theorem ofNone (h : ¬p) : Proceeds p origin none r' where
  answers := fun hp => absurd hp h
  keeps := fun hne => absurd rfl hne
  passes := by
    rintro a rest ⟨⟩

theorem mono (h : Proceeds p origin r r') (hp : q → p) : Proceeds q origin r r' :=
  { h with answers := fun hq => h.answers (hp hq) }

/-- A reading that begins further on. -/
theorem from_behind (h : Proceeds p tokens r r') (hb : tokens.Behind origin) :
    Proceeds p origin r r' :=
  { h with passes := fun a rest hr => (h.passes a rest hr).imp_right fun hrest => hrest.trans hb }

/-- Where a reading leaves tokens behind those it began with, the lexer has gone on. -/
theorem lexer_passes (h : Proceeds p tokens r r') {a : α} (hr : r = ok a rest) :
    Passes tokens rest := by
  obtain ⟨hready, hbehind⟩ := h.passes a rest hr
  exact hbehind.passes hready

theorem andThen {f f' : α → Tokens → Reading β} (h : Proceeds p origin r r') (hp : q → p)
    (hf : ∀ a rest, rest.ready = .ok rest → rest.Behind origin →
      Proceeds q goal (f a rest) (f' a rest)) :
    Proceeds q goal (r.andThen f) (r'.andThen f') := by
  match r, h with
  | none, h => exact .ofNone fun hq => h.answers (hp hq) rfl
  | some (.error e), h =>
      rw [h.keeps (by simp)]
      exact .ofError
  | some (.ok (a, rest)), h =>
      obtain ⟨hready, hbehind⟩ := h.passes a rest rfl
      rw [h.keeps (by simp)]
      exact hf a rest hready hbehind

theorem after {f f' : Tokens → Reading α}
    (hf : rest.ready = .ok rest → Proceeds q goal (f rest) (f' rest)) :
    Proceeds q goal (after rest f) (after rest f') := by
  cases rest with
  | done => exact hf rfl
  | broken e => exact .ofError
  | more t rest => exact hf rfl

theorem expectSign {s : Sign} {f f' : Tokens → Reading α}
    (hf : ∀ rest, rest.ready = .ok rest → rest.Behind tokens → Proceeds q goal (f rest) (f' rest)) :
    Proceeds q goal (expectSign s tokens f) (Term.expectSign s tokens f') := by
  cases tokens with
  | done | broken e => exact .ofError
  | more t rest =>
      cases t with
      | sign found =>
          rw [Term.expectSign, Term.expectSign]
          split
          · exact .after fun hready => hf rest hready (.next _ rest)
          · exact .ofError
      | _ => exact .ofError

theorem expectName {f f' : String → Tokens → Reading α}
    (hf : ∀ text rest, rest.ready = .ok rest → rest.Behind tokens →
      Proceeds q goal (f text rest) (f' text rest)) :
    Proceeds q goal (expectName tokens f) (Term.expectName tokens f') := by
  cases tokens with
  | done | broken e => exact .ofError
  | more t rest =>
      cases t with
      | name text => exact .after fun hready => hf text rest hready (.next _ rest)
      | _ => exact .ofError

end Proceeds

/-! ### One level of nesting -/

/-- All functions of the reader proceed, where `d` and `d'` levels of nesting are allowed.  Each
token that is left pays for eight levels; the levels beyond are those that a function spends before
it passes a token. -/
structure Progress (d d' : Nat) : Prop where
  expression (power : Nat) (tokens : Tokens) :
    Proceeds (8 * tokens.length + 2 ≤ d) tokens
      (expression d power tokens) (expression d' power tokens)
  /-- What goes on behind an operand is behind what the operand began with. -/
  continuation (power : Nat) (lhs : Term) {origin tokens : Tokens} (h : tokens.ready = .ok tokens)
      (hb : tokens.Behind origin) :
    Proceeds (8 * tokens.length + 1 ≤ d) origin
      (continuation d power lhs tokens) (continuation d' power lhs tokens)
  primary (tokens : Tokens) :
    Proceeds (8 * tokens.length + 1 ≤ d) tokens (primary d tokens) (primary d' tokens)
  arguments (tokens : Tokens) :
    Proceeds (8 * tokens.length + 1 ≤ d) tokens (arguments d tokens) (arguments d' tokens)
  argumentList (tokens : Tokens) :
    Proceeds (8 * tokens.length + 3 ≤ d) tokens (argumentList d tokens) (argumentList d' tokens)
  recordTerm (tokens : Tokens) :
    Proceeds (8 * tokens.length + 1 ≤ d) tokens (recordTerm d tokens) (recordTerm d' tokens)
  recordBody (close : Sign) (tokens : Tokens) :
    Proceeds (8 * tokens.length + 5 ≤ d) tokens
      (recordBody d close tokens) (recordBody d' close tokens)
  memberList (tokens : Tokens) :
    Proceeds (8 * tokens.length + 4 ≤ d) tokens (memberList d tokens) (memberList d' tokens)
  memberTerm (tokens : Tokens) :
    Proceeds (8 * tokens.length + 3 ≤ d) tokens (memberTerm d tokens) (memberTerm d' tokens)

namespace Progress

theorem zero (d' : Nat) : Progress 0 d' := by
  constructor <;> intros <;> exact .ofNone (by omega)

section Step

variable {d d' : Nat} (hs : Progress d d')

include hs

theorem expression_succ (power : Nat) (tokens : Tokens) :
    Proceeds (8 * tokens.length + 2 ≤ d + 1) tokens (Term.expression (d + 1) power tokens)
      (Term.expression (d' + 1) power tokens) := by
  rw [Term.expression, Term.expression]
  refine (hs.primary tokens).andThen (by omega) fun lhs rest hready hb => ?_
  have hlt := hb.length_lt
  exact (hs.continuation power lhs hready hb).mono (by omega)

/-- Behind a name after a point: a call if a parenthesis follows, else a member. -/
theorem dot_proceeds (power : Nat) (lhs : Term) (text : String) {origin tokens : Tokens} :
    tokens.ready = .ok tokens → tokens.Behind origin → Proceeds (8 * tokens.length + 1 ≤ d) origin
      (match tokens with
        | .more (.sign .leftParen) _ =>
          (Term.arguments d tokens).andThen fun args rest =>
            Term.continuation d power (call (some lhs) text args) rest
        | _ => Term.continuation d power (member lhs text) tokens)
      (match tokens with
        | .more (.sign .leftParen) _ =>
          (Term.arguments d' tokens).andThen fun args rest =>
            Term.continuation d' power (call (some lhs) text args) rest
        | _ => Term.continuation d' power (member lhs text) tokens) := by
  intro h hb
  have hmember := hs.continuation power (member lhs text) h hb
  cases tokens with
  | done | broken e => exact hmember
  | more t rest =>
      cases t with
      | sign s =>
          cases s with
          | leftParen =>
              refine (hs.arguments _).andThen id fun args after hready hafter => ?_
              have hlt := hafter.length_lt
              exact (hs.continuation power _ hready (hafter.trans hb)).mono (by omega)
          | _ => exact hmember
      | _ => exact hmember

/-- Behind the sign of an operator, if it is one: the right operand, and what goes on after it. -/
theorem operator_proceeds (power right : Nat) (lhs : Term) (s : Sign) {origin tokens : Tokens}
    (hb : tokens.Behind origin) :
    Proceeds (8 * tokens.length + 2 ≤ d) origin
      (match s.binaryOp? with
        | some op => (Term.expression d right tokens).andThen fun rhs rest =>
            Term.continuation d power (binary op lhs rhs) rest
        | none => error (.unexpectedToken (.sign s)))
      (match s.binaryOp? with
        | some op => (Term.expression d' right tokens).andThen fun rhs rest =>
            Term.continuation d' power (binary op lhs rhs) rest
        | none => error (.unexpectedToken (.sign s))) := by
  cases s.binaryOp? with
  | none => exact .ofError
  | some op =>
      refine (hs.expression right tokens).andThen id fun rhs after hready hafter => ?_
      have hlt := hafter.length_lt
      exact (hs.continuation power _ hready (hafter.trans hb)).mono (by omega)

theorem continuation_succ (power : Nat) (lhs : Term) {origin tokens : Tokens}
    (h : tokens.ready = .ok tokens) (hb : tokens.Behind origin) :
    Proceeds (8 * tokens.length + 1 ≤ d + 1) origin
      (Term.continuation (d + 1) power lhs tokens)
      (Term.continuation (d' + 1) power lhs tokens) := by
  cases tokens with
  | done => exact .ofOk h hb
  | broken e => cases h
  | more t rest =>
      cases t with
      | sign s =>
          have hrest : rest.Behind origin := (Behind.next _ rest).trans hb
          have hlength : (more (.sign s) rest).length = rest.length + 1 := rfl
          rw [Term.continuation, Term.continuation]
          cases s.power? with
          | none => exact .ofOk h hb
          | some powers =>
              obtain ⟨left, right⟩ := powers
              simp only
              split
              · exact .ofOk h hb
              refine .after fun hready => ?_
              have hoperator := (hs.operator_proceeds power right lhs s hrest).mono
                (q := 8 * (more (.sign s) rest).length + 1 ≤ d + 1) (by omega)
              cases s with
              | dot =>
                  refine .expectName fun text after hready hafter => ?_
                  have hlt := hafter.length_lt
                  exact (hs.dot_proceeds power lhs text hready (hafter.trans hrest)).mono
                    (by omega)
              | question =>
                  refine (hs.expression 0 rest).andThen (by omega) fun ifTrue after _ hafter => ?_
                  refine .expectSign fun other _ hother => ?_
                  have hlt := hafter.length_lt
                  have hlt' := hother.length_lt
                  refine (hs.expression right other).andThen (by omega)
                    fun ifFalse last hready hlast => ?_
                  have hlt'' := hlast.length_lt
                  have hbehind := ((hlast.trans hother).trans hafter).trans hrest
                  exact (hs.continuation power _ hready hbehind).mono (by omega)
              | _ => exact hoperator
      | _ => exact .ofOk h hb

/-- Behind a name: a lambda if an arrow follows, a call if a parenthesis does, else the name. -/
theorem name_proceeds (text : String) {origin tokens : Tokens} :
    tokens.ready = .ok tokens → tokens.Behind origin → Proceeds (8 * tokens.length + 2 ≤ d) origin
      (match tokens with
        | .more (.sign .arrow) rest =>
          after rest fun rest =>
            (Term.expression d 0 rest).andThen fun body rest => ok (lambda [text] body) rest
        | .more (.sign .leftParen) _ =>
          (Term.arguments d tokens).andThen fun args rest => ok (call none text args) rest
        | _ => ok (name text) tokens)
      (match tokens with
        | .more (.sign .arrow) rest =>
          after rest fun rest =>
            (Term.expression d' 0 rest).andThen fun body rest => ok (lambda [text] body) rest
        | .more (.sign .leftParen) _ =>
          (Term.arguments d' tokens).andThen fun args rest => ok (call none text args) rest
        | _ => ok (name text) tokens) := by
  intro h hb
  cases tokens with
  | done | broken e => exact .ofOk h hb
  | more t rest =>
      have hlength : (more t rest).length = rest.length + 1 := rfl
      cases t with
      | sign s =>
          cases s with
          | arrow =>
              refine .after fun _ => ?_
              refine (hs.expression 0 rest).andThen (by omega) fun body after hready hafter => ?_
              exact .ofOk hready ((hafter.trans (.next _ rest)).trans hb)
          | leftParen =>
              refine (hs.arguments _).andThen (by omega) fun args after hready hafter => ?_
              exact .ofOk hready (hafter.trans hb)
          | _ => exact .ofOk h hb
      | _ => exact .ofOk h hb

/-- Behind an opening parenthesis: the parameters of a lambda, or an expression. -/
theorem paren_proceeds {origin tokens : Tokens} (hb : tokens.Behind origin) :
    Proceeds (8 * tokens.length + 2 ≤ d) origin
      (match lambdaHead? tokens with
        | .error e => error e
        | .ok (some (params, rest)) =>
          (Term.expression d 0 rest).andThen fun body rest => ok (lambda params body) rest
        | .ok none =>
          (Term.expression d 0 tokens).andThen fun inner rest =>
            expectSign .rightParen rest (ok inner))
      (match lambdaHead? tokens with
        | .error e => error e
        | .ok (some (params, rest)) =>
          (Term.expression d' 0 rest).andThen fun body rest => ok (lambda params body) rest
        | .ok none =>
          (Term.expression d' 0 tokens).andThen fun inner rest =>
            expectSign .rightParen rest (ok inner)) := by
  cases hhead : lambdaHead? tokens with
  | error e => exact .ofError
  | ok found =>
      cases found with
      | none =>
          refine (hs.expression 0 tokens).andThen id fun inner after _ hafter => ?_
          refine .expectSign fun last hready hlast => ?_
          exact .ofOk hready ((hlast.trans hafter).trans hb)
      | some p =>
          have hrest := (hhead ▸ lambdaHead?_finds tokens).behind_of_found (by simp [headOf])
          have hlt := hrest.length_lt
          refine (hs.expression 0 p.2).andThen (by omega) fun body after hready hafter => ?_
          exact .ofOk hready ((hafter.trans hrest).trans hb)

theorem primary_succ (tokens : Tokens) :
    Proceeds (8 * tokens.length + 1 ≤ d + 1) tokens (Term.primary (d + 1) tokens)
      (Term.primary (d' + 1) tokens) := by
  cases tokens with
  | done | broken e => exact .ofError
  | more t rest =>
      have hnext : rest.Behind (more t rest) := .next t rest
      have hlength : (more t rest).length = rest.length + 1 := rfl
      have hleaf : ∀ u : Term, Proceeds (8 * (more t rest).length + 1 ≤ d + 1) (more t rest)
          (after rest (ok u)) (after rest (ok u)) :=
        fun u => .after fun hready => .ofOk hready hnext
      have hleading : ∀ f : Term → Term,
          Proceeds (8 * (more t rest).length + 1 ≤ d + 1) (more t rest)
            (after rest fun rest => (Term.expression d Sign.leadingPower rest).andThen
              fun operand rest => ok (f operand) rest)
            (after rest fun rest => (Term.expression d' Sign.leadingPower rest).andThen
              fun operand rest => ok (f operand) rest) := by
        intro f
        refine .after fun _ => ?_
        refine (hs.expression _ rest).andThen (by omega) fun operand after hready hafter => ?_
        exact .ofOk hready (hafter.trans hnext)
      cases t with
      | string _ | integer _ | long _ | float _ | positional _ | named _ => exact hleaf _
      | keyword k =>
          cases k with
          | trueWord | falseWord | nullWord => exact hleaf _
          | newWord =>
              exact .after fun _ => ((hs.recordTerm rest).from_behind hnext).mono (by omega)
          | asWord => exact .ofError
      | name text =>
          exact .after fun hready => (hs.name_proceeds text hready hnext).mono (by omega)
      | sign s =>
          cases s with
          | leftParen => exact .after fun _ => (hs.paren_proceeds hnext).mono (by omega)
          | minus => exact hleading (unary .negate)
          | not => exact hleading (unary .not)
          | plus =>
              exact .after fun _ => ((hs.expression _ rest).from_behind hnext).mono (by omega)
          | _ => exact .ofError

theorem arguments_succ (tokens : Tokens) :
    Proceeds (8 * tokens.length + 1 ≤ d + 1) tokens (Term.arguments (d + 1) tokens)
      (Term.arguments (d' + 1) tokens) := by
  rw [Term.arguments, Term.arguments]
  refine .expectSign fun rest _ hrest => ?_
  have hlt := hrest.length_lt
  have hlist : Proceeds (8 * tokens.length + 1 ≤ d + 1) tokens
      ((Term.argumentList d rest).andThen fun args rest => expectSign .rightParen rest (ok args))
      ((Term.argumentList d' rest).andThen fun args rest =>
        expectSign .rightParen rest (ok args)) := by
    refine (hs.argumentList rest).andThen (by omega) fun args after _ hafter => ?_
    refine .expectSign fun last hready hlast => ?_
    exact .ofOk hready ((hlast.trans hafter).trans hrest)
  cases rest with
  | done | broken e => exact hlist
  | more t after =>
      cases t with
      | sign s =>
          cases s with
          | rightParen =>
              exact .after fun hready => .ofOk hready ((Behind.next _ after).trans hrest)
          | _ => exact hlist
      | _ => exact hlist

theorem argumentList_succ (tokens : Tokens) :
    Proceeds (8 * tokens.length + 3 ≤ d + 1) tokens (Term.argumentList (d + 1) tokens)
      (Term.argumentList (d' + 1) tokens) := by
  rw [Term.argumentList, Term.argumentList]
  refine (hs.expression 0 tokens).andThen (by omega) fun arg rest hready hrest => ?_
  have hlt := hrest.length_lt
  cases rest with
  | done => exact .ofOk hready hrest
  | broken e => cases hready
  | more t after =>
      have hlength : (more t after).length = after.length + 1 := rfl
      cases t with
      | sign s =>
          cases s with
          | comma =>
              refine .after fun _ => ?_
              refine (hs.argumentList after).andThen (by omega) fun args last hready hlast => ?_
              exact .ofOk hready ((hlast.trans (.next _ after)).trans hrest)
          | _ => exact .ofOk hready hrest
      | _ => exact .ofOk hready hrest

theorem recordTerm_succ (tokens : Tokens) :
    Proceeds (8 * tokens.length + 1 ≤ d + 1) tokens (Term.recordTerm (d + 1) tokens)
      (Term.recordTerm (d' + 1) tokens) := by
  cases tokens with
  | done | broken e => exact .ofError
  | more t rest =>
      have hnext : rest.Behind (more t rest) := .next t rest
      have hlength : (more t rest).length = rest.length + 1 := rfl
      cases t with
      | sign s =>
          cases s with
          | leftParen =>
              exact .after fun _ =>
                ((hs.recordBody .rightParen rest).from_behind hnext).mono (by omega)
          | leftBrace =>
              exact .after fun _ =>
                ((hs.recordBody .rightBrace rest).from_behind hnext).mono (by omega)
          | _ => exact .ofError
      | _ => exact .ofError

theorem recordBody_succ (close : Sign) (tokens : Tokens) :
    Proceeds (8 * tokens.length + 5 ≤ d + 1) tokens (Term.recordBody (d + 1) close tokens)
      (Term.recordBody (d' + 1) close tokens) := by
  have hlist : Proceeds (8 * tokens.length + 5 ≤ d + 1) tokens
      ((Term.memberList d tokens).andThen fun members rest =>
        expectSign close rest (ok (record members)))
      ((Term.memberList d' tokens).andThen fun members rest =>
        expectSign close rest (ok (record members))) := by
    refine (hs.memberList tokens).andThen (by omega) fun members rest _ hrest => ?_
    exact .expectSign fun last hready hlast => .ofOk hready (hlast.trans hrest)
  cases tokens with
  | done | broken e => exact hlist
  | more t rest =>
      cases t with
      | sign s =>
          rw [Term.recordBody, Term.recordBody]
          split
          · exact .after fun _ => .ofError
          · exact hlist
      | _ => exact hlist

theorem memberList_succ (tokens : Tokens) :
    Proceeds (8 * tokens.length + 4 ≤ d + 1) tokens (Term.memberList (d + 1) tokens)
      (Term.memberList (d' + 1) tokens) := by
  rw [Term.memberList, Term.memberList]
  refine (hs.memberTerm tokens).andThen (by omega) fun m rest hready hrest => ?_
  have hlt := hrest.length_lt
  cases rest with
  | done => exact .ofOk hready hrest
  | broken e => cases hready
  | more t after =>
      have hlength : (more t after).length = after.length + 1 := rfl
      cases t with
      | sign s =>
          cases s with
          | comma =>
              refine .after fun _ => ?_
              refine (hs.memberList after).andThen (by omega) fun members last hready hlast => ?_
              exact .ofOk hready ((hlast.trans (.next _ after)).trans hrest)
          | _ => exact .ofOk hready hrest
      | _ => exact .ofOk hready hrest

omit hs in
theorem value_proceeds {q : Prop} (value : Term) {origin tokens : Tokens}
    (h : tokens.ready = .ok tokens) (hb : tokens.Behind origin) :
    Proceeds q origin (nameBehind value tokens) (nameBehind value tokens) := by
  let own : Reading (Option String × Term) :=
    if value.memberName?.isSome then ok (none, value) tokens else error .unnamedMember
  have hown : Proceeds q origin own own := by
    dsimp only [own]
    split
    · exact .ofOk h hb
    · exact .ofError
  cases tokens with
  | done | broken e => exact hown
  | more t rest =>
      cases t with
      | keyword k =>
          cases k with
          | asWord =>
              refine .after fun _ => .expectName fun text last hready hlast => ?_
              exact .ofOk hready ((hlast.trans (.next _ rest)).trans hb)
          | _ => exact hown
      | _ => exact hown

theorem memberTerm_succ (tokens : Tokens) :
    Proceeds (8 * tokens.length + 3 ≤ d + 1) tokens (Term.memberTerm (d + 1) tokens)
      (Term.memberTerm (d' + 1) tokens) := by
  rw [Term.memberTerm, Term.memberTerm]
  cases hhead : memberHead? tokens with
  | error e => exact .ofError
  | ok found =>
      cases found with
      | none =>
          refine (hs.expression 0 tokens).andThen (by omega) fun value rest hready hrest => ?_
          exact value_proceeds value hready hrest
      | some p =>
          have hrest := (hhead ▸ memberHead?_finds tokens).behind_of_found (by simp [assignmentOf])
          have hlt := hrest.length_lt
          refine (hs.expression 0 p.2).andThen (by omega) fun value after hready hafter => ?_
          exact .ofOk hready (hafter.trans hrest)

/-- One level of nesting more keeps the functions proceeding. -/
theorem succ : Progress (d + 1) (d' + 1) where
  expression := hs.expression_succ
  continuation := hs.continuation_succ
  primary := hs.primary_succ
  arguments := hs.arguments_succ
  argumentList := hs.argumentList_succ
  recordTerm := hs.recordTerm_succ
  recordBody := hs.recordBody_succ
  memberList := hs.memberList_succ
  memberTerm := hs.memberTerm_succ

end Step

end Progress

/-- **Reading proceeds**, and goes on to do so where more nesting is allowed. -/
theorem progress_of_le : ∀ {d d' : Nat}, d ≤ d' → Progress d d'
  | 0, d', _ => .zero d'
  | _ + 1, 0, h => absurd h (Nat.not_succ_le_zero _)
  | _ + 1, _ + 1, h => (progress_of_le (Nat.le_of_succ_le_succ h)).succ

/-! ### Texts -/

/-- **Eight levels for each token and two more are enough for an answer**, and more do not change
it. -/
theorem exists_answer (power : Nat) (tokens : Tokens) :
    ∃ answer,
      Settles (8 * tokens.length + 2) (fun d => expression d power tokens) (some answer) := by
  have henough := (progress_of_le (Nat.le_refl (8 * tokens.length + 2))).expression power tokens
  obtain ⟨answer, hanswer⟩ := Option.ne_none_iff_exists'.mp (henough.answers (Nat.le_refl _))
  refine ⟨answer, fun d hd => ?_⟩
  have hkeeps := ((progress_of_le hd).expression power tokens).keeps
  rw [hanswer] at hkeeps
  exact hkeeps (by simp)

/-- The nesting that a text allows is enough for its tokens. -/
theorem exists_answer_after (tokens : Tokens) :
    ∃ answer, Settles (depthFor tokens.length) (fun d => after tokens (expression d 0))
      (some answer) := by
  obtain ⟨answer, hanswer⟩ := exists_answer 0 tokens
  have henough : 8 * tokens.length + 2 ≤ depthFor tokens.length := by
    simp only [depthFor]
    omega
  cases tokens with
  | broken e => exact ⟨.error e, fun _ _ => rfl⟩
  | done | more t rest => exact ⟨answer, hanswer.mono henough⟩

/-- It is linear in the number of characters. -/
theorem depthFor_ofText_le (text : String) :
    depthFor (ofText text).length ≤ 8 * (text.length + 1) := by
  have htokens : (ofText text).length ≤ text.length := length_ofChars_le text.toList
  simp only [depthFor]
  omega

/-- The answer that a reading of a whole text comes to: a token that is left is refused. -/
def conclude (answer : Except SyntaxError (Term × Tokens)) : Except SyntaxError Term :=
  answer >>= fun (t, rest) =>
    match rest with
    | .more found _ => .error (.expected .endOfText (some found))
    | _ => .ok t

theorem parse_of_answer {text : String} {answer : Except SyntaxError (Term × Tokens)}
    (h : after (ofText text) (expression (depthFor (ofText text).length) 0) = some answer) :
    parse text = conclude answer := by
  simp only [parse, h]
  rcases answer with e | ⟨t, rest⟩
  · rfl
  · cases rest <;> rfl

/-- **Reading comes to an end on every text.**  A token takes one character or more from the start
of what is left, so the parser looks at the first token of a text with the lexer somewhere in it.
Behind an operand, an expression or a member the lexer stands further on than before, or at the end.
A look-ahead passes what it matches, or the reading goes on from the token at which the look-ahead
began; it fails only if the tokens that it looks at are broken off.  And every text has its answer
where eight nested calls of the reading functions are allowed for each character, and eight more;
allowing more does not change it. -/
theorem reading_terminates :
    (∀ (cs rest : List Char) (t : Token), Token.next? cs = .ok (some (t, rest)) →
      ∃ taken, taken ≠ [] ∧ cs = taken ++ rest) ∧
    (∀ cs : List Char, (ofChars cs).ready = .ok (ofChars cs) →
      ∃ passed cs', cs = passed ++ cs' ∧ Ahead (ofChars cs) cs' ∧
        (passed ≠ [] ∨ ofChars cs = done)) ∧
    (∀ (d : Nat) (tokens rest : Tokens),
      (∀ t, primary d tokens = ok t rest → Passes tokens rest) ∧
      (∀ power t, expression d power tokens = ok t rest → Passes tokens rest) ∧
      ∀ m, memberTerm d tokens = ok m rest → Passes tokens rest) ∧
    (∀ (d : Nat) (tokens : Tokens), tokens.ready = .ok tokens →
      LooksAhead headOf tokens
        (fun names rest => (expression d 0 rest).andThen fun body rest =>
          ok (lambda names body) rest)
        (fun tokens => (expression d 0 tokens).andThen fun inner rest =>
          expectSign .rightParen rest (ok inner))
        (primary (d + 1) (more (.sign .leftParen) tokens)) ∧
      LooksAhead assignmentOf tokens
        (fun text rest => (expression d 0 rest).andThen fun value rest =>
          ok (some text, value) rest)
        (fun tokens => (expression d 0 tokens).andThen nameBehind)
        (memberTerm (d + 1) tokens)) ∧
    ∀ text : String, ∃ answer,
      parse text = conclude answer ∧
      ∀ d, 8 * (text.length + 1) ≤ d → after (ofText text) (expression d 0) = some answer := by
  refine ⟨fun _ _ _ => Token.next?_suffix, fun _ => exists_ahead,
    fun d tokens rest => ⟨?_, ?_, ?_⟩, ?_, fun text => ?_⟩
  · exact fun t h => ((progress_of_le (Nat.le_refl d)).primary tokens).lexer_passes h
  · exact fun power t h => ((progress_of_le (Nat.le_refl d)).expression power tokens).lexer_passes h
  · exact fun m h => ((progress_of_le (Nat.le_refl d)).memberTerm tokens).lexer_passes h
  · intro d tokens h
    exact ⟨primary_looksAhead d h, memberTerm_looksAhead d tokens⟩
  · obtain ⟨answer, hanswer⟩ := exists_answer_after (ofText text)
    refine ⟨answer, parse_of_answer (hanswer _ (Nat.le_refl _)), fun d hd => ?_⟩
    exact hanswer d (Nat.le_trans (depthFor_ofText_le text) hd)

set_option maxRecDepth 1000 in
/-- In a text that ends too early: the name between its first parentheses is read again behind the
look-ahead, which finds no arrow, and the answer is that the text ends. -/
theorem reading_terminates_unclosed :
    (∃ taken, taken ≠ [] ∧ "(a) + (b".toList = taken ++ "a) + (b".toList) ∧
    (∃ passed cs, "(a) + (b".toList = passed ++ cs ∧ Ahead (ofText "(a) + (b") cs) ∧
    Passes (ofText "(a) + (b") (ofText " + (b") ∧
    (∀ d, LooksAhead headOf (ofText "a) + (b")
      (fun names rest => (expression d 0 rest).andThen fun body rest => ok (lambda names body) rest)
      (fun tokens => (expression d 0 tokens).andThen fun inner rest =>
        expectSign .rightParen rest (ok inner))
      (primary (d + 1) (more (.sign .leftParen) (ofText "a) + (b")))) ∧
    ∀ d, 72 ≤ d → after (ofText "(a) + (b") (expression d 0) = some (.error .unexpectedEnd) := by
  have hfirst : Token.next? "(a) + (b".toList =
      .ok (some (.sign .leftParen, "a) + (b".toList)) := by cbv
  have hread : primary 5 (ofText "(a) + (b") = ok (name "a") (ofText " + (b") := by cbv
  have hbegin : (ofText "(a) + (b").ready = .ok (ofText "(a) + (b") := by cbv
  have hready : (ofText "a) + (b").ready = .ok (ofText "a) + (b") := by cbv
  have hcomputed :
      after (ofText "(a) + (b") (expression 72 0) = some (.error .unexpectedEnd) := by cbv
  obtain ⟨htoken, hplace, hreading, hlook, hanswer⟩ := reading_terminates
  obtain ⟨passed, cs, hcs, hahead, -⟩ := hplace _ hbegin
  obtain ⟨answer, -, hsettles⟩ := hanswer "(a) + (b"
  obtain rfl : answer = .error .unexpectedEnd :=
    Option.some.inj ((hsettles 72 (by decide)).symm.trans hcomputed)
  exact ⟨htoken _ _ _ hfirst, ⟨passed, cs, hcs, hahead⟩, (hreading 5 _ _).1 _ hread,
    fun d => (hlook d _ hready).1, hsettles⟩

end Term

end LambdaQuery
