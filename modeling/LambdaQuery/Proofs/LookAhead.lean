/-
**Looking ahead.**  Two places of the parser look at more than the next token: behind an opening
parenthesis, where the parameters of a lambda may follow, and at a member of `new`, where its name
and `=` may come first.  A look-ahead goes over any number of tokens.  What it matches is passed,
and where it matches nothing the reading goes on from the token at which the look-ahead began.

Main definitions:
* `Term.headOf`, `Term.assignmentOf` — the tokens that the two places look for;
* `Term.Finds` — what comes of a look-ahead;
* `Term.LooksAhead` — a reading that does as a look-ahead says.

Main results:
* `Term.lambdaHead?_finds`, `Term.memberHead?_finds` — what is found is there;
* `Term.lambdaHead?_prefixed`, `Term.memberHead?_prefixed` — what is there is found;
* `Term.primary_looksAhead`, `Term.memberTerm_looksAhead` — **what the two places do**.
-/

import LambdaQuery.Proofs.Outcome
import LambdaQuery.Proofs.TermWriting
import LambdaQuery.Proofs.TokenProgress
import LambdaQuery.Term.Parser

namespace LambdaQuery

namespace Term

open Reading Tokens

/-! ### What a look-ahead finds -/

/-- What comes of a look-ahead that matches tokens made as `front a`: the error that ends the
tokens, nothing, or what they are made of and the tokens behind them. -/
inductive Finds {α : Type} (front : α → List Token) (tokens : Tokens) :
    Except SyntaxError (Option (α × Tokens)) → Prop
  | failure {e : SyntaxError} (h : tokens.error? = some e) : Finds front tokens (.error e)
  | nothing : Finds front tokens (.ok none)
  | found {a : α} {rest : Tokens} (h : tokens = prefixed (front a) rest)
      (hready : rest.ready = .ok rest) : Finds front tokens (.ok (some (a, rest)))

/-- The parameters of a lambda as tokens, up to the arrow. -/
def headOf (names : List String) : List Token :=
  nameTokens names ++ [.sign .rightParen, .sign .arrow]

/-- The name of a member as tokens, up to its value. -/
def assignmentOf (text : String) : List Token := [.name text, .sign .assign]

namespace Finds

variable {α β : Type} {front : α → List Token} {tokens after : Tokens}

/-- A look-ahead past tokens that may have been broken off. -/
theorem ready {k : Tokens → Except SyntaxError (Option (α × Tokens))}
    (he : tokens.error? = after.error?) (h : Finds front tokens (k after)) :
    Finds front tokens (after.ready >>= k) := by
  cases after with
  | broken e => exact .failure he
  | done | more t rest => exact h

/-- A look-ahead that goes on behind tokens that it has matched. -/
theorem behind {front' : β → List Token} {r : Except SyntaxError (Option (β × Tokens))} {g : β → α}
    (pre : List Token) (h : Finds front' after r)
    (hfront : ∀ b rest, r = .ok (some (b, rest)) → front (g b) = pre ++ front' b) :
    Finds front (prefixed pre after)
      (r.map fun found => found.map fun (b, rest) => (g b, rest)) := by
  cases h with
  | failure he => exact .failure ((error?_prefixed pre after).trans he)
  | nothing => exact .nothing
  | @found b rest h hready =>
      refine .found ?_ hready
      rw [hfront b rest rfl, prefixed_append, h]

theorem behind_of_found (hne : ∀ a, front a ≠ []) {found : α × Tokens}
    (h : Finds front tokens (.ok (some found))) : found.2.Behind tokens := by
  cases h with
  | @found a rest h hready =>
      cases hfront : front a with
      | nil => exact absurd hfront (hne a)
      | cons t ts =>
          rw [h, hfront]
          exact behind_prefixed t ts rest

end Finds

theorem arrow?_finds {α : Type} {front : α → List Token} (pre : List Token) (a : α)
    (hfront : front a = pre ++ [.sign .arrow]) (tokens : Tokens) :
    Finds front (prefixed pre tokens)
      ((arrow? tokens).map fun found => found.map fun rest => (a, rest)) := by
  unfold arrow?
  split
  · next rest =>
    have hwhole : prefixed pre (more (.sign .arrow) rest) = prefixed (front a) rest := by
      rw [hfront, prefixed_append]
      rfl
    rw [hwhole]
    cases rest with
    | broken e => exact .failure (error?_prefixed _ _)
    | done | more t rest => exact .found rfl rfl
  · exact .nothing

theorem lambdaNames?_comma_of (text : String) (after : Tokens) :
    lambdaNames? (more (.name text) (more (.sign .comma) after)) =
      after.ready >>= fun _ => (lambdaNames? after).map fun found =>
        found.map fun (names, rest) => (text :: names, rest) := by
  cases after <;> rfl

theorem lambdaNames?_paren_of (text : String) (after : Tokens) :
    lambdaNames? (more (.name text) (more (.sign .rightParen) after)) =
      after.ready >>= fun us => (arrow? us).map fun found =>
        found.map fun rest => ([text], rest) := by
  cases after <;> rfl

theorem lambdaHead?_paren_of (after : Tokens) :
    lambdaHead? (more (.sign .rightParen) after) =
      after.ready >>= fun us => (arrow? us).map fun found => found.map fun rest => ([], rest) := by
  cases after <;> rfl

/-- There is a name before each comma and before the closing parenthesis. -/
theorem ne_nil_of_lambdaNames? : ∀ {tokens : Tokens} {names : List String} {rest : Tokens},
    lambdaNames? tokens = .ok (some (names, rest)) → names ≠ []
  | .done, _, _, h | .broken _, _, _, h | .more (.name _) .done, _, _, h => by cases h
  | .more (.name _) (.broken _), _, _, h => by cases h
  | .more (.name text) (.more t after), names, rest, h => by
    have hmapped : ∀ {α : Type} {r : Except SyntaxError (Option α)} {g : α → List String × Tokens},
        (∀ a, (g a).1 ≠ []) → r.map (Option.map g) = .ok (some (names, rest)) → names ≠ [] := by
      intro α r g hg hr
      obtain ⟨_, _, hnames⟩ := map_eq_ok.mp hr
      obtain ⟨a, -, heq⟩ := Option.map_eq_some_iff.mp hnames
      have hne := hg a
      rwa [heq] at hne
    cases t with
    | sign s =>
        cases s with
        | comma =>
            rw [lambdaNames?_comma_of] at h
            obtain ⟨_, -, h⟩ := bind_eq_ok.mp h
            exact hmapped (by simp) h
        | rightParen =>
            rw [lambdaNames?_paren_of] at h
            obtain ⟨_, -, h⟩ := bind_eq_ok.mp h
            exact hmapped (by simp) h
        | _ => cases h
    | _ => cases h
  | .more (.string _) _, _, _, h | .more (.integer _) _, _, _, h | .more (.long _) _, _, _, h
  | .more (.float _) _, _, _, h | .more (.positional _) _, _, _, h | .more (.named _) _, _, _, h
  | .more (.keyword _) _, _, _, h | .more (.sign _) _, _, _, h => by cases h

theorem lambdaNames?_finds : ∀ tokens : Tokens, Finds headOf tokens (lambdaNames? tokens)
  | .done | .broken _ => .nothing
  | .more (.name text) .done => .nothing
  | .more (.name text) (.broken e) => .failure rfl
  | .more (.name text) (.more t after) => by
    cases t with
    | sign s =>
        cases s with
        | comma =>
            rw [lambdaNames?_comma_of]
            refine .ready rfl ((lambdaNames?_finds after).behind [.name text, .sign .comma]
              fun names rest h => ?_)
            cases names with
            | nil => exact absurd rfl (ne_nil_of_lambdaNames? h)
            | cons next names => rfl
        | rightParen =>
            rw [lambdaNames?_paren_of]
            exact .ready rfl (arrow?_finds [.name text, .sign .rightParen] [text] rfl after)
        | _ => exact .nothing
    | _ => exact .nothing
  | .more (.string _) _ | .more (.integer _) _ | .more (.long _) _ | .more (.float _) _
  | .more (.positional _) _ | .more (.named _) _ | .more (.keyword _) _ | .more (.sign _) _ =>
    .nothing

/-- The look-ahead behind an opening parenthesis finds the parameters of a lambda or nothing. -/
theorem lambdaHead?_finds (tokens : Tokens) : Finds headOf tokens (lambdaHead? tokens) := by
  have hnames := lambdaNames?_finds tokens
  cases tokens with
  | done | broken e => exact hnames
  | more t after =>
      cases t with
      | sign s =>
          cases s with
          | rightParen =>
              rw [lambdaHead?_paren_of]
              exact .ready rfl (arrow?_finds [.sign .rightParen] [] rfl after)
          | _ => exact hnames
      | _ => exact hnames

/-- The look-ahead for a named member finds its name or nothing. -/
theorem memberHead?_finds (tokens : Tokens) : Finds assignmentOf tokens (memberHead? tokens) := by
  cases tokens with
  | done | broken e => exact .nothing
  | more t after =>
      cases t with
      | name text =>
          cases after with
          | done => exact .nothing
          | broken e => exact .failure rfl
          | more u after =>
              cases u with
              | sign s =>
                  cases s with
                  | assign =>
                      cases after with
                      | broken e => exact .failure rfl
                      | done | more v us => exact .found rfl rfl
                  | _ => exact .nothing
              | _ => exact .nothing
      | _ => exact .nothing

/-! ### What is there is found

Unless the tokens are broken off behind it. -/

theorem lambdaNames?_prefixed {names : List String} (hne : names ≠ []) (rest : Tokens) :
    lambdaNames? (prefixed (headOf names) rest) = rest.ready.map fun us => some (names, us) := by
  induction names with
  | nil => exact absurd rfl hne
  | cons text names ih =>
      cases names with
      | nil =>
          show lambdaNames? (more (.name text) (more (.sign .rightParen)
            (more (.sign .arrow) rest))) = _
          rw [lambdaNames?_paren_of]
          cases rest <;> rfl
      | cons next names =>
          have hready : (prefixed (headOf (next :: names)) rest).ready =
              .ok (prefixed (headOf (next :: names)) rest) := by
            cases names <;> rfl
          show lambdaNames? (more (.name text) (more (.sign .comma)
            (prefixed (headOf (next :: names)) rest))) = _
          rw [lambdaNames?_comma_of, hready, ih (by simp)]
          cases rest <;> rfl

theorem lambdaHead?_prefixed (names : List String) (rest : Tokens) :
    lambdaHead? (prefixed (headOf names) rest) = rest.ready.map fun us => some (names, us) := by
  match names with
  | [] =>
      show lambdaHead? (more (.sign .rightParen) (more (.sign .arrow) rest)) = _
      rw [lambdaHead?_paren_of]
      cases rest <;> rfl
  | [text] => exact lambdaNames?_prefixed (by simp) rest
  | text :: next :: names => exact lambdaNames?_prefixed (by simp) rest

theorem memberHead?_prefixed (text : String) (rest : Tokens) :
    memberHead? (prefixed (assignmentOf text) rest) = rest.ready.map fun us => some (text, us) := by
  cases rest <;> rfl

/-! ### What the reading does -/

/-- A reading that depends on what a look-ahead matches.  What it matches is passed; where it
matches nothing the reading goes on with the tokens at which it began; and it fails if the tokens
that it looks at are broken off. -/
inductive LooksAhead {α β : Type} (front : α → List Token) (tokens : Tokens)
    (matched : α → Tokens → Reading β) (other : Tokens → Reading β) : Reading β → Prop
  | passes {a : α} {rest : Tokens} (h : tokens = prefixed (front a) rest)
      (hready : rest.ready = .ok rest) : LooksAhead front tokens matched other (matched a rest)
  | restores (h : ∀ a rest, tokens ≠ prefixed (front a) rest) :
      LooksAhead front tokens matched other (other tokens)
  | fails {e : SyntaxError} (h : tokens.error? = some e) :
      LooksAhead front tokens matched other (error e)

/-- The reading that does as a look-ahead says, where that finds all it matches. -/
theorem Finds.looksAhead {α β : Type} {front : α → List Token} {tokens : Tokens}
    {found : Except SyntaxError (Option (α × Tokens))} {matched : α → Tokens → Reading β}
    {other : Tokens → Reading β} (h : Finds front tokens found)
    (hall : ∀ a rest, tokens = prefixed (front a) rest →
      found = rest.ready.map fun us => some (a, us)) {r : Reading β}
    (herror : ∀ e, found = .error e → r = error e)
    (hmatched : ∀ a rest, found = .ok (some (a, rest)) → r = matched a rest)
    (hother : found = .ok none → r = other tokens) :
    LooksAhead front tokens matched other r := by
  cases h with
  | failure he =>
      rw [herror _ rfl]
      exact .fails he
  | found h hready =>
      rw [hmatched _ _ rfl]
      exact .passes h hready
  | nothing =>
      rw [hother rfl]
      refine .restores fun a rest h => ?_
      have hfound := hall a rest h
      cases rest <;> cases hfound

/-- Behind a value of a record that has not been named: the name it is given, or the one that it
brings. -/
def nameBehind (value : Term) (tokens : Tokens) : Reading (Option String × Term) :=
  match tokens with
  | .more (.keyword .asWord) rest =>
    after rest fun rest => expectName rest fun text rest => ok (some text, value) rest
  | _ => if value.memberName?.isSome then ok (none, value) tokens else error .unnamedMember

/-- **Behind an opening parenthesis** the parameters of a lambda are passed, and all else is read as
an expression from where it begins. -/
theorem primary_looksAhead (d : Nat) {tokens : Tokens} (h : tokens.ready = .ok tokens) :
    LooksAhead headOf tokens
      (fun names rest => (expression d 0 rest).andThen fun body rest => ok (lambda names body) rest)
      (fun tokens => (expression d 0 tokens).andThen fun inner rest =>
        expectSign .rightParen rest (ok inner))
      (primary (d + 1) (more (.sign .leftParen) tokens)) := by
  refine (lambdaHead?_finds tokens).looksAhead
    (fun names rest h => h ▸ lambdaHead?_prefixed names rest) ?_ ?_ ?_
  · intro e hfound
    simp only [primary, after, h, hfound]
  · intro names rest hfound
    simp only [primary, after, h, hfound]
  · intro hfound
    simp only [primary, after, h, hfound]

/-- **At a member of `new`** a name before `=` is passed, and all else is read as an expression from
where it begins. -/
theorem memberTerm_looksAhead (d : Nat) (tokens : Tokens) :
    LooksAhead assignmentOf tokens
      (fun text rest => (expression d 0 rest).andThen fun value rest => ok (some text, value) rest)
      (fun tokens => (expression d 0 tokens).andThen nameBehind)
      (memberTerm (d + 1) tokens) := by
  refine (memberHead?_finds tokens).looksAhead
    (fun text rest h => h ▸ memberHead?_prefixed text rest) ?_ ?_ ?_
  · intro e hfound
    simp only [memberTerm, hfound]
  · intro text rest hfound
    simp only [memberTerm, hfound]
  · intro hfound
    rw [memberTerm, hfound]
    rfl

end Term

end LambdaQuery
