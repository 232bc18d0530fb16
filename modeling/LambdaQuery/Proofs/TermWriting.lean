/-
**Writing terms as tokens.**  A term stands in a place that takes terms from a level of the table
on; a looser one is put between parentheses, and any one may be.  The table, from the loosest:

0. lambdas;
1. `? :`, whose first branch stands between the signs and takes any conditional;
2. `??`, to the right;
3. `||`; 4. `&&`; 5. `==` and `!=`; 6. `<`, `<=`, `>` and `>=`; 7. `+`, `-` and `&`; 8. `*`, `/` and
   `%`, all to the left;
9. `-` and `!` before an operand;
10. members and calls, and what needs no operand.

Main definitions:
* `Term.level` — the level of a term;
* `Term.Written` — the tokens that a term may be written as where a level is asked for;
* `Term.tokens` — the tokens of a term with no parentheses but those that the table asks for;
* `Term.Writable` — the terms that have a text;
* `Term.write` — the text of a term.

Main results:
* `Term.Writable.bare` — **a term may be written as its tokens**;
* `Term.Writable.tokens` — each of them has a spelling.
-/

import LambdaQuery.Proofs.TokenSpelling
import LambdaQuery.Term.Basic

namespace LambdaQuery

/-! ### The table -/

namespace BinaryOp

/-- The sign that an operator is written with. -/
def sign : BinaryOp → Sign
  | add => .plus
  | subtract => .minus
  | multiply => .star
  | divide => .slash
  | modulo => .percent
  | equal => .equal
  | notEqual => .notEqual
  | less => .less
  | lessEqual => .lessEqual
  | greater => .greater
  | greaterEqual => .greaterEqual
  | and => .and
  | or => .or
  | concat => .ampersand
  | coalesce => .coalesce

def level : BinaryOp → Nat
  | coalesce => 2
  | or => 3
  | and => 4
  | equal | notEqual => 5
  | less | lessEqual | greater | greaterEqual => 6
  | add | subtract | concat => 7
  | multiply | divide | modulo => 8

/-- The level asked of the left operand. -/
def leftLevel : BinaryOp → Nat
  | coalesce => coalesce.level + 1
  | op => op.level

/-- The level asked of the right operand. -/
def rightLevel : BinaryOp → Nat
  | coalesce => coalesce.level
  | op => op.level + 1

end BinaryOp

/-- The sign that an operator is written with. -/
def UnaryOp.sign : UnaryOp → Sign
  | negate => .minus
  | not => .not

namespace Level

/-- Where a lambda needs no parentheses: the whole text, an argument, the body of a lambda and the
value of a named member. -/
abbrev any : Nat := 0

abbrev choice : Nat := 1

abbrev leading : Nat := 9

abbrev operand : Nat := 10

end Level

namespace Term

def level : Term → Nat
  | lambda _ _ => Level.any
  | cond _ _ _ => Level.choice
  | binary op _ _ => op.level
  | unary _ _ => Level.leading
  | _ => Level.operand

/-! ### Terms as tokens -/

/-- The names of parameters, with commas between them. -/
def nameTokens : List String → List Token
  | [] => []
  | [text] => [.name text]
  | text :: next :: names => .name text :: .sign .comma :: nameTokens (next :: names)

mutual

/-- The tokens that a term may be written as where a level is asked for. -/
inductive Written : Nat → Term → List Token → Prop
  | bare {k : Nat} {t : Term} {ts : List Token} (hk : k ≤ t.level) (h : Bare t ts) : Written k t ts
  | parens {k : Nat} {t : Term} {ts : List Token} (h : Written Level.any t ts) :
      Written k t (.sign .leftParen :: (ts ++ [.sign .rightParen]))

/-- The tokens that a term may be written as without parentheses around it. -/
inductive Bare : Term → List Token → Prop
  | string (text : String) : Bare (.string text) [.string text]
  | integer (n : Nat) : Bare (.integer n) [.integer n]
  | long (n : Nat) : Bare (.long n) [.long n]
  | true : Bare (.bool Bool.true) [.keyword .trueWord]
  | false : Bare (.bool Bool.false) [.keyword .falseWord]
  | null : Bare .null [.keyword .nullWord]
  | name (text : String) : Bare (.name text) [.name text]
  | positional (index : Nat) : Bare (.positional index) [.positional index]
  | named (text : String) : Bare (.named text) [.named text]
  | member {target : Term} {ts : List Token} (name : String) (h : Written Level.operand target ts) :
      Bare (.member target name) (ts ++ [.sign .dot, .name name])
  | call {args : List Term} {us : List Token} (method : String) (ha : Arguments args us) :
      Bare (.call none method args) (.name method :: us)
  | methodCall {target : Term} {args : List Term} {ts us : List Token} (method : String)
      (ht : Written Level.operand target ts) (ha : Arguments args us) :
      Bare (.call (some target) method args) (ts ++ .sign .dot :: .name method :: us)
  | binary {op : BinaryOp} {lhs rhs : Term} {ts us : List Token}
      (hl : Written op.leftLevel lhs ts) (hr : Written op.rightLevel rhs us) :
      Bare (.binary op lhs rhs) (ts ++ .sign op.sign :: us)
  | unary {op : UnaryOp} {operand : Term} {ts : List Token} (h : Written Level.leading operand ts) :
      Bare (.unary op operand) (.sign op.sign :: ts)
  | cond {test ifTrue ifFalse : Term} {ts us vs : List Token}
      (ht : Written (Level.choice + 1) test ts) (hu : Written Level.choice ifTrue us)
      (hv : Written Level.choice ifFalse vs) :
      Bare (.cond test ifTrue ifFalse) (ts ++ .sign .question :: (us ++ .sign .colon :: vs))
  /-- One parameter needs no parentheses. -/
  | arrow {body : Term} {ts : List Token} (name : String) (h : Written Level.any body ts) :
      Bare (.lambda [name] body) (.name name :: .sign .arrow :: ts)
  | lambda {body : Term} {ts : List Token} (names : List String) (h : Written Level.any body ts) :
      Bare (.lambda names body)
        (.sign .leftParen :: (nameTokens names ++ .sign .rightParen :: .sign .arrow :: ts))
  | record {members : List (Option String × Term)} {ts : List Token} (h : Members members ts) :
      Bare (.record members) (.keyword .newWord :: .sign .leftParen :: (ts ++ [.sign .rightParen]))
  | recordInBraces {members : List (Option String × Term)} {ts : List Token}
      (h : Members members ts) :
      Bare (.record members) (.keyword .newWord :: .sign .leftBrace :: (ts ++ [.sign .rightBrace]))

/-- The arguments of a call, with their parentheses. -/
inductive Arguments : List Term → List Token → Prop
  | none : Arguments [] [.sign .leftParen, .sign .rightParen]
  | some {args : List Term} {ts : List Token} (h : Listed args ts) :
      Arguments args (.sign .leftParen :: (ts ++ [.sign .rightParen]))

/-- One or more terms, with commas between them. -/
inductive Listed : List Term → List Token → Prop
  | one {t : Term} {ts : List Token} (h : Written Level.any t ts) : Listed [t] ts
  | more {t : Term} {terms : List Term} {ts us : List Token} (h : Written Level.any t ts)
      (hs : Listed terms us) : Listed (t :: terms) (ts ++ .sign .comma :: us)

/-- One or more members of `new`, with commas between them. -/
inductive Members : List (Option String × Term) → List Token → Prop
  | one {m : Option String × Term} {ts : List Token} (h : Member m ts) : Members [m] ts
  | more {m : Option String × Term} {members : List (Option String × Term)} {ts us : List Token}
      (h : Member m ts) (hs : Members members us) :
      Members (m :: members) (ts ++ .sign .comma :: us)

/-- A member of `new`: its name before the value or after it, or no name where the value has one. -/
inductive Member : Option String × Term → List Token → Prop
  | assigned {value : Term} {ts : List Token} (name : String) (h : Written Level.any value ts) :
      Member (some name, value) (.name name :: .sign .assign :: ts)
  | renamed {value : Term} {ts : List Token} (name : String) (h : Written Level.any value ts) :
      Member (some name, value) (ts ++ [.keyword .asWord, .name name])
  | unnamed {value : Term} {ts : List Token} (hn : value.memberName?.isSome = Bool.true)
      (h : Written Level.any value ts) : Member (none, value) ts

end

/-! ### No more parentheses than needed -/

/-- The tokens of a term in a place that asks for a level. -/
def enclose (k : Nat) (t : Term) (ts : List Token) : List Token :=
  if k ≤ t.level then ts else .sign .leftParen :: (ts ++ [.sign .rightParen])

/-- A member of `new` from its name and the tokens of its value. -/
def memberTokens : Option String → List Token → List Token
  | some text, ts => .name text :: .sign .assign :: ts
  | none, ts => ts

/-- The parameters of a lambda, with parentheses unless there is just one. -/
def headTokens : List String → List Token
  | [text] => [.name text, .sign .arrow]
  | names => .sign .leftParen :: (nameTokens names ++ [.sign .rightParen, .sign .arrow])

mutual

/-- The tokens of a term, with parentheses only where the table asks for them. -/
def tokens : Term → List Token
  | .string text => [.string text]
  | .integer n => [.integer n]
  | .long n => [.long n]
  | .float x => [.float x]
  | .bool b => [.keyword (if b then .trueWord else .falseWord)]
  | .null => [.keyword .nullWord]
  | .name text => [.name text]
  | .positional index => [.positional index]
  | .named text => [.named text]
  | .member target text => enclose Level.operand target (tokens target) ++ [.sign .dot, .name text]
  | .call none method args =>
    .name method :: .sign .leftParen :: (listTokens args ++ [.sign .rightParen])
  | .call (some target) method args =>
    enclose Level.operand target (tokens target) ++
      .sign .dot :: .name method :: .sign .leftParen :: (listTokens args ++ [.sign .rightParen])
  | .binary op lhs rhs =>
    enclose op.leftLevel lhs (tokens lhs) ++
      .sign op.sign :: enclose op.rightLevel rhs (tokens rhs)
  | .unary op operand => .sign op.sign :: enclose Level.leading operand (tokens operand)
  | .cond test ifTrue ifFalse =>
    enclose (Level.choice + 1) test (tokens test) ++
      .sign .question :: (enclose Level.choice ifTrue (tokens ifTrue) ++
        .sign .colon :: enclose Level.choice ifFalse (tokens ifFalse))
  | .lambda names body => headTokens names ++ tokens body
  | .record members =>
    .keyword .newWord :: .sign .leftParen :: (recordTokens members ++ [.sign .rightParen])

/-- The tokens of terms, with commas between them. -/
def listTokens : List Term → List Token
  | [] => []
  | [t] => tokens t
  | t :: next :: terms => tokens t ++ .sign .comma :: listTokens (next :: terms)

/-- The tokens of the members of `new`, with commas between them. -/
def recordTokens : List (Option String × Term) → List Token
  | [] => []
  | [(text?, value)] => memberTokens text? (tokens value)
  | (text?, value) :: next :: members =>
    memberTokens text? (tokens value) ++ .sign .comma :: recordTokens (next :: members)

end

/-! ### Terms that have a text -/

/-- The terms that have a text: their numbers are small enough for a token, their names are names,
and `new` has members that have names. -/
inductive Writable : Term → Prop
  | string (text : String) : Writable (.string text)
  | integer {n : Nat} (hn : n < 2 ^ 63) : Writable (.integer n)
  | long {n : Nat} (hn : n < 2 ^ 63) : Writable (.long n)
  | bool (b : Bool) : Writable (.bool b)
  | null : Writable .null
  | name {text : String} (h : isName text = true) : Writable (.name text)
  | positional {index : Nat} (hn : index < 2 ^ 64) : Writable (.positional index)
  | named {text : String} (h : isWord text.toList = true) : Writable (.named text)
  | member {target : Term} {name : String} (ht : Writable target) (hn : isName name = true) :
      Writable (.member target name)
  | call {method : String} {args : List Term} (hn : isName method = true)
      (ha : ∀ t ∈ args, Writable t) : Writable (.call none method args)
  | methodCall {target : Term} {method : String} {args : List Term} (ht : Writable target)
      (hn : isName method = true) (ha : ∀ t ∈ args, Writable t) :
      Writable (.call (some target) method args)
  | binary {lhs rhs : Term} (op : BinaryOp) (hl : Writable lhs) (hr : Writable rhs) :
      Writable (.binary op lhs rhs)
  | unary {operand : Term} (op : UnaryOp) (h : Writable operand) : Writable (.unary op operand)
  | cond {test ifTrue ifFalse : Term} (ht : Writable test) (hu : Writable ifTrue)
      (hv : Writable ifFalse) : Writable (.cond test ifTrue ifFalse)
  | lambda {names : List String} {body : Term} (hn : ∀ name ∈ names, isName name = true)
      (h : Writable body) : Writable (.lambda names body)
  | record {members : List (Option String × Term)} (hne : members ≠ [])
      (hn : ∀ m ∈ members, ∀ name, m.1 = some name → isName name = true)
      (hv : ∀ m ∈ members, m.1 = none → m.2.memberName?.isSome = true)
      (hm : ∀ m ∈ members, Writable m.2) : Writable (.record members)

theorem Bare.written {t : Term} {ts : List Token} (h : Bare t ts) : Written Level.any t ts :=
  .bare (Nat.zero_le _) h

/-- What is put between parentheses where the table asks for them may stand in its place. -/
theorem Bare.enclose {t : Term} {ts : List Token} (h : Bare t ts) (k : Nat) :
    Written k t (enclose k t ts) := by
  rw [Term.enclose]
  split
  · next hk => exact .bare hk h
  · exact .parens h.written

theorem Listed.of_bare {terms : List Term} (hne : terms ≠ [])
    (h : ∀ t ∈ terms, Bare t (tokens t)) : Listed terms (listTokens terms) := by
  induction terms with
  | nil => exact absurd rfl hne
  | cons t terms ih =>
      have ht := (h t List.mem_cons_self).written
      cases terms with
      | nil =>
          rw [listTokens]
          exact .one ht
      | cons next terms =>
          rw [listTokens]
          exact .more ht (ih (by simp) fun u hu => h u (List.mem_cons_of_mem _ hu))

theorem Arguments.of_bare {args : List Term} (h : ∀ t ∈ args, Bare t (tokens t)) :
    Arguments args (.sign .leftParen :: (listTokens args ++ [.sign .rightParen])) := by
  cases args with
  | nil =>
      rw [listTokens]
      exact .none
  | cons t args => exact .some (Listed.of_bare (by simp) h)

theorem Members.of_bare {members : List (Option String × Term)} (hne : members ≠ [])
    (hv : ∀ m ∈ members, m.1 = none → m.2.memberName?.isSome = true)
    (h : ∀ m ∈ members, Bare m.2 (tokens m.2)) : Members members (recordTokens members) := by
  induction members with
  | nil => exact absurd rfl hne
  | cons m members ih =>
      obtain ⟨text?, value⟩ := m
      have hm : Member (text?, value) (memberTokens text? (tokens value)) := by
        have hw := (h _ List.mem_cons_self).written
        cases text? with
        | none => exact .unnamed (hv _ List.mem_cons_self rfl) hw
        | some text => exact .assigned text hw
      cases members with
      | nil =>
          rw [recordTokens]
          exact .one hm
      | cons next members =>
          rw [recordTokens]
          refine .more hm (ih (by simp) ?_ ?_)
          · exact fun m' hm' => hv m' (List.mem_cons_of_mem _ hm')
          · exact fun m' hm' => h m' (List.mem_cons_of_mem _ hm')

/-- **A term that has a text may be written as its tokens.** -/
theorem Writable.bare {t : Term} (h : Writable t) : Bare t (tokens t) := by
  induction h with
  | string text => exact .string text
  | integer => exact .integer _
  | long => exact .long _
  | bool b =>
      cases b with
      | true => exact .true
      | false => exact .false
  | null => exact .null
  | name => exact .name _
  | positional => exact .positional _
  | named => exact .named _
  | member _ _ ih =>
      rw [tokens]
      exact .member _ (ih.enclose _)
  | call _ _ ih =>
      rw [tokens]
      exact .call _ (.of_bare ih)
  | methodCall _ _ _ iht iha =>
      rw [tokens]
      exact .methodCall _ (iht.enclose _) (.of_bare iha)
  | binary op _ _ ihl ihr =>
      rw [tokens]
      exact .binary (ihl.enclose _) (ihr.enclose _)
  | unary op _ ih =>
      rw [tokens]
      exact .unary (ih.enclose _)
  | cond _ _ _ iht ihu ihv =>
      rw [tokens]
      exact .cond (iht.enclose _) (ihu.enclose _) (ihv.enclose _)
  | @lambda names body _ _ ih =>
      rw [tokens]
      match names with
      -- one parameter stands before the arrow on its own
      | [text] => exact .arrow text ih.written
      | [] => exact .lambda [] ih.written
      | first :: next :: names =>
          have := Bare.lambda (first :: next :: names) ih.written
          simpa [headTokens] using this
  | record hne _ hv _ ih =>
      rw [tokens]
      exact .record (.of_bare hne hv ih)

/-! ### Every token has a spelling -/

theorem writable_one {t : Token} (h : t.Writable) : ∀ u ∈ [t], u.Writable := by
  simpa using h

theorem writable_nameTokens {names : List String} (h : ∀ name ∈ names, isName name = true) :
    ∀ u ∈ nameTokens names, u.Writable := by
  fun_induction nameTokens names with
  | case1 => simp
  | case2 text => simpa [Token.Writable] using h
  | case3 text next names ih =>
      obtain ⟨ht, hn⟩ := List.forall_mem_cons.mp h
      simpa [Token.Writable, ht] using ih hn

theorem writable_enclose {t : Term} {ts : List Token} (k : Nat) (h : ∀ u ∈ ts, u.Writable) :
    ∀ u ∈ enclose k t ts, u.Writable := by
  rw [enclose]
  split
  · exact h
  · rw [List.forall_mem_cons, List.forall_mem_append]
    exact ⟨trivial, h, writable_one trivial⟩

theorem writable_listTokens {terms : List Term} (h : ∀ t ∈ terms, ∀ u ∈ tokens t, u.Writable) :
    ∀ u ∈ listTokens terms, u.Writable := by
  induction terms with
  | nil => simp [listTokens]
  | cons t terms ih =>
      obtain ⟨ht, hs⟩ := List.forall_mem_cons.mp h
      cases terms with
      | nil => simpa [listTokens] using ht
      | cons next terms =>
          rw [listTokens, List.forall_mem_append, List.forall_mem_cons]
          exact ⟨ht, trivial, ih hs⟩

theorem writable_recordTokens {members : List (Option String × Term)}
    (hn : ∀ m ∈ members, ∀ name, m.1 = some name → isName name = true)
    (h : ∀ m ∈ members, ∀ u ∈ tokens m.2, u.Writable) :
    ∀ u ∈ recordTokens members, u.Writable := by
  induction members with
  | nil => simp [recordTokens]
  | cons m members ih =>
      obtain ⟨text?, value⟩ := m
      obtain ⟨hv, hs⟩ := List.forall_mem_cons.mp h
      obtain ⟨hname, hnames⟩ := List.forall_mem_cons.mp hn
      have hm : ∀ u ∈ memberTokens text? (tokens value), u.Writable := by
        cases text? with
        | none => exact hv
        | some text =>
            rw [memberTokens, List.forall_mem_cons, List.forall_mem_cons]
            exact ⟨hname text rfl, trivial, hv⟩
      cases members with
      | nil => simpa [recordTokens] using hm
      | cons next members =>
          rw [recordTokens, List.forall_mem_append, List.forall_mem_cons]
          exact ⟨hm, trivial, ih hnames hs⟩

/-- **Each token of a term that has a text has a spelling.** -/
theorem Writable.tokens {t : Term} (h : Writable t) : ∀ u ∈ t.tokens, u.Writable := by
  induction h with
  | string text | bool b | null => simp [Term.tokens, Token.Writable]
  | integer h | long h | name h | positional h | named h => exact writable_one h
  | member _ hn ih =>
      simp only [Term.tokens, List.forall_mem_append, List.forall_mem_cons]
      exact ⟨writable_enclose _ ih, trivial, hn, by simp⟩
  | call hn _ ih =>
      simp only [Term.tokens, List.forall_mem_append, List.forall_mem_cons]
      exact ⟨hn, trivial, writable_listTokens ih, trivial, by simp⟩
  | methodCall _ hn _ iht iha =>
      simp only [Term.tokens, List.forall_mem_append, List.forall_mem_cons]
      exact ⟨writable_enclose _ iht, trivial, hn, trivial, writable_listTokens iha, trivial,
        by simp⟩
  | binary op _ _ ihl ihr =>
      simp only [Term.tokens, List.forall_mem_append, List.forall_mem_cons]
      exact ⟨writable_enclose _ ihl, trivial, writable_enclose _ ihr⟩
  | unary op _ ih =>
      simp only [Term.tokens, List.forall_mem_cons]
      exact ⟨trivial, writable_enclose _ ih⟩
  | cond _ _ _ iht ihu ihv =>
      simp only [Term.tokens, List.forall_mem_append, List.forall_mem_cons]
      exact ⟨writable_enclose _ iht, trivial, writable_enclose _ ihu, trivial,
        writable_enclose _ ihv⟩
  | @lambda names body hn _ ih =>
      have hh : ∀ u ∈ headTokens names, u.Writable := by
        match names with
        | [text] => simpa [headTokens, Token.Writable] using hn
        | [] => simp [headTokens, nameTokens, Token.Writable]
        | first :: next :: names =>
            simp only [headTokens, List.forall_mem_append, List.forall_mem_cons]
            exact ⟨trivial, writable_nameTokens hn, trivial, trivial, by simp⟩
      simp only [Term.tokens, List.forall_mem_append]
      exact ⟨hh, ih⟩
  | record _ hn _ _ ih =>
      simp only [Term.tokens, List.forall_mem_append, List.forall_mem_cons]
      exact ⟨trivial, trivial, writable_recordTokens hn ih, trivial, by simp⟩

/-- A term as text, with a space between two tokens. -/
def write (t : Term) : String := String.ofList (Tokens.write t.tokens)

example : write (.binary .subtract (.binary .subtract (.name "a") (.name "b"))
    (.binary .subtract (.name "c") (.name "d"))) = "a - b - ( c - d )" := by
  decide

end Term

end LambdaQuery
