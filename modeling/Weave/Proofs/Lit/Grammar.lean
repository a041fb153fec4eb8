import Mathlib.Data.List.Basic
import Weave.Lit.Parser

set_option autoImplicit false
set_option relaxedAutoImplicit false

/-!
# The grammar

Which sequences of tokens are programs, and which trees they stand for. Expressions come in layers,
from the conditional, which binds least, to the operators before an operand. Operators of one layer
group to the left.

## Main definitions

* `Weave.Lit.Symbol` — the symbols that expressions are derived from.
* `Weave.Lit.Phrase` — the expressions, with the tokens that they are derived from.
* `Weave.Lit.Clause`, `Weave.Lit.Clauses` — statements and programs.

## Main results

* `Weave.Lit.Phrase.loosen` — what is derived from a symbol is derived from all looser ones.
* `Weave.Lit.Phrase.mono` — what is nested little may be nested more.
* `Weave.Lit.Phrase.foldl_depthAfter` — parentheses are balanced in an expression.

## Design

Every derivation has a number: how deep expressions are nested in one another at most, where the
left operand of an operator and the condition of a conditional count as no deeper than the whole. A
tree keeps the stretch of code that it comes from, and the stretches of a whole are told by those of
its parts, so the tokens determine the tree to the last detail.
-/

namespace Weave.Lit

/-! ## Symbols -/

/-- The symbols that expressions are derived from, from the loosest to the tightest. -/
inductive Symbol where
  | expr
  | disjunction
  | conjunction
  | equality
  | comparison
  | additive
  | multiplicative
  | unary
  | primary
deriving DecidableEq

namespace Symbol

/-- The next tighter symbol. -/
def tighter? : Symbol → Option Symbol
  | expr => some disjunction
  | disjunction => some conjunction
  | conjunction => some equality
  | equality => some comparison
  | comparison => some additive
  | additive => some multiplicative
  | multiplicative => some unary
  | unary => some primary
  | primary => none

/-- The strength with which the operators of a symbol bind. -/
def strength : Symbol → Nat
  | expr => conditionalStrength
  | disjunction => 4
  | conjunction => 6
  | equality => 8
  | comparison => 10
  | additive => 12
  | multiplicative => 14
  | unary => unaryStrength
  | primary => 18

/-- The least strength of an operator that cannot follow a phrase of a symbol: it would have been a
part of the phrase. -/
def guard : Symbol → Nat
  | expr => conditionalStrength
  | s => s.strength + 1

/-- The next tighter symbol binds by two more. -/
lemma strength_of_tighter? {s t : Symbol} (h : s.tighter? = some t) :
    t.strength = s.strength + 2 := by
  cases s <;> cases h <;> rfl

/-- The strengths are even. -/
lemma strength_le_of_lt {s t : Symbol} (h : s.strength < t.strength) :
    s.strength + 2 ≤ t.strength := by
  cases s <;> cases t <;> revert h <;> decide

/-- If no symbol is tighter, then none is stronger. -/
lemma strength_le_of_tighter?_eq_none {s : Symbol} (h : s.tighter? = none) (t : Symbol) :
    t.strength ≤ s.strength := by
  cases s <;> cases h
  cases t <;> decide

/-- There is one symbol for each strength. -/
lemma eq_of_strength_eq {s t : Symbol} (h : s.strength = t.strength) : s = t := by
  cases s <;> cases t <;> first | rfl | cases h

/-- The loosest symbol. -/
lemma strength_expr_le (s : Symbol) : expr.strength ≤ s.strength := by
  cases s <;> decide

/-- The tightest symbol. -/
lemma strength_le_primary (s : Symbol) : s.strength ≤ primary.strength := by
  cases s <;> decide

/-- The guard of a tighter symbol is no less. -/
lemma guard_le_of_tighter? {s t : Symbol} (h : s.tighter? = some t) : s.guard ≤ t.guard := by
  cases s <;> cases h <;> decide

end Symbol

/-! ## Operators -/

/-- The token of an operator before an operand. -/
def UnaryOp.token : UnaryOp → Token
  | negation => .minus
  | logicalNot => .bang

namespace BinaryOp

/-- The token of an operator between operands. -/
def token : BinaryOp → Token
  | addition => .plus
  | subtraction => .minus
  | multiplication => .star
  | division => .slash
  | modulo => .percent
  | equality => .eqEq
  | inequality => .bangEq
  | greaterThan => .gt
  | lessThan => .lt
  | greaterThanOrEqual => .gtEq
  | lessThanOrEqual => .ltEq
  | logicalAnd => .ampAmp
  | logicalOr => .pipePipe

/-- The symbol whose phrases an operator forms. -/
def symbol : BinaryOp → Symbol
  | logicalOr => .disjunction
  | logicalAnd => .conjunction
  | equality | inequality => .equality
  | greaterThan | lessThan | greaterThanOrEqual | lessThanOrEqual => .comparison
  | addition | subtraction => .additive
  | multiplication | division | modulo => .multiplicative

/-- The symbol of the right operand of an operator, which binds more tightly. -/
def rightSymbol : BinaryOp → Symbol
  | logicalOr => .conjunction
  | logicalAnd => .equality
  | equality | inequality => .comparison
  | greaterThan | lessThan | greaterThanOrEqual | lessThanOrEqual => .additive
  | addition | subtraction => .multiplicative
  | multiplication | division | modulo => .unary

/-- The right operand of an operator is of the next tighter symbol. -/
lemma tighter?_symbol (op : BinaryOp) : op.symbol.tighter? = some op.rightSymbol := by
  cases op <;> rfl

/-- A token that is read as an operator is the token of this operator. -/
lemma token_of_ofToken? {t : Token} {op : BinaryOp} (h : ofToken? t = some op) : t = op.token := by
  cases t <;> cases h <;> rfl

/-- The symbol of an operator is as strong as the operator. -/
@[simp] lemma strength_symbol (op : BinaryOp) : op.symbol.strength = op.strength := by
  cases op <;> rfl

/-- The guard of the symbol of an operator is one more than its strength. -/
@[simp] lemma guard_symbol (op : BinaryOp) : op.symbol.guard = op.strength + 1 := by
  cases op <;> rfl

/-- No binary operator is stronger than multiplication. -/
lemma strength_le (op : BinaryOp) : op.strength ≤ 14 := by
  cases op <;> decide

/-- Every binary operator is stronger than the conditional. -/
lemma two_lt_strength (op : BinaryOp) : 2 < op.strength := by
  cases op <;> decide

end BinaryOp

/-! ## Phrases -/

/-- An argument of a call that stands behind a comma. -/
structure FurtherArgument where
  comma : Span
  tokens : List Placed
  value : Expr

/-- The tokens of an argument with the comma before it. -/
def FurtherArgument.placed (a : FurtherArgument) : List Placed :=
  ⟨.comma, a.comma⟩ :: a.tokens

/-- The expressions without parts, with their tokens. -/
inductive Atom : List Placed → Expr → Prop where
  | number (place : Span) (x : Float) : Atom [⟨.number x, place⟩] (.number place x)
  | string (place : Span) (t : Text) : Atom [⟨.string t, place⟩] (.string place t)
  | true (place : Span) : Atom [⟨.true, place⟩] (.boolean place true)
  | false (place : Span) : Atom [⟨.false, place⟩] (.boolean place false)
  | unit (place : Span) : Atom [⟨.unit, place⟩] (.unit place)
  | emptyParens (opening close : Span) :
      Atom [⟨.lParen, opening⟩, ⟨.rParen, close⟩] (.unit ⟨opening.start, close.stop⟩)
  | ident (place : Span) (name : Text) : Atom [⟨.ident name, place⟩] (.ident place name)
  | callUnit (place close : Span) (name : Text) :
      Atom [⟨.ident name, place⟩, ⟨.unit, close⟩] (.call ⟨place.start, close.stop⟩ name [])
  | callNone (place opening close : Span) (name : Text) :
      Atom [⟨.ident name, place⟩, ⟨.lParen, opening⟩, ⟨.rParen, close⟩]
        (.call ⟨place.start, close.stop⟩ name [])

/-- **The expressions** that are derived from a symbol, with their tokens, where the number bounds
how deep expressions are nested. -/
inductive Phrase : Nat → Symbol → List Placed → Expr → Prop where
  | tighter {depth : Nat} {s t : Symbol} {ts : List Placed} {e : Expr} (next : s.tighter? = some t)
      (phrase : Phrase depth t ts e) : Phrase depth s ts e
  | conditional {depth : Nat} {cs ys ns : List Placed} {c y n : Expr} (question colon : Span)
      (condition : Phrase (depth + 1) .disjunction cs c) (yes : Phrase depth .expr ys y)
      (no : Phrase depth .expr ns n) :
      Phrase (depth + 1) .expr (cs ++ ⟨.question, question⟩ :: (ys ++ ⟨.colon, colon⟩ :: ns))
        (.conditional ⟨c.span.start, n.span.stop⟩ c y n)
  | binary {depth : Nat} {ls rs : List Placed} {l r : Expr} (op : BinaryOp) (place : Span)
      (left : Phrase (depth + 1) op.symbol ls l) (right : Phrase depth op.rightSymbol rs r) :
      Phrase (depth + 1) op.symbol (ls ++ ⟨op.token, place⟩ :: rs)
        (.binary ⟨l.span.start, r.span.stop⟩ op l r)
  | unary {depth : Nat} {ts : List Placed} {e : Expr} (op : UnaryOp) (place : Span)
      (operand : Phrase depth .unary ts e) :
      Phrase (depth + 1) .unary (⟨op.token, place⟩ :: ts) (.unary ⟨place.start, e.span.stop⟩ op e)
  | atom {ts : List Placed} {e : Expr} (depth : Nat) (atom : Atom ts e) :
      Phrase (depth + 1) .primary ts e
  | call {depth : Nat} {first : List Placed} {e : Expr} (place opening close : Span) (name : Text)
      (more : List FurtherArgument) (argument : Phrase depth .expr first e)
      (arguments : ∀ a ∈ more, Phrase depth .expr a.tokens a.value) :
      Phrase (depth + 1) .primary
        (⟨.ident name, place⟩ :: ⟨.lParen, opening⟩ ::
          (first ++ (more.flatMap FurtherArgument.placed ++ [⟨.rParen, close⟩])))
        (.call ⟨place.start, close.stop⟩ name (e :: more.map FurtherArgument.value))
  | parens {depth : Nat} {ts : List Placed} {e : Expr} (opening close : Span)
      (inner : Phrase depth .expr ts e) :
      Phrase (depth + 1) .primary (⟨.lParen, opening⟩ :: (ts ++ [⟨.rParen, close⟩]))
        (e.withSpan ⟨opening.start, close.stop⟩)

/-- **The statements**, with their tokens. -/
inductive Clause (depth : Nat) : List Placed → Statement → Prop where
  | assign {ts : List Placed} {e : Expr} (place eq : Span) (name : Text)
      (value : Phrase depth .expr ts e) :
      Clause depth (⟨.ident name, place⟩ :: ⟨.eq, eq⟩ :: ts)
        (.assign ⟨place.start, e.span.stop⟩ name e)
  | expression {ts : List Placed} {e : Expr} (value : Phrase depth .expr ts e) :
      Clause depth ts (.expression e)

/-- **The programs**, with their tokens: statements with one or more separators between them, and
any number of separators before and after them. -/
inductive Clauses (depth : Nat) : List Placed → Program → Prop where
  | nil : Clauses depth [] []
  | separator {ts : List Placed} {program : Program} (place : Span)
      (rest : Clauses depth ts program) : Clauses depth (⟨.separator, place⟩ :: ts) program
  | last {ts : List Placed} {s : Statement} (clause : Clause depth ts s) : Clauses depth ts [s]
  | statement {ts more : List Placed} {s : Statement} {program : Program} (place : Span)
      (clause : Clause depth ts s) (rest : Clauses depth more program) :
      Clauses depth (ts ++ ⟨.separator, place⟩ :: more) (s :: program)

/-! ## Looser and deeper phrases -/

section

variable {depth : Nat} {s : Symbol} {ts : List Placed} {e : Expr}

/-- **What is derived from a symbol** is derived from all looser ones. -/
theorem Phrase.loosen (h : Phrase depth s ts e) {t : Symbol} (hts : t.strength ≤ s.strength) :
    Phrase depth t ts e := by
  induction hn : s.strength - t.strength using Nat.strongRecOn generalizing t with
  | ind n ih =>
    rcases Nat.lt_or_ge t.strength s.strength with hlt | hge
    · cases hnext : t.tighter? with
      | none =>
        have := Symbol.strength_le_of_tighter?_eq_none hnext s
        omega
      | some u =>
        have hu := Symbol.strength_of_tighter? hnext
        have hle := Symbol.strength_le_of_lt hlt
        exact .tighter hnext (ih _ (by omega) (by omega) rfl)
    · exact Symbol.eq_of_strength_eq (Nat.le_antisymm hts hge) ▸ h

/-- **What is nested little** may be nested more.

**Proof sketch.** Induction on the derivation. A rule that takes a level takes it from the greater
depth too. -/
theorem Phrase.mono (h : Phrase depth s ts e) {more : Nat} (hmore : depth ≤ more) :
    Phrase more s ts e := by
  induction h generalizing more with
  | tighter next _ ih => exact .tighter next (ih hmore)
  | conditional question colon _ _ _ ihc ihy ihn =>
    obtain ⟨k, rfl⟩ := Nat.exists_eq_add_of_le' (Nat.le_of_add_left_le hmore)
    exact .conditional question colon (ihc hmore) (ihy (by omega)) (ihn (by omega))
  | binary op place _ _ ihl ihr =>
    obtain ⟨k, rfl⟩ := Nat.exists_eq_add_of_le' (Nat.le_of_add_left_le hmore)
    exact .binary op place (ihl hmore) (ihr (by omega))
  | unary op place _ ih =>
    obtain ⟨k, rfl⟩ := Nat.exists_eq_add_of_le' (Nat.le_of_add_left_le hmore)
    exact .unary op place (ih (by omega))
  | atom _ h =>
    obtain ⟨k, rfl⟩ := Nat.exists_eq_add_of_le' (Nat.le_of_add_left_le hmore)
    exact .atom k h
  | call place opening close name arguments _ _ ih ihs =>
    obtain ⟨k, rfl⟩ := Nat.exists_eq_add_of_le' (Nat.le_of_add_left_le hmore)
    exact .call place opening close name arguments (ih (by omega)) fun a ha => ihs a ha (by omega)
  | parens opening close _ ih =>
    obtain ⟨k, rfl⟩ := Nat.exists_eq_add_of_le' (Nat.le_of_add_left_le hmore)
    exact .parens opening close (ih (by omega))

/-! ## The tokens of a phrase -/

/-- The first token of an atom. -/
lemma Atom.head (h : Atom ts e) : ∃ p more, ts = p :: more ∧ p.token ≠ .rParen := by
  cases h <;> exact ⟨_, _, rfl, nofun⟩

/-- **A phrase has a first token**, which is no closing parenthesis. -/
theorem Phrase.head (h : Phrase depth s ts e) : ∃ p more, ts = p :: more ∧ p.token ≠ .rParen := by
  induction h with
  | tighter _ _ ih => exact ih
  | conditional _ _ _ _ _ ih =>
    obtain ⟨p, more, rfl, hp⟩ := ih
    exact ⟨p, _, rfl, hp⟩
  | binary _ _ _ _ ih =>
    obtain ⟨p, more, rfl, hp⟩ := ih
    exact ⟨p, _, rfl, hp⟩
  | unary op => exact ⟨_, _, rfl, by cases op <;> nofun⟩
  | atom _ h => exact h.head
  | call => exact ⟨_, _, rfl, nofun⟩
  | parens => exact ⟨_, _, rfl, nofun⟩

/-- The tokens that belong to statements and not to expressions. -/
def Token.isOfStatements : Token → Bool
  | .eq => Bool.true
  | .separator => Bool.true
  | _ => Bool.false

/-- **No token of a phrase** belongs to statements.

**Proof sketch.** Induction on the derivation. The tokens of the parts are none by induction, and
the tokens that each rule adds are none either. -/
theorem Phrase.isOfStatements_eq_false (h : Phrase depth s ts e) :
    ∀ p ∈ ts, p.token.isOfStatements = false := by
  induction h with
  | tighter _ _ ih => exact ih
  | conditional question colon _ _ _ ihc ihy ihn =>
    simp only [List.forall_mem_append, List.forall_mem_cons]
    exact ⟨ihc, rfl, ihy, rfl, ihn⟩
  | binary op place _ _ ihl ihr =>
    simp only [List.forall_mem_append, List.forall_mem_cons]
    exact ⟨ihl, by cases op <;> rfl, ihr⟩
  | unary op place _ ih =>
    simp only [List.forall_mem_cons]
    exact ⟨by cases op <;> rfl, ih⟩
  | atom _ h => cases h <;> simp [Token.isOfStatements]
  | call place opening close name arguments _ _ ih ihs =>
    simp only [List.forall_mem_append, List.forall_mem_cons]
    refine ⟨rfl, rfl, ih, fun p hp => ?_, rfl, List.forall_mem_nil _⟩
    obtain ⟨a, ha, hp⟩ := List.mem_flatMap.1 hp
    rcases List.mem_cons.1 hp with rfl | hp
    · rfl
    · exact ihs a ha p hp
  | parens opening close _ ih =>
    simp only [List.forall_mem_append, List.forall_mem_cons]
    exact ⟨rfl, ih, rfl, List.forall_mem_nil _⟩

/-- **Parentheses are balanced** in an expression.

**Proof sketch.** Induction on the derivation. Parts leave the depth as it is, and so do the tokens
between them; a rule with an opening parenthesis has the closing one too. Over further arguments
there is an induction of its own. -/
theorem Phrase.foldl_depthAfter (h : Phrase depth s ts e) (n : Nat) :
    (ts.map Placed.token).foldl depthAfter n = n := by
  induction h generalizing n with
  | tighter _ _ ih => exact ih n
  | conditional question colon _ _ _ ihc ihy ihn =>
    simp only [List.map_append, List.map_cons, List.foldl_append, List.foldl_cons, ihc, depthAfter,
      ihy, ihn]
  | binary op place _ _ ihl ihr =>
    have hop : depthAfter n op.token = n := by cases op <;> rfl
    simp only [List.map_append, List.map_cons, List.foldl_append, List.foldl_cons, ihl, hop, ihr]
  | unary op place _ ih =>
    have hop : depthAfter n op.token = n := by cases op <;> rfl
    simp only [List.map_cons, List.foldl_cons, hop, ih]
  | atom _ h => cases h <;> simp [depthAfter]
  | call place opening close name arguments _ harguments ih ihs =>
    clear harguments
    have hmore : ∀ m, ((arguments.flatMap FurtherArgument.placed).map Placed.token).foldl
        depthAfter m = m := by
      intro m
      induction arguments with
      | nil => rfl
      | cons a more ihmore =>
        rw [List.forall_mem_cons] at ihs
        simp only [List.flatMap_cons, FurtherArgument.placed, List.map_append, List.map_cons,
          List.foldl_append, List.foldl_cons, depthAfter, ihs.1]
        exact ihmore ihs.2
    simp only [List.map_append, List.map_cons, List.map_nil, List.foldl_append, List.foldl_cons,
      List.foldl_nil, depthAfter, ih, hmore, Nat.add_sub_cancel]
  | parens opening close _ ih =>
    simp only [List.map_append, List.map_cons, List.map_nil, List.foldl_append, List.foldl_cons,
      List.foldl_nil, depthAfter, ih, Nat.add_sub_cancel]

end

end Weave.Lit
