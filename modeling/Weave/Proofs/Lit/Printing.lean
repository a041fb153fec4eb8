import Weave.Proofs.Lit.Height
import Weave.Proofs.Lit.Pieces

set_option autoImplicit false
set_option relaxedAutoImplicit false

/-!
# Printing

A program can be printed, every statement on a line of its own, with any blanks between the tokens
and with parentheses only where they are needed: around an operand that binds less than its place
asks for.

## Main definitions

* `Weave.Lit.Expr.bare`, `Weave.Lit.Statement.bare` — a tree without the places of its parts.
* `Weave.Lit.Term`, `Weave.Lit.Line` — expressions and statements with the spelling of their names
  and numbers.
* `Weave.Lit.Term.pieces` — the tokens of an expression, with parentheses where they are needed.
* `Weave.Lit.print` — the code of some statements.

## Main results

* `Weave.Lit.Term.isOperand` — the tokens of an expression are apart.
* `Weave.Lit.Line.isChain` — the tokens of a line are apart.
-/

namespace Weave.Lit

/-! ## Trees without places -/

/-- **An expression without places**: all offsets are zero. -/
def Expr.bare (e : Expr) : Expr :=
  e.mapOffsets fun _ => 0

/-- **A statement without places**: all offsets are zero. -/
def Statement.bare (s : Statement) : Statement :=
  s.mapOffsets fun _ => 0

/-- The place of a part of a tree without places. -/
def nowhere : Span :=
  ⟨0, 0⟩

/-- Moving a statement makes no difference to it without its spans. -/
lemma Statement.bare_mapOffsets (f : Nat → Nat) (s : Statement) :
    (s.mapOffsets f).bare = s.bare :=
  s.mapOffsets_mapOffsets _

/-! ## Terms -/

/-- **An expression with the spelling** of its names and numbers. -/
inductive Term where
  | number (n : Numeral)
  | string (t : Text)
  | boolean (b : Bool)
  | unit
  | ident (name : Name)
  | unary (op : UnaryOp) (operand : Term)
  | binary (op : BinaryOp) (left right : Term)
  | conditional (condition yes no : Term)
  | call (name : Name) (arguments : List Term)

/-- Pieces that bind like a symbol, in parentheses if their place needs a tighter one. -/
def enclosed (s needed : Symbol) (ps : List Piece) : List Piece :=
  if s.strength < needed.strength then .lParen :: (ps ++ [.rParen]) else ps

/-- The pieces of the arguments of a call. -/
def argumentPieces : List (List Piece) → List Piece
  | [] => [.unit]
  | first :: more => .lParen :: (first ++ more.flatMap (.comma :: ·) ++ [.rParen])

/-- How deep an expression is nested, in parentheses if its place needs a tighter symbol. -/
def enclosedDepth (s needed : Symbol) (depth : Nat) : Nat :=
  if s.strength < needed.strength then depth + 1 else depth

namespace Term

/-- Induction on terms, where a claim about a call may use it for all arguments. -/
@[elab_as_elim]
theorem induction {motive : Term → Prop}
    (number : ∀ n, motive (.number n))
    (string : ∀ t, motive (.string t))
    (boolean : ∀ b, motive (.boolean b))
    (unit : motive .unit)
    (ident : ∀ name, motive (.ident name))
    (unary : ∀ op operand, motive operand → motive (.unary op operand))
    (binary : ∀ op left right, motive left → motive right → motive (.binary op left right))
    (conditional : ∀ condition yes no, motive condition → motive yes → motive no →
      motive (.conditional condition yes no))
    (call : ∀ name arguments, (∀ a ∈ arguments, motive a) → motive (.call name arguments))
    (t : Term) : motive t :=
  @Term.rec motive (fun ts => ∀ a ∈ ts, motive a) number string boolean unit ident unary binary
    conditional call (List.forall_mem_nil _) (fun _ _ h hs => List.forall_mem_cons.2 ⟨h, hs⟩) t

/-- The expression of a term, without places. -/
def expr : Term → Expr
  | number n => .number nowhere n.value
  | string t => .string nowhere t
  | boolean b => .boolean nowhere b
  | unit => .unit nowhere
  | ident name => .ident nowhere name.text
  | unary op operand => .unary nowhere op operand.expr
  | binary op left right => .binary nowhere op left.expr right.expr
  | conditional condition yes no => .conditional nowhere condition.expr yes.expr no.expr
  | call name arguments => .call nowhere name.text (arguments.map expr)

/-- **The pieces of a term** in a place that needs a symbol. -/
def pieces (needed : Symbol) : Term → List Piece
  | number n => [n.piece]
  | string t => [.string t]
  | boolean b => [.boolean b]
  | unit => [.unit]
  | ident name => [name.piece]
  | unary op operand => enclosed .unary needed (op.piece :: operand.pieces .unary)
  | binary op left right =>
    enclosed op.symbol needed (left.pieces op.symbol ++ op.piece :: right.pieces op.rightSymbol)
  | conditional condition yes no =>
    enclosed .expr needed (condition.pieces .disjunction ++
      .question :: (yes.pieces .expr ++ .colon :: no.pieces .expr))
  | call name arguments => name.piece :: argumentPieces (arguments.map (pieces .expr))

/-- How deep the pieces of a term are nested in a place that needs a symbol. -/
def depth (needed : Symbol) : Term → Nat
  | unary _ operand => enclosedDepth .unary needed (operand.depth .unary + 1)
  | binary op left right =>
    enclosedDepth op.symbol needed (max (left.depth op.symbol) (right.depth op.rightSymbol + 1))
  | conditional condition yes no =>
    enclosedDepth .expr needed (max (condition.depth .disjunction)
      (max (yes.depth .expr) (no.depth .expr) + 1))
  | call _ arguments => greatest (arguments.map (depth .expr)) + 1
  | _ => 1

end Term

/-- **A statement with the spelling** of its names and numbers. -/
inductive Line where
  | assign (name : Name) (value : Term)
  | expression (value : Term)

namespace Line

/-- The statement of a line, without places. -/
def statement : Line → Statement
  | assign name value => .assign nowhere name.text value.expr
  | expression value => .expression value.expr

/-- The pieces of a line. -/
def pieces : Line → List Piece
  | assign name value => name.piece :: .eq :: value.pieces .expr
  | expression value => value.pieces .expr

/-- The expression of a line. -/
def value : Line → Term
  | assign _ value => value
  | expression value => value

end Line

/-- **The code of some statements**, every one on a line of its own, with the given blanks. -/
def print (blanks : Nat → Nat → Blanks) : List Line → Text
  | [] => []
  | line :: lines =>
    spell (blanks 0) line.pieces ++ '\n' :: print (fun n => blanks (n + 1)) lines

/-! ## Neighbours are apart -/

/-- A character that an expression can begin with, as far as the symbol before it is concerned. -/
def Opens (c : Char) : Prop :=
  c ≠ '=' ∧ c ≠ ')'

/-- A character that no name and no number goes on with. -/
def Closes (c : Char) : Prop :=
  isNameChar c = false ∧ isNumberChar c = false

/-- The tokens that are names, numbers or truth values. -/
def Token.isWord : Token → Bool
  | .number _ | .ident _ | .true | .false => Bool.true
  | _ => Bool.false

/-- The tokens that can go on with an equals sign or a closing parenthesis. -/
def Token.isShort : Token → Bool
  | .eq | .bang | .gt | .lt | .lParen => Bool.true
  | _ => Bool.false

/-- A token that is no word does not go on with a character that an expression begins with. -/
lemma continues_of_opens {k : Token} (hk : k.isWord = false) {c : Char} (hc : Opens c) :
    k.continues c = false := by
  obtain ⟨heq, hparen⟩ := hc
  cases k <;> first | rfl | simpa [Token.continues] | simp [Token.isWord] at hk

/-- A token that is not short does not go on with a character that closes it. -/
lemma continues_of_closes {k : Token} (hk : k.isShort = false) {c : Char} (hc : Closes c) :
    k.continues c = false := by
  cases k <;> first | rfl | exact hc.1 | exact hc.2 | simp [Token.isShort] at hk

/-- A class of characters that expressions begin with. -/
lemma opens_of {p : Char → Bool} (heq : p '=' = false) (hparen : p ')' = false) {c : Char}
    (hc : p c = true) : Opens c := by
  constructor <;> rintro rfl <;> simp_all

/-- **Pieces that can stand as an operand**: they begin like an expression, and they are apart, also
from what can stand after an operand. -/
structure IsOperand (ps : List Piece) : Prop where
  head : ∃ p more, ps = p :: more ∧ Opens p.first
  chain : ∀ rest : List Piece, rest.IsChain Piece.Apart → (∀ p ∈ rest.head?, Closes p.first) →
    (ps ++ rest).IsChain Piece.Apart

namespace IsOperand

variable {ps qs rest : List Piece}

/-- An operand after a piece that is no word. -/
lemma chain_cons (h : IsOperand ps) {p : Piece} (hp : p.token.isWord = false)
    (hrest : rest.IsChain Piece.Apart) (hcloses : ∀ q ∈ rest.head?, Closes q.first) :
    (p :: (ps ++ rest)).IsChain Piece.Apart := by
  refine List.isChain_cons.2 ⟨?_, h.chain rest hrest hcloses⟩
  obtain ⟨q, more, rfl, hq⟩ := h.head
  rintro _ ⟨⟩
  exact continues_of_opens hp hq

/-- A single piece is an operand if an expression can begin with it. -/
lemma single {p : Piece} (hopens : Opens p.first) (hp : p.token.isShort = false) :
    IsOperand [p] where
  head := ⟨p, [], rfl, hopens⟩
  chain _ hrest hcloses :=
    List.isChain_cons.2 ⟨fun q hq => continues_of_closes hp (hcloses q hq), hrest⟩

/-- An operand with a piece before it that is no word is an operand. -/
lemma cons (h : IsOperand ps) {p : Piece} (hopens : Opens p.first) (hp : p.token.isWord = false) :
    IsOperand (p :: ps) where
  head := ⟨p, ps, rfl, hopens⟩
  chain _ hrest hcloses := h.chain_cons hp hrest hcloses

/-- Two operands with a piece between them are an operand. -/
lemma append (h : IsOperand ps) {q : Piece} (hq : Closes q.first) (hword : q.token.isWord = false)
    (h' : IsOperand qs) : IsOperand (ps ++ q :: qs) where
  head := by
    obtain ⟨p, more, rfl, hp⟩ := h.head
    exact ⟨p, _, rfl, hp⟩
  chain _ hrest hcloses := by
    rw [List.append_assoc, List.cons_append]
    refine h.chain _ (h'.chain_cons hword hrest hcloses) ?_
    rintro _ ⟨⟩
    exact hq

/-- An operand in parentheses is an operand. -/
lemma parens (h : IsOperand ps) : IsOperand (.lParen :: (ps ++ [.rParen])) where
  head := ⟨_, _, rfl, by decide, by decide⟩
  chain _ hrest hcloses := by
    rw [List.cons_append, List.append_assoc, List.singleton_append]
    refine h.chain_cons rfl ?_ ?_
    · exact List.isChain_cons.2 ⟨fun q hq => continues_of_closes rfl (hcloses q hq), hrest⟩
    · rintro _ ⟨⟩
      exact ⟨rfl, rfl⟩

/-- An operand is one whether it is put in parentheses or not. -/
lemma enclosed (h : IsOperand ps) (s needed : Symbol) : IsOperand (enclosed s needed ps) := by
  unfold Lit.enclosed
  split
  · exact h.parens
  · exact h

/-- Operands with commas between them are an operand. -/
lemma flatMap_comma (h : IsOperand ps) {more : List (List Piece)}
    (hmore : ∀ qs ∈ more, IsOperand qs) : IsOperand (ps ++ more.flatMap (.comma :: ·)) := by
  induction more generalizing ps with
  | nil => rwa [List.flatMap_nil, List.append_nil]
  | cons qs more ih =>
    rw [List.forall_mem_cons] at hmore
    rw [List.flatMap_cons, ← List.append_assoc]
    exact ih (h.append ⟨rfl, rfl⟩ rfl hmore.1) hmore.2

end IsOperand

/-- An expression can begin with a name. -/
lemma Name.opens (name : Name) : Opens name.piece.first :=
  opens_of (by decide) (by decide) name.isNameStart_first

/-- The pieces of a call are those of an operand.

**Proof sketch.** The arguments with commas between them, in their parentheses, are pieces of an
operand, and the first one closes a name. -/
lemma isOperand_call (name : Name) {arguments : List (List Piece)}
    (h : ∀ ps ∈ arguments, IsOperand ps) : IsOperand (name.piece :: argumentPieces arguments) := by
  have hopening : IsOperand (argumentPieces arguments) ∧
      ∀ p ∈ (argumentPieces arguments).head?, Closes p.first := by
    cases arguments with
    | nil =>
      refine ⟨.single ⟨by decide, by decide⟩ rfl, ?_⟩
      rintro _ ⟨⟩
      exact ⟨rfl, rfl⟩
    | cons first more =>
      rw [List.forall_mem_cons] at h
      refine ⟨(h.1.flatMap_comma h.2).parens, ?_⟩
      rintro _ ⟨⟩
      exact ⟨rfl, rfl⟩
  obtain ⟨hoperand, hcloses⟩ := hopening
  refine ⟨⟨_, _, rfl, name.opens⟩, fun rest hrest hrestCloses => ?_⟩
  refine List.isChain_cons.2 ⟨?_, hoperand.chain rest hrest hrestCloses⟩
  obtain ⟨p, ps, hps, -⟩ := hoperand.head
  rw [hps] at hcloses ⊢
  rintro _ ⟨⟩
  exact continues_of_closes rfl (hcloses p rfl)

/-- **The pieces of a term** are those of an operand.

**Proof sketch.** Induction on the term. The pieces of a term are those of its parts with signs
between them, and parentheses around them keep what they begin and end with. -/
theorem Term.isOperand (t : Term) (needed : Symbol) : IsOperand (t.pieces needed) := by
  induction t using Term.induction generalizing needed with
  | number n =>
    rw [pieces]
    exact .single (opens_of (by decide) (by decide) n.isDigit_first) rfl
  | string t =>
    rw [pieces]
    exact .single (show Opens '"' from ⟨by decide, by decide⟩) rfl
  | boolean b =>
    rw [pieces]
    cases b <;> exact .single ⟨by decide, by decide⟩ rfl
  | unit =>
    rw [pieces]
    exact .single ⟨by decide, by decide⟩ rfl
  | ident name =>
    rw [pieces]
    exact .single name.opens rfl
  | unary op operand ih =>
    rw [pieces]
    cases op <;> exact ((ih _).cons ⟨by decide, by decide⟩ rfl).enclosed _ _
  | binary op left right ihl ihr =>
    rw [pieces]
    cases op <;> exact ((ihl _).append ⟨rfl, rfl⟩ rfl (ihr _)).enclosed _ _
  | conditional condition yes no ihc ihy ihn =>
    rw [pieces]
    exact ((ihc _).append ⟨rfl, rfl⟩ rfl ((ihy _).append ⟨rfl, rfl⟩ rfl (ihn _))).enclosed _ _
  | call name arguments ih =>
    rw [pieces]
    exact isOperand_call name (List.forall_mem_map.2 fun a ha => ih a ha .expr)

/-- **The pieces of a line** are apart. -/
lemma Line.isChain (line : Line) : line.pieces.IsChain Piece.Apart := by
  cases line with
  | assign name value =>
    refine List.isChain_cons_cons.2 ⟨continues_of_closes rfl ⟨rfl, rfl⟩, ?_⟩
    have hchain := (value.isOperand .expr).chain_cons (p := .eq) rfl .nil (by simp)
    rwa [List.append_nil] at hchain
  | expression value =>
    have hchain := (value.isOperand .expr).chain [] .nil (by simp)
    rwa [List.append_nil] at hchain

end Weave.Lit
