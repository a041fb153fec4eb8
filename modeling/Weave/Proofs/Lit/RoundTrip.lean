import Weave.Proofs.Lit.Joining
import Weave.Proofs.Lit.Printing

set_option autoImplicit false
set_option relaxedAutoImplicit false

/-!
# Parsing what was printed

The tokens of a printed program derive it again, wherever they are placed. So parsing a printed
program gives the program back, but for the places of its parts.

## Main definitions

* `Weave.Lit.Derives` — pieces that derive an expression wherever they are placed.
* `Weave.Lit.Expr.Printable` — the expressions whose names and numbers can be spelled.

## Main results

* `Weave.Lit.Term.derives` — the pieces of a term derive its expression.
* `Weave.Lit.Term.depth_le` — how deep the pieces of a term are nested.
* `Weave.Lit.parse_print` — parsing undoes printing.
-/

namespace Weave.Lit

/-! ## Derivations of pieces -/

/-- **Pieces derive an expression** wherever their tokens are placed. -/
def Derives (depth : Nat) (s : Symbol) (ps : List Piece) (e : Expr) : Prop :=
  ∀ ts : List Placed, ts.map Placed.token = ps.map Piece.token →
    ∃ read, Phrase depth s ts read ∧ read.bare = e

/-- A piece has the token of an operator. -/
lemma UnaryOp.token_piece (op : UnaryOp) : op.piece.token = op.token := by
  cases op <;> rfl

/-- A piece has the token of an operator. -/
lemma BinaryOp.token_piece (op : BinaryOp) : op.piece.token = op.token := by
  cases op <;> rfl

/-- Placed tokens that have the tokens of a piece and of others. -/
lemma exists_eq_cons {ts : List Placed} {p : Piece} {ps : List Piece}
    (h : ts.map Placed.token = (p :: ps).map Piece.token) :
    ∃ place more, ts = ⟨p.token, place⟩ :: more ∧ more.map Placed.token = ps.map Piece.token := by
  obtain ⟨⟨token, place⟩, more, rfl, rfl, hmore⟩ := List.map_eq_cons_iff.1 h
  exact ⟨place, more, rfl, hmore⟩

/-- Placed tokens that have the tokens of some pieces and of others. -/
lemma exists_eq_append {ts : List Placed} {ps qs : List Piece}
    (h : ts.map Placed.token = (ps ++ qs).map Piece.token) :
    ∃ us vs, ts = us ++ vs ∧ us.map Placed.token = ps.map Piece.token ∧
      vs.map Placed.token = qs.map Piece.token := by
  rw [List.map_append] at h
  exact List.map_eq_append_iff.1 h

/-- An atom without its place. -/
lemma Atom.bare {ts : List Placed} {e : Expr} (h : Atom ts e) : e.bare = e.withSpan nowhere := by
  cases h <;> rw [Expr.bare, Expr.mapOffsets] <;> rfl

namespace Derives

variable {depth : Nat} {s : Symbol} {ps : List Piece} {e : Expr}

/-- Pieces that derive an expression for a symbol do so for one that is weaker. -/
lemma loosen (h : Derives depth s ps e) {needed : Symbol} (hs : needed.strength ≤ s.strength) :
    Derives depth needed ps e := by
  intro ts hts
  obtain ⟨read, hphrase, hread⟩ := h ts hts
  exact ⟨read, hphrase.loosen hs, hread⟩

/-- Pieces that derive an expression at a depth do so at a greater one. -/
lemma mono (h : Derives depth s ps e) {more : Nat} (hmore : depth ≤ more) :
    Derives more s ps e := by
  intro ts hts
  obtain ⟨read, hphrase, hread⟩ := h ts hts
  exact ⟨read, hphrase.mono hmore, hread⟩

/-- The piece of an atom derives it for every symbol. -/
lemma atom {p : Piece} (h : ∀ place, Atom [⟨p.token, place⟩] (e.withSpan place))
    (needed : Symbol) : Derives 1 needed [p] (e.withSpan nowhere) := by
  intro ts hts
  obtain ⟨place, more, rfl, hmore⟩ := exists_eq_cons hts
  obtain rfl : more = [] := by simpa using hmore
  refine ⟨_, (Phrase.atom 0 (h place)).loosen needed.strength_le_primary, ?_⟩
  rw [(h place).bare]
  cases e <;> rfl

/-- A unary operator and the pieces of its operand derive its application. -/
lemma unary (op : UnaryOp) (h : Derives depth .unary ps e) :
    Derives (depth + 1) .unary (op.piece :: ps) (.unary nowhere op e) := by
  intro ts hts
  obtain ⟨place, operand, rfl, hoperand⟩ := exists_eq_cons hts
  obtain ⟨read, hphrase, rfl⟩ := h operand hoperand
  rw [op.token_piece]
  refine ⟨_, .unary op place hphrase, ?_⟩
  simp only [Expr.bare, Expr.mapOffsets]
  rfl

/-- The pieces of two operands with an operator between them derive its application. -/
lemma binary (op : BinaryOp) {qs : List Piece} {l r : Expr}
    (hl : Derives (depth + 1) op.symbol ps l) (hr : Derives depth op.rightSymbol qs r) :
    Derives (depth + 1) op.symbol (ps ++ op.piece :: qs) (.binary nowhere op l r) := by
  intro ts hts
  obtain ⟨left, more, rfl, hleft, hmore⟩ := exists_eq_append hts
  obtain ⟨place, right, rfl, hright⟩ := exists_eq_cons hmore
  obtain ⟨readl, hphrasel, rfl⟩ := hl left hleft
  obtain ⟨readr, hphraser, rfl⟩ := hr right hright
  rw [op.token_piece]
  refine ⟨_, .binary op place hphrasel hphraser, ?_⟩
  simp only [Expr.bare, Expr.mapOffsets]
  rfl

/-- The pieces of a condition and of two branches derive the conditional. -/
lemma conditional {ys ns : List Piece} {c y n : Expr} (hc : Derives (depth + 1) .disjunction ps c)
    (hy : Derives depth .expr ys y) (hn : Derives depth .expr ns n) :
    Derives (depth + 1) .expr (ps ++ .question :: (ys ++ .colon :: ns))
      (.conditional nowhere c y n) := by
  intro ts hts
  obtain ⟨condition, more, rfl, hcondition, hmore⟩ := exists_eq_append hts
  obtain ⟨question, branches, rfl, hbranches⟩ := exists_eq_cons hmore
  obtain ⟨yes, rest, rfl, hyes, hrest⟩ := exists_eq_append hbranches
  obtain ⟨colon, no, rfl, hno⟩ := exists_eq_cons hrest
  obtain ⟨readc, hphrasec, rfl⟩ := hc condition hcondition
  obtain ⟨ready, hphrasey, rfl⟩ := hy yes hyes
  obtain ⟨readn, hphrasen, rfl⟩ := hn no hno
  refine ⟨_, .conditional question colon hphrasec hphrasey hphrasen, ?_⟩
  simp only [Expr.bare, Expr.mapOffsets]
  rfl

/-- The pieces of an expression in parentheses derive it for the strongest symbol. -/
lemma parens (h : Derives depth .expr ps e) :
    Derives (depth + 1) .primary (.lParen :: (ps ++ [.rParen])) (e.withSpan nowhere) := by
  intro ts hts
  obtain ⟨opening, more, rfl, hmore⟩ := exists_eq_cons hts
  obtain ⟨us, vs, rfl, hus, hvs⟩ := exists_eq_append hmore
  obtain ⟨close, rest, rfl, hrest⟩ := exists_eq_cons hvs
  obtain rfl : rest = [] := by simpa using hrest
  obtain ⟨read, hphrase, rfl⟩ := h us hus
  exact ⟨_, .parens opening close hphrase, read.mapOffsets_withSpan _⟩

/-- Pieces that are put in parentheses where this is needed derive the expression for the symbol
that is needed. -/
lemma enclosed (h : Derives depth s ps e) (he : e.withSpan nowhere = e) (needed : Symbol) :
    Derives (enclosedDepth s needed depth) needed (enclosed s needed ps) e := by
  unfold enclosedDepth Lit.enclosed
  split
  next =>
    have hparens := (h.loosen s.strength_expr_le).parens
    rw [he] at hparens
    exact hparens.loosen needed.strength_le_primary
  next hle => exact h.loosen (Nat.le_of_not_lt hle)

end Derives

/-- The pieces of the arguments after the first one derive their expressions. -/
lemma exists_furtherArguments {depth : Nat} {arguments : List Term}
    (h : ∀ a ∈ arguments, Derives depth .expr (a.pieces .expr) a.expr) {ts : List Placed}
    (hts : ts.map Placed.token =
      ((arguments.map (Term.pieces .expr)).flatMap (.comma :: ·)).map Piece.token) :
    ∃ more : List FurtherArgument, ts = more.flatMap FurtherArgument.placed ∧
      (∀ a ∈ more, Phrase depth .expr a.tokens a.value) ∧
      more.map (fun a => a.value.bare) = arguments.map Term.expr := by
  induction arguments generalizing ts with
  | nil =>
    obtain rfl : ts = [] := by simpa using hts
    exact ⟨[], rfl, List.forall_mem_nil _, rfl⟩
  | cons a arguments ih =>
    rw [List.forall_mem_cons] at h
    obtain ⟨us, vs, rfl, hus, hvs⟩ := exists_eq_append hts
    obtain ⟨comma, tokens, rfl, htokens⟩ := exists_eq_cons hus
    obtain ⟨value, hphrase, hvalue⟩ := h.1 tokens htokens
    obtain ⟨more, rfl, hmore, hvalues⟩ := ih h.2 hvs
    refine ⟨⟨comma, tokens, value⟩ :: more, rfl, List.forall_mem_cons.2 ⟨hphrase, hmore⟩, ?_⟩
    rw [List.map_cons, List.map_cons, hvalue, hvalues]

/-- The pieces of a call derive it.

**Proof sketch.** The tokens are split as the pieces are. Without arguments they are one atom;
with arguments each is derived by hypothesis, and commas stand between them
(`exists_furtherArguments`). -/
lemma derives_call {depth : Nat} (name : Name) {arguments : List Term}
    (h : ∀ a ∈ arguments, Derives depth .expr (a.pieces .expr) a.expr) (needed : Symbol) :
    Derives (depth + 1) needed ((Term.call name arguments).pieces needed)
      (Term.call name arguments).expr := by
  intro ts hts
  rw [Term.pieces] at hts
  rw [Term.expr]
  have hprimary := needed.strength_le_primary
  obtain ⟨place, inner, rfl, hinner⟩ := exists_eq_cons hts
  cases arguments with
  | nil =>
    obtain ⟨close, rest, rfl, hrest⟩ := exists_eq_cons hinner
    obtain rfl : rest = [] := by simpa using hrest
    refine ⟨_, (Phrase.atom depth (.callUnit place close name.text)).loosen hprimary, ?_⟩
    simp only [Expr.bare, Expr.mapOffsets, List.map_nil]
    rfl
  | cons first arguments =>
    rw [List.forall_mem_cons] at h
    rw [List.map_cons, argumentPieces, List.append_assoc] at hinner
    obtain ⟨opening, all, rfl, hall⟩ := exists_eq_cons hinner
    obtain ⟨firstTokens, others, rfl, hfirst, hothers⟩ := exists_eq_append hall
    obtain ⟨us, vs, rfl, hus, hvs⟩ := exists_eq_append hothers
    obtain ⟨close, rest, rfl, hrest⟩ := exists_eq_cons hvs
    obtain rfl : rest = [] := by simpa using hrest
    obtain ⟨value, hphrase, hvalue⟩ := h.1 firstTokens hfirst
    obtain ⟨more, rfl, hmore, hvalues⟩ := exists_furtherArguments h.2 hus
    refine ⟨_, (Phrase.call place opening close name.text more hphrase hmore).loosen hprimary, ?_⟩
    simp only [Expr.bare, Expr.mapOffsets, List.map_cons, List.map_map] at hvalue hvalues ⊢
    simp only [hvalue, ← hvalues]
    rfl

/-! ## Terms -/

namespace Term

/-- **The pieces of a term derive its expression.**

**Proof sketch.** Induction on the term. Its parts are derived at the symbols that their places ask
for and at depths that can be raised (`Derives.mono`). Parentheses are put around the pieces where
the symbol of the term is too loose (`Derives.enclosed`). -/
theorem derives (t : Term) (needed : Symbol) :
    Derives (t.depth needed) needed (t.pieces needed) t.expr := by
  induction t using Term.induction generalizing needed with
  | number n =>
    simp only [depth, pieces, expr]
    exact Derives.atom (e := .number nowhere n.value) (Atom.number · _) needed
  | string t =>
    simp only [depth, pieces, expr]
    exact Derives.atom (e := .string nowhere t) (Atom.string · _) needed
  | boolean b =>
    simp only [depth, pieces, expr]
    cases b with
    | true => exact Derives.atom (e := .boolean nowhere true) (Atom.true ·) needed
    | false => exact Derives.atom (e := .boolean nowhere false) (Atom.false ·) needed
  | unit =>
    simp only [depth, pieces, expr]
    exact Derives.atom (e := .unit nowhere) (Atom.unit ·) needed
  | ident name =>
    simp only [depth, pieces, expr]
    exact Derives.atom (e := .ident nowhere name.text) (Atom.ident · _) needed
  | unary op operand ih =>
    rw [depth, pieces, expr]
    exact ((ih .unary).unary op).enclosed rfl needed
  | binary op left right ihl ihr =>
    rw [depth, pieces, expr]
    obtain ⟨n, hn⟩ : ∃ n, max (left.depth op.symbol) (right.depth op.rightSymbol + 1) = n + 1 :=
      Nat.exists_eq_add_of_le' (by omega)
    rw [hn]
    exact (((ihl op.symbol).mono (by omega)).binary op
      ((ihr op.rightSymbol).mono (by omega))).enclosed rfl needed
  | conditional condition yes no ihc ihy ihn =>
    rw [depth, pieces, expr]
    obtain ⟨n, hn⟩ : ∃ n, max (condition.depth .disjunction)
        (max (yes.depth .expr) (no.depth .expr) + 1) = n + 1 :=
      Nat.exists_eq_add_of_le' (by omega)
    rw [hn]
    exact (((ihc .disjunction).mono (by omega)).conditional ((ihy .expr).mono (by omega))
      ((ihn .expr).mono (by omega))).enclosed rfl needed
  | call name arguments ih =>
    rw [depth]
    exact derives_call name (fun a ha => (ih a ha .expr).mono
      (le_greatest (List.mem_map_of_mem ha))) needed

/-- **How deep the pieces of a term are nested**: a step into a part takes one level, and the
parentheses around a part take another one.

**Proof sketch.** Induction on the term. Parentheses take at most one level, and the step into a
part one more, while the height grows by one. -/
theorem depth_le (t : Term) (needed : Symbol) : t.depth needed ≤ 2 * t.expr.height + 2 := by
  have henclosed (s needed : Symbol) (n : Nat) : enclosedDepth s needed n ≤ n + 1 := by
    unfold enclosedDepth
    split <;> omega
  induction t using Term.induction generalizing needed with
  | number | string | boolean | unit | ident => simp [depth]
  | unary op operand ih =>
    have hle := ih .unary
    have hlt : operand.expr.height < above [operand.expr.height] := lt_above (by simp)
    rw [depth, expr, Expr.height]
    exact Nat.le_trans (henclosed _ _ _) (by omega)
  | binary op left right ihl ihr =>
    have hl := ihl op.symbol
    have hr := ihr op.rightSymbol
    have hltl : left.expr.height < above [left.expr.height, right.expr.height] :=
      lt_above (by simp)
    have hltr : right.expr.height < above [left.expr.height, right.expr.height] :=
      lt_above (by simp)
    rw [depth, expr, Expr.height]
    exact Nat.le_trans (henclosed _ _ _) (by omega)
  | conditional condition yes no ihc ihy ihn =>
    have hc := ihc .disjunction
    have hy := ihy .expr
    have hn := ihn .expr
    rw [depth, expr, Expr.height]
    generalize hheights : [condition.expr.height, yes.expr.height, no.expr.height] = heights
    have hltc : condition.expr.height < above heights := lt_above (by simp [← hheights])
    have hlty : yes.expr.height < above heights := lt_above (by simp [← hheights])
    have hltn : no.expr.height < above heights := lt_above (by simp [← hheights])
    exact Nat.le_trans (henclosed _ _ _) (by omega)
  | call name arguments ih =>
    rw [depth, expr, Expr.height, Nat.add_le_add_iff_right, greatest_le_iff, List.forall_mem_map]
    intro a ha
    have hle := ih a ha .expr
    have hlt : a.expr.height < above ((arguments.map expr).map Expr.height) :=
      lt_above (List.mem_map_of_mem (List.mem_map_of_mem ha))
    omega

end Term

/-! ## Programs -/

/-- The expression of the statement of a line. -/
lemma Line.value_statement (line : Line) : line.statement.value = line.value.expr := by
  cases line <;> rfl

/-- **The pieces of a line** derive its statement wherever they are placed. -/
lemma Line.derives (line : Line) {depth : Nat} (hdepth : line.value.depth .expr ≤ depth)
    {ts : List Placed} (hts : ts.map Placed.token = line.pieces.map Piece.token) :
    ∃ s : Statement, Clause depth ts s ∧ s.bare = line.statement := by
  cases line with
  | assign name value =>
    obtain ⟨place, more, rfl, hmore⟩ := exists_eq_cons hts
    obtain ⟨eq, tokens, rfl, htokens⟩ := exists_eq_cons hmore
    obtain ⟨read, hphrase, hread⟩ := (value.derives .expr).mono hdepth tokens htokens
    refine ⟨_, .assign place eq name.text hphrase, ?_⟩
    rw [Line.statement, ← hread]
    rfl
  | expression value =>
    obtain ⟨read, hphrase, hread⟩ := (value.derives .expr).mono hdepth ts hts
    refine ⟨_, .expression hphrase, ?_⟩
    rw [Line.statement, ← hread]
    rfl

/-- **Parsing a printed line** gives its statement. -/
lemma Line.parse_spell (line : Line) (hdepth : line.value.depth .expr ≤ depthLimit)
    (blanks : Nat → Blanks) :
    ∃ s : Statement, parse (spell blanks line.pieces) = .ok [s] ∧ s.bare = line.statement := by
  obtain ⟨ts, hts, hlexed⟩ := exists_lexed_spell line.isChain blanks 0 []
  obtain ⟨s, hclause, hs⟩ := line.derives hdepth hts
  exact ⟨s, parse_eq_ok_iff.2 ⟨ts, hlexed, .last hclause⟩, hs⟩

/-- **Parsing printed lines** gives their statements, if they are not nested too deep. -/
theorem exists_parse_print {lines : List Line}
    (hdepth : ∀ line ∈ lines, line.value.depth .expr ≤ depthLimit)
    (blanks : Nat → Nat → Blanks) :
    ∃ program, parse (print blanks lines) = .ok program ∧
      program.map Statement.bare = lines.map Line.statement := by
  induction lines generalizing blanks with
  | nil => exact ⟨[], parse_eq_ok_iff.2 ⟨[], .nil 0 [], .nil⟩, rfl⟩
  | cons line lines ih =>
    rw [List.forall_mem_cons] at hdepth
    obtain ⟨s, hparse, hs⟩ := line.parse_spell hdepth.1 (blanks 0)
    obtain ⟨program, hprogram, hstatements⟩ := ih hdepth.2 fun n => blanks (n + 1)
    refine ⟨_, parse_joined hparse hprogram, ?_⟩
    rw [List.map_append, List.map_map, List.map_cons, List.map_nil, hs, List.map_cons,
      List.singleton_append, ← hstatements]
    exact congrArg _ (List.map_congr_left fun s _ => s.bare_mapOffsets _)

/-- **The expressions whose names and numbers can be spelled.** -/
inductive Expr.Printable : Expr → Prop where
  | number (span : Span) (n : Numeral) : Printable (.number span n.value)
  | string (span : Span) (t : Text) : Printable (.string span t)
  | boolean (span : Span) (b : Bool) : Printable (.boolean span b)
  | unit (span : Span) : Printable (.unit span)
  | ident (span : Span) (name : Name) : Printable (.ident span name.text)
  | unary {operand : Expr} (span : Span) (op : UnaryOp) (h : Printable operand) :
      Printable (.unary span op operand)
  | binary {left right : Expr} (span : Span) (op : BinaryOp) (hleft : Printable left)
      (hright : Printable right) : Printable (.binary span op left right)
  | conditional {condition yes no : Expr} (span : Span) (hcondition : Printable condition)
      (hyes : Printable yes) (hno : Printable no) : Printable (.conditional span condition yes no)
  | call {arguments : List Expr} (span : Span) (name : Name)
      (h : ∀ a ∈ arguments, Printable a) : Printable (.call span name.text arguments)

/-- The statements whose names and numbers can be spelled. -/
inductive Statement.Printable : Statement → Prop where
  | assign {value : Expr} (span : Span) (name : Name) (h : value.Printable) :
      Printable (.assign span name.text value)
  | expression {value : Expr} (h : value.Printable) : Printable (.expression value)

/-- A list of parts, each of which can be spelled. -/
lemma exists_map_eq_map {α β γ : Type} {f : α → γ} {g : β → γ} {bs : List β}
    (h : ∀ b ∈ bs, ∃ a, f a = g b) : ∃ as : List α, as.map f = bs.map g := by
  induction bs with
  | nil => exact ⟨[], rfl⟩
  | cons b bs ih =>
    rw [List.forall_mem_cons] at h
    obtain ⟨⟨a, ha⟩, has⟩ := h
    obtain ⟨as, has⟩ := ih has
    exact ⟨a :: as, by rw [List.map_cons, List.map_cons, ha, has]⟩

/-- **Every printable expression** is that of a term, but for the places of its parts.

**Proof sketch.** Induction on the proof that the expression is printable: each of its rules is one
form of terms. -/
lemma Expr.Printable.exists_term {e : Expr} (h : e.Printable) : ∃ t : Term, t.expr = e.bare := by
  unfold Expr.bare
  induction h with
  | number span n => exact ⟨.number n, by rw [Term.expr, mapOffsets]; rfl⟩
  | string span t => exact ⟨.string t, by rw [Term.expr, mapOffsets]; rfl⟩
  | boolean span b => exact ⟨.boolean b, by rw [Term.expr, mapOffsets]; rfl⟩
  | unit span => exact ⟨.unit, by rw [Term.expr, mapOffsets]; rfl⟩
  | ident span name => exact ⟨.ident name, by rw [Term.expr, mapOffsets]; rfl⟩
  | unary span op _ ih =>
    obtain ⟨operand, hoperand⟩ := ih
    exact ⟨.unary op operand, by rw [Term.expr, mapOffsets, hoperand]; rfl⟩
  | binary span op _ _ ihl ihr =>
    obtain ⟨left, hleft⟩ := ihl
    obtain ⟨right, hright⟩ := ihr
    exact ⟨.binary op left right, by rw [Term.expr, mapOffsets, hleft, hright]; rfl⟩
  | conditional span _ _ _ ihc ihy ihn =>
    obtain ⟨condition, hcondition⟩ := ihc
    obtain ⟨yes, hyes⟩ := ihy
    obtain ⟨no, hno⟩ := ihn
    exact ⟨.conditional condition yes no, by
      rw [Term.expr, mapOffsets, hcondition, hyes, hno]; rfl⟩
  | call span name _ ih =>
    obtain ⟨arguments, harguments⟩ := exists_map_eq_map ih
    exact ⟨.call name arguments, by rw [Term.expr, mapOffsets, harguments]; rfl⟩

/-- Every printable statement is that of a line, but for the places of its parts. -/
lemma Statement.Printable.exists_line {s : Statement} (h : s.Printable) :
    ∃ line : Line, line.statement = s.bare := by
  cases h with
  | assign span name h =>
    obtain ⟨value, hvalue⟩ := h.exists_term
    exact ⟨.assign name value, by rw [Line.statement, hvalue]; rfl⟩
  | expression h =>
    obtain ⟨value, hvalue⟩ := h.exists_term
    exact ⟨.expression value, by rw [Line.statement, hvalue]; rfl⟩

/-- **Parsing undoes printing.** A program whose names and numbers can be spelled and whose
expressions are at most a hundred steps high can be printed. However its numbers are spelled, and
whatever blanks stand between its tokens, what is printed is parsed, and the result is the program
again, but for the places of its parts.

**Proof sketch.** A printable program is that of some lines (`Statement.Printable.exists_line`). The
pieces of a line are nested at most twice as deep as its expression is high, and two levels more
(`Term.depth_le`), which is within the limit. At this depth they derive the statements, whose tokens
are those of the printed text (`exists_parse_print`). -/
theorem parse_print {program : Program} (hprintable : ∀ s ∈ program, s.Printable)
    (hheight : ∀ s ∈ program, s.value.height ≤ 100) :
    (∃ lines : List Line, lines.map Line.statement = program.map Statement.bare) ∧
    ∀ lines : List Line, lines.map Line.statement = program.map Statement.bare →
      ∀ blanks : Nat → Nat → Blanks, ∃ parsed,
        parse (print blanks lines) = .ok parsed ∧
          parsed.map Statement.bare = program.map Statement.bare := by
  refine ⟨exists_map_eq_map fun s hs => (hprintable s hs).exists_line, ?_⟩
  intro lines hlines blanks
  have hdepth : ∀ line ∈ lines, line.value.depth .expr ≤ depthLimit := by
    intro line hline
    obtain ⟨s, hs, hstatement⟩ : ∃ s ∈ program, s.bare = line.statement := by
      rw [← List.mem_map, ← hlines]
      exact List.mem_map_of_mem hline
    have hvalue : line.value.expr = s.value.bare := by
      rw [← line.value_statement, ← hstatement, Statement.bare, Statement.value_mapOffsets]
      rfl
    have hle := line.value.depth_le .expr
    have hlow := hheight s hs
    rw [hvalue, Expr.bare, Expr.height_mapOffsets] at hle
    simp only [depthLimit]
    omega
  rw [← hlines]
  exact exists_parse_print hdepth blanks

/-- The name `a`. -/
def letterA : Name :=
  ⟨'a', [], rfl, List.forall_mem_nil _, by decide, by decide⟩

/-- The number one. -/
def Numeral.one : Numeral :=
  ⟨'1', [], [], rfl, List.forall_mem_nil _, List.forall_mem_nil _⟩

/-- A sum times a negated name. -/
def sumTimesNegation : Term :=
  .binary .multiplication
    (.binary .addition (.ident letterA)
      (.number { Numeral.one with
        fraction := ['5'], isDigit_fraction := List.forall_mem_singleton.2 rfl }))
    (.unary .negation (.ident letterA))

/-- One blank before the pieces with the given numbers. -/
def blanksBefore (ns : List Nat) (n : Nat) : Blanks :=
  if n ∈ ns then ⟨[' '], List.forall_mem_singleton.2 rfl⟩ else .none

/-- A sum needs parentheses as an operand of a product, and a negation needs none. -/
theorem parse_print_sumTimesNegation :
    ∃ parsed, parse "(a + 1.5) * -a\n".toList = .ok parsed ∧
      parsed.map Statement.bare =
        [.expression (.binary nowhere .multiplication
          (.binary nowhere .addition (.ident nowhere ['a'])
            (.number nowhere (Binary64.ofDecimal false 15 (-1))))
          (.unary nowhere .negation (.ident nowhere ['a'])))] := by
  have hexpr : sumTimesNegation.expr =
      .binary nowhere .multiplication
        (.binary nowhere .addition (.ident nowhere ['a'])
          (.number nowhere (Binary64.ofDecimal false 15 (-1))))
        (.unary nowhere .negation (.ident nowhere ['a'])) := by
    simp only [sumTimesNegation, Term.expr]
    rfl
  have hprint : print (fun _ => blanksBefore [2, 3, 5, 6]) [.expression sumTimesNegation] =
      "(a + 1.5) * -a\n".toList := by
    simp only [print, Line.pieces, sumTimesNegation, Term.pieces]
    rfl
  have hheight : ∀ s ∈ [Statement.expression sumTimesNegation.expr], s.value.height ≤ 100 := by
    rw [List.forall_mem_singleton, hexpr]
    simp [Statement.value, Expr.height, above, greatest]
  have hprintable : ∀ s ∈ [Statement.expression sumTimesNegation.expr], s.Printable := by
    rw [List.forall_mem_singleton, sumTimesNegation]
    simp only [Term.expr]
    exact .expression
      (.binary _ _ (.binary _ _ (.ident _ _) (.number _ _)) (.unary _ _ (.ident _ _)))
  obtain ⟨-, hparse⟩ := parse_print hprintable hheight
  obtain ⟨parsed, hparsed, hbare⟩ := hparse [.expression sumTimesNegation] (by
    rw [hexpr]
    simp only [List.map_cons, List.map_nil, Line.statement, hexpr, Statement.bare,
      Statement.mapOffsets, Expr.mapOffsets]
    rfl) fun _ => blanksBefore [2, 3, 5, 6]
  rw [hprint] at hparsed
  refine ⟨parsed, hparsed, hbare.trans ?_⟩
  rw [hexpr]
  simp only [List.map_cons, List.map_nil, Statement.bare, Statement.mapOffsets, Expr.mapOffsets]
  rfl

end Weave.Lit
