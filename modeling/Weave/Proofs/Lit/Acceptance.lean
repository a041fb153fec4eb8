import Weave.Proofs.Lit.Reading

set_option autoImplicit false
set_option relaxedAutoImplicit false

/-!
# Which tokens are programs

The parser accepts the sequences of tokens that the grammar derives, unless it meets expressions
that are nested too deep, and then it says so.

## Main definitions

* `Weave.Lit.TooDeep` — a reading that stopped because expressions are nested too deep.

## Main results

* `Weave.Lit.expression_congr_of_le` — the depth that is left makes no difference if it suffices.
* `Weave.Lit.statements_eq_ok_iff` — the programs that the parser returns.
* `Weave.Lit.statements_eq_ok_iff_clauses` — the parser decides the grammar.
-/

namespace Weave.Lit

/-! ## Depth that is left -/

/-- **Reading stopped** because expressions are nested too deep. -/
def TooDeep {α : Type} (r : Except Misfit α) : Prop :=
  ∃ span? : Option Span, r = .error ⟨.nestedTooDeeply, span?⟩

section

variable {sub deeper : Nat → List Placed → Reading Expr}
  (h : ∀ k ts, TooDeep (sub k ts) ∨ sub k ts = deeper k ts)

include h

/-- The operand of a unary operator is read alike with more depth, unless the code is too deep. -/
lemma unaryOperand_congr (op : UnaryOp) (place : Span) (ts : List Placed) :
    TooDeep (unaryOperand sub op place ts) ∨
      unaryOperand sub op place ts = unaryOperand deeper op place ts := by
  unfold unaryOperand
  rcases h unaryStrength ts with ⟨span?, hdeep⟩ | heq
  · exact .inl ⟨span?, by rw [hdeep]⟩
  · exact .inr (by rw [heq])

/-- The right operand of a binary operator is read alike with more depth, unless the code is too
deep. -/
lemma rightOperand_congr (op : BinaryOp) (left : Expr) (ts : List Placed) :
    TooDeep (rightOperand sub op left ts) ∨
      rightOperand sub op left ts = rightOperand deeper op left ts := by
  unfold rightOperand
  rcases h (op.strength + 1) ts with ⟨span?, hdeep⟩ | heq
  · exact .inl ⟨span?, by rw [hdeep]⟩
  · exact .inr (by rw [heq])

/-- An expression in parentheses is read alike with more depth, unless the code is too deep. -/
lemma parenthesized_congr (place : Span) (ts : List Placed) :
    TooDeep (parenthesized sub place ts) ∨
      parenthesized sub place ts = parenthesized deeper place ts := by
  unfold parenthesized
  split
  · exact .inr rfl
  · rcases h 0 ts with ⟨span?, hdeep⟩ | heq
    · exact .inl ⟨span?, by rw [hdeep]⟩
    · exact .inr (by rw [heq])

/-- The branches of a conditional are read alike with more depth, unless the code is too deep. -/
lemma branches_congr (c : Expr) (ts : List Placed) :
    TooDeep (branches sub c ts) ∨ branches sub c ts = branches deeper c ts := by
  unfold branches
  rcases h 0 ts with ⟨span?, hdeep⟩ | heq
  · exact .inl ⟨span?, by rw [hdeep]⟩
  rw [heq]
  cases deeper 0 ts with
  | error => exact .inr rfl
  | ok y =>
    dsimp only
    cases expect isColon .conditionalColon y.2 with
    | error => exact .inr rfl
    | ok colon =>
      dsimp only
      rcases h conditionalStrength colon.2 with ⟨span?, hdeep⟩ | heq
      · exact .inl ⟨span?, by rw [hdeep]⟩
      · exact .inr (by rw [heq])

/-- A list of arguments is read alike with more depth, unless the code is too deep.

**Proof sketch.** Induction on the number of arguments. Each is read alike or is too deep, by
hypothesis, and the others are read alike or are too deep by induction. -/
lemma argumentList_congr (n : Nat) (ts : List Placed) :
    TooDeep (argumentList sub n ts) ∨ argumentList sub n ts = argumentList deeper n ts := by
  induction n generalizing ts with
  | zero => exact .inr rfl
  | succ n ih =>
    unfold argumentList
    rcases h 0 ts with ⟨span?, hdeep⟩ | heq
    · exact .inl ⟨span?, by rw [hdeep]⟩
    rw [heq]
    cases deeper 0 ts with
    | error => exact .inr rfl
    | ok argument =>
      dsimp only
      split
      next comma rest _ =>
        rcases ih rest with ⟨span?, hdeep⟩ | heq
        · exact .inl ⟨span?, by rw [hdeep]⟩
        · exact .inr (by rw [heq])
      next => exact .inr rfl

/-- A variable or a call is read alike with more depth, unless the code is too deep. -/
lemma afterName_congr (name : Text) (place : Span) (ts : List Placed) :
    TooDeep (afterName sub name place ts) ∨
      afterName sub name place ts = afterName deeper name place ts := by
  unfold afterName
  split
  · exact .inr rfl
  · exact .inr rfl
  next ts _ =>
    rcases argumentList_congr h (ts.length + 1) ts with ⟨span?, hdeep⟩ | heq
    · exact .inl ⟨span?, by rw [hdeep]⟩
    · exact .inr (by rw [heq])
  · exact .inr rfl

/-- An operand is read alike with more depth, unless the code is too deep. -/
lemma operand_congr (ts : List Placed) :
    TooDeep (operand sub ts) ∨ operand sub ts = operand deeper ts := by
  unfold operand
  split
  · exact .inr rfl
  · split
    case h_6 => exact afterName_congr h _ _ _
    case h_7 => exact unaryOperand_congr h _ _ _
    case h_8 => exact unaryOperand_congr h _ _ _
    case h_9 => exact parenthesized_congr h _ _
    all_goals exact .inr rfl

/-- Operators and their operands are read alike with more depth, unless the code is too deep.

**Proof sketch.** Induction on the number of operators. Where reading stops, both stop. At an
operator the two readers of the right operand agree or the code is too deep (`rightOperand_congr`,
`branches_congr`), and after it the induction hypothesis applies. -/
lemma operators_congr_sub (k n : Nat) (left : Expr) (ts : List Placed) :
    TooDeep (operators sub k n left ts) ∨
      operators sub k n left ts = operators deeper k n left ts := by
  induction n generalizing left ts with
  | zero => exact .inr rfl
  | succ n ih =>
    by_cases hstops : Stops k ts
    · rw [operators_of_stops hstops, operators_of_stops hstops]
      exact .inr rfl
    cases ts with
    | nil => exact absurd (stops_nil k) hstops
    | cons p ts =>
      obtain ⟨token, place⟩ := p
      rcases token.strength?_cases with hnone | rfl | ⟨op, rfl⟩
      · exact absurd (stops_of_strength?_eq_none hnone k ts) hstops
      · have hk := mt (stops_question place ts).2 hstops
        rw [operators_question, operators_question, if_neg hk, if_neg hk]
        rcases branches_congr h left ts with ⟨span?, hdeep⟩ | heq
        · exact .inl ⟨span?, by rw [hdeep]⟩
        rw [heq]
        cases branches deeper left ts with
        | error => exact .inr rfl
        | ok r => exact ih r.1 r.2
      · have hk := mt (stops_op place ts).2 hstops
        rw [operators_op, operators_op, if_neg hk, if_neg hk]
        rcases rightOperand_congr h op left ts with ⟨span?, hdeep⟩ | heq
        · exact .inl ⟨span?, by rw [hdeep]⟩
        rw [heq]
        cases rightOperand deeper op left ts with
        | error => exact .inr rfl
        | ok r => exact ih r.1 r.2

end

/-- One level of depth more makes no difference unless the expression is nested too deep. -/
lemma expression_congr_succ (depth k : Nat) (ts : List Placed) :
    TooDeep (expression depth k ts) ∨ expression depth k ts = expression (depth + 1) k ts := by
  induction depth generalizing k ts with
  | zero => exact .inl ⟨here ts, rfl⟩
  | succ depth ih =>
    rw [expression, expression]
    rcases operand_congr ih ts with ⟨span?, hdeep⟩ | heq
    · exact .inl ⟨span?, by rw [hdeep]⟩
    rw [heq]
    cases operand (expression (depth + 1)) ts with
    | error => exact .inr rfl
    | ok left => exact operators_congr_sub ih k _ left.1 left.2

/-- **The depth that is left** makes no difference unless the expression is nested too deep. -/
theorem expression_congr_of_le {depth deeper : Nat} (hle : depth ≤ deeper) (k : Nat)
    (ts : List Placed) :
    TooDeep (expression depth k ts) ∨ expression depth k ts = expression deeper k ts := by
  induction hle with
  | refl => exact .inr rfl
  | step _ ih =>
    rcases ih with hdeep | heq
    · exact .inl hdeep
    · rw [heq]
      exact expression_congr_succ _ k ts

/-- **A phrase is read**, unless it is nested deeper than is allowed: then reading may stop because
of that. -/
theorem Phrase.expression_eq_ok_or {deep : Nat} {ts : List Placed} {e : Expr}
    (h : Phrase deep .expr ts e) {rest : List Placed} (hends : Ends rest) (depth : Nat) :
    expression depth 0 (ts ++ rest) = .ok (e, rest) ∨
      depth < deep ∧ TooDeep (expression depth 0 (ts ++ rest)) := by
  rcases Nat.lt_or_ge depth deep with hlt | hge
  · rcases expression_congr_of_le (Nat.le_of_lt hlt) 0 (ts ++ rest) with hdeep | heq
    · exact .inr ⟨hlt, hdeep⟩
    · exact .inl (heq.trans (h.expression_eq_ok hends))
  · exact .inl ((h.mono hge).expression_eq_ok hends)

/-! ## Statements -/

/-- **Tokens before which a statement ends.** -/
def EndsStatement (rest : List Placed) : Prop :=
  ∀ t ∈ rest.head?, t.token = .separator

/-- What ends a statement ends an expression. -/
lemma EndsStatement.ends {rest : List Placed} (h : EndsStatement rest) : Ends rest := by
  cases rest with
  | nil => exact ends_nil
  | cons t rest =>
    obtain ⟨token, place⟩ := t
    obtain rfl : token = .separator := h _ rfl
    exact ends_cons place rest rfl nofun nofun

/-- What does not begin as an assignment is read as an expression. -/
lemma statement_eq {ts : List Placed} (h : ∀ p q more, ts = p :: q :: more → q.token ≠ .eq) :
    statement ts =
      match expression depthLimit 0 ts with
      | .error e => .error e
      | .ok (value, rest) => .ok (.expression value, rest) := by
  unfold statement
  split
  · exact absurd rfl (h _ _ _ rfl)
  · rfl

/-- **What is read as a statement** is derived, and it has tokens. -/
lemma statement_sound {ts rest : List Placed} {s : Statement} (h : statement ts = .ok (s, rest)) :
    ∃ read, ts = read ++ rest ∧ Clause depthLimit read s ∧ read ≠ [] := by
  unfold statement at h
  split at h
  next name place eq ts =>
    split at h
    next => cases h
    next value rest' hvalue =>
      cases h
      obtain ⟨read, rfl, hphrase, -⟩ := (sound_expression depthLimit).expr (Nat.zero_le _) hvalue
      exact ⟨_, rfl, .assign place eq name hphrase, List.cons_ne_nil _ _⟩
  next =>
    split at h
    next => cases h
    next value rest' hvalue =>
      cases h
      obtain ⟨read, rfl, hphrase, -⟩ := (sound_expression depthLimit).expr (Nat.zero_le _) hvalue
      obtain ⟨p, more, hread, -⟩ := hphrase.head
      exact ⟨read, rfl, .expression hphrase, by rw [hread]; exact List.cons_ne_nil p more⟩

/-- No expression and what follows it begins as an assignment. -/
lemma Phrase.second_ne_eq {depth : Nat} {s : Symbol} {ts rest : List Placed} {e : Expr}
    (h : Phrase depth s ts e) (hends : EndsStatement rest) :
    ∀ p q more, ts ++ rest = p :: q :: more → q.token ≠ .eq := by
  intro p q more heq hq
  obtain ⟨p', ts', rfl, -⟩ := h.head
  obtain ⟨-, heq⟩ := List.cons.inj heq
  cases ts' with
  | nil =>
    obtain rfl : rest = q :: more := heq
    have hsep := hends q rfl
    rw [hq] at hsep
    cases hsep
  | cons q' ts' =>
    obtain ⟨rfl, -⟩ := List.cons.inj heq
    have hmem := h.isOfStatements_eq_false q' (by simp)
    rw [hq] at hmem
    cases hmem

/-- **A statement is read**, unless its expression is nested too deep. -/
lemma statement_eq_ok_or {deep : Nat} {ts rest : List Placed} {s : Statement}
    (h : Clause deep ts s) (hends : EndsStatement rest) :
    statement (ts ++ rest) = .ok (s, rest) ∨
      depthLimit < deep ∧ TooDeep (statement (ts ++ rest)) := by
  cases h with
  | @assign ts e place eq name value =>
    have hassign : statement (⟨.ident name, place⟩ :: ⟨.eq, eq⟩ :: (ts ++ rest)) =
        match expression depthLimit 0 (ts ++ rest) with
        | .error e => .error e
        | .ok (value, rest) => .ok (.assign ⟨place.start, value.span.stop⟩ name value, rest) := rfl
    rw [List.cons_append, List.cons_append, hassign]
    rcases value.expression_eq_ok_or hends.ends depthLimit with heq | ⟨hlt, span?, hdeep⟩
    · exact .inl (by rw [heq])
    · exact .inr ⟨hlt, span?, by rw [hdeep]⟩
  | expression value =>
    rw [statement_eq (value.second_ne_eq hends)]
    rcases value.expression_eq_ok_or hends.ends depthLimit with heq | ⟨hlt, span?, hdeep⟩
    · exact .inl (by rw [heq])
    · exact .inr ⟨hlt, span?, by rw [hdeep]⟩

/-! ## Programs -/

/-- The test for separators is right. -/
lemma isSeparator_iff {t : Token} : t.isSeparator = true ↔ t = .separator := by
  cases t <;> simp [Token.isSeparator]

/-- Separators before a program make no difference to its derivation. -/
lemma clauses_of_skipSeparators {depth : Nat} {ts : List Placed} {program : Program}
    (h : Clauses depth (skipSeparators ts) program) : Clauses depth ts program := by
  induction ts with
  | nil => exact h
  | cons t ts ih =>
    obtain ⟨token, place⟩ := t
    rw [skipSeparators, List.dropWhile_cons] at h
    split at h
    next hsep =>
      obtain rfl := isSeparator_iff.1 hsep
      exact .separator place (ih h)
    next => exact h

/-- Separators before a program make no difference to reading it. -/
lemma statements_separator (n : Nat) (place : Span) (ts : List Placed) :
    statements (n + 1) (⟨.separator, place⟩ :: ts) = statements (n + 1) ts :=
  rfl

/-- **What is read as a program** is derived.

**Proof sketch.** Induction on the number of tokens. Separators are skipped, which a derivation
allows too. The statement that is read is derived (`statement_sound`), and a separator or the end
comes after it. -/
lemma statements_sound {n : Nat} {ts : List Placed} {program : Program} (hn : ts.length ≤ n)
    (h : statements n ts = .ok program) : Clauses depthLimit ts program := by
  induction n generalizing ts program with
  | zero =>
    obtain rfl := List.eq_nil_of_length_eq_zero (Nat.le_zero.1 hn)
    cases h
    exact .nil
  | succ n ih =>
    unfold statements at h
    apply clauses_of_skipSeparators
    have hskip : (skipSeparators ts).length ≤ ts.length :=
      (List.dropWhile_sublist _).length_le
    split at h
    next hnone =>
      cases h
      rw [hnone]
      exact .nil
    next ts' _ =>
      split at h
      next => cases h
      next s hs =>
        cases h
        obtain ⟨read, hread, hclause, -⟩ := statement_sound hs
        rw [hread, List.append_nil]
        exact .last hclause
      next s t rest hs =>
        split at h
        next hsep =>
          split at h
          next => cases h
          next more hmore =>
            cases h
            obtain ⟨read, hread, hclause, hne⟩ := statement_sound hs
            obtain ⟨token, place⟩ := t
            obtain rfl := isSeparator_iff.1 hsep
            have hpos := List.length_pos_iff.2 hne
            rw [hread, List.length_append, List.length_cons] at hskip
            obtain ⟨n, rfl⟩ : ∃ m, n = m + 1 := ⟨n - 1, by omega⟩
            rw [statements_separator] at hmore
            rw [hread]
            exact .statement place hclause (ih (by omega) hmore)
        next => cases h

/-- A statement is read from its first token on. -/
lemma Clause.skipSeparators_eq {depth : Nat} {ts : List Placed} {s : Statement}
    (h : Clause depth ts s) (rest : List Placed) :
    skipSeparators (ts ++ rest) = ts ++ rest ∧ ts ≠ [] := by
  cases h with
  | assign => exact ⟨rfl, List.cons_ne_nil _ _⟩
  | expression value =>
    obtain ⟨p, more, rfl, -⟩ := value.head
    have hp := value.isOfStatements_eq_false p List.mem_cons_self
    refine ⟨List.dropWhile_cons_of_neg fun hsep => ?_, List.cons_ne_nil _ _⟩
    rw [isSeparator_iff.1 hsep] at hp
    cases hp

/-- **A program is read**, unless an expression in it is nested too deep.

**Proof sketch.** Induction on the derivation. Separators are skipped. A statement is read to its
end or is too deep (`statement_eq_ok_or`), since what comes after it, a separator or nothing, ends
it. -/
lemma Clauses.statements_eq_ok_or {deep n : Nat} {ts : List Placed} {program : Program}
    (h : Clauses deep ts program) (hn : ts.length ≤ n) :
    statements n ts = .ok program ∨ depthLimit < deep ∧ TooDeep (statements n ts) := by
  induction h generalizing n with
  | nil =>
    refine .inl ?_
    cases n <;> rfl
  | separator place _ ih =>
    obtain ⟨n, rfl⟩ := Nat.exists_eq_add_of_le' (Nat.le_trans (Nat.le_add_left 1 _) hn)
    rw [statements_separator]
    exact ih (Nat.le_of_succ_le hn)
  | @last ts s clause =>
    obtain ⟨hskip, hne⟩ := clause.skipSeparators_eq []
    have hpos := List.length_pos_iff.2 hne
    obtain ⟨n, rfl⟩ : ∃ m, n = m + 1 := ⟨n - 1, by omega⟩
    have hstatement := statement_eq_ok_or clause (show EndsStatement [] from nofun)
    rw [List.append_nil] at hskip hstatement
    rw [statements, hskip]
    split
    next => exact absurd rfl hne
    next =>
      rcases hstatement with heq | ⟨hlt, span?, hdeep⟩
      · exact .inl (by rw [heq])
      · exact .inr ⟨hlt, span?, by rw [hdeep]⟩
  | @statement ts more s program place clause _ ih =>
    obtain ⟨hskip, hne⟩ := clause.skipSeparators_eq (⟨.separator, place⟩ :: more)
    have hpos := List.length_pos_iff.2 hne
    rw [List.length_append, List.length_cons] at hn
    obtain ⟨n, rfl⟩ : ∃ m, n = m + 2 := ⟨n - 2, by omega⟩
    rw [statements, hskip]
    split
    next hnil => exact absurd (List.append_eq_nil_iff.1 hnil).1 hne
    next =>
      have hends : EndsStatement (⟨.separator, place⟩ :: more) := by
        simp [EndsStatement]
      rcases statement_eq_ok_or clause hends with heq | ⟨hlt, span?, hdeep⟩
      · rw [heq]
        simp only [Token.isSeparator, if_true, statements_separator]
        rcases ih (n := n + 1) (by omega) with hrest | ⟨hlt, span?, hdeep⟩
        · exact .inl (by rw [hrest])
        · exact .inr ⟨hlt, span?, by rw [hdeep]⟩
      · exact .inr ⟨hlt, span?, by rw [hdeep]⟩

/-- **The programs that the parser returns** are those that are derived without nesting expressions
too deep. -/
theorem statements_eq_ok_iff {ts : List Placed} {program : Program} :
    statements ts.length ts = .ok program ↔ Clauses depthLimit ts program := by
  refine ⟨statements_sound (Nat.le_refl _), fun h => ?_⟩
  rcases h.statements_eq_ok_or (Nat.le_refl _) with heq | ⟨hlt, -⟩
  · exact heq
  · exact absurd hlt (Nat.lt_irrefl _)

/-- **The parser decides the grammar.** It returns the programs that are derived with expressions
nested as deep as is allowed. If it does not stop because expressions are nested too deep, then it
accepts the tokens if and only if they are derived at all, and what it returns is the only program
that is derived from them.

**Proof sketch.** What is read is derived (`statements_sound`), and what is derived is read unless
it is nested too deep (`Clauses.statements_eq_ok_or`). So a second derivation would be read as well,
and the parser returns one program. -/
theorem statements_eq_ok_iff_clauses (ts : List Placed) :
    (∀ program, statements ts.length ts = .ok program ↔ Clauses depthLimit ts program) ∧
    (TooDeep (statements ts.length ts) ∨
      ((∃ program, statements ts.length ts = .ok program) ↔
        ∃ depth program, Clauses depth ts program) ∧
      ∀ program, statements ts.length ts = .ok program →
        ∀ depth derived, Clauses depth ts derived → derived = program) := by
  refine ⟨fun _ => statements_eq_ok_iff, ?_⟩
  by_cases hdeep : TooDeep (statements ts.length ts)
  · exact .inl hdeep
  have hread {depth : Nat} {derived : Program} (h : Clauses depth ts derived) :
      statements ts.length ts = .ok derived :=
    (h.statements_eq_ok_or (Nat.le_refl _)).resolve_right fun hright => hdeep hright.2
  refine .inr ⟨⟨fun ⟨program, h⟩ => ?_, fun ⟨depth, program, h⟩ => ?_⟩,
    fun program hok depth derived h => ?_⟩
  · exact ⟨depthLimit, program, statements_eq_ok_iff.1 h⟩
  · exact ⟨program, hread h⟩
  · exact Except.ok.inj ((hread h).symm.trans hok)

end Weave.Lit
