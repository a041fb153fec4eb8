import Weave.Proofs.Lit.RoundTrip

set_option autoImplicit false
set_option relaxedAutoImplicit false

/-!
# Depth of evaluation

Reading and evaluation allow expressions to be nested to the same depth, but they do not count the
same steps. Reading does not count those into the left operand of an operator and into the
condition of a conditional, evaluation counts all of them. So a program that is read can still be
too deep to be evaluated, but only if a path has two such steps at least.

## Main definitions

* `Weave.Lit.RanProgram.Overflows` — a run that stopped because an expression is too deep.
* `Weave.Lit.sumOfOnes` — sums that are as high as they are long.

## Main results

* `Weave.Lit.evaluate_failsWith` — no expression overflows that is not too high.
* `Weave.Lit.evaluate_overflows` — an expression overflows whose first part is too deep.
* `Weave.Lit.overflows_of_parse` — which programs that are read can overflow.
* `Weave.Lit.overflows_sumCode` — a program that is read and overflows.
-/

namespace Weave.Lit

/-- A fault that is not that of too great a depth. -/
def Fault.NoOverflow (fault : Fault) : Prop :=
  ∀ span, fault ≠ .runtime .stackOverflow span

/-- **A run that stopped** because an expression is too deep. -/
def RanProgram.Overflows (r : RanProgram) : Prop :=
  ∃ span, r.outcome = .error (.runtime .stackOverflow span)

/-! ## Operations -/

/-- Taking the one argument of a function does not overflow. -/
lemma single_failsWith (name : Text) (args : List Value) :
    FailsWith (· ≠ .stackOverflow) (single name args) := by
  unfold single
  split
  · exact .of_pure _
  · exact .of_throw (by simp)

/-- Taking the text of the one argument of a function does not overflow. -/
lemma singleString_failsWith (name : Text) (args : List Value) :
    FailsWith (· ≠ .stackOverflow) (singleString name args) := by
  refine (single_failsWith name args).bind fun v => ?_
  split
  · exact .of_pure _
  · exact .of_throw (by simp)

/-- **No function overflows.** -/
lemma call_failsWith (name : Text) (args : List Value) :
    FailsWith (· ≠ .stackOverflow) (call name args) := by
  have hsingle := single_failsWith name args
  have hstring := singleString_failsWith name args
  unfold call
  cases Builtin.ofName? name with
  | none => exact .of_throw (by simp)
  | some f =>
    cases f with
    | print | printLine => exact (FailsWith.of_modify _).bind fun _ => .of_pure _
    | display => exact hsingle.bind fun v => (FailsWith.of_modify _).bind fun _ => .of_pure _
    | markdown | html | svg => exact hstring.bind fun _ => .of_pure _
    | string => exact .of_pure _
    | length =>
      refine hsingle.bind fun v => ?_
      cases v.source? with
      | some t => exact .of_pure _
      | none => exact .of_throw (by simp)
    | error => exact hsingle.bind fun v => .of_throw (by simp)

/-- Two operations one after the other do not overflow if neither of them does. -/
lemma bind_ne_stackOverflow {α β : Type} {r : Except RuntimeCause α}
    {k : α → Except RuntimeCause β} (hr : r ≠ .error .stackOverflow)
    (hk : ∀ a, k a ≠ .error .stackOverflow) : (r >>= k) ≠ .error .stackOverflow := by
  cases r with
  | error cause =>
    rintro ⟨⟩
    exact hr rfl
  | ok a => exact hk a

/-- A result is no overflow. -/
lemma pure_ne_stackOverflow {α : Type} (a : α) :
    (pure a : Except RuntimeCause α) ≠ .error .stackOverflow := by
  rintro ⟨⟩

/-- Taking a value for a number does not overflow. -/
lemma asNumber_ne_stackOverflow (v : Value) : asNumber v ≠ .error .stackOverflow := by
  cases v <;> simp [asNumber]

/-- Taking two values for numbers does not overflow. -/
lemma asNumbers_ne_stackOverflow (l r : Value) : asNumbers l r ≠ .error .stackOverflow :=
  bind_ne_stackOverflow (asNumber_ne_stackOverflow l) fun _ =>
    bind_ne_stackOverflow (asNumber_ne_stackOverflow r) fun _ => pure_ne_stackOverflow _

/-- No operation on one value overflows. -/
lemma UnaryOp.apply_ne_stackOverflow (op : UnaryOp) (v : Value) :
    op.apply v ≠ .error .stackOverflow := by
  cases op with
  | negation =>
    exact bind_ne_stackOverflow (asNumber_ne_stackOverflow v) fun _ => pure_ne_stackOverflow _
  | logicalNot => exact pure_ne_stackOverflow _

/-- No operation on two values overflows. -/
lemma BinaryOp.apply_ne_stackOverflow (op : BinaryOp) (l r : Value) :
    op.apply l r ≠ .error .stackOverflow := by
  have hnumbers := asNumbers_ne_stackOverflow l r
  cases op with
  | addition => cases l <;> cases r <;> simp [apply, Lit.addition]
  | subtraction | multiplication =>
    exact bind_ne_stackOverflow hnumbers fun _ => pure_ne_stackOverflow _
  | division | modulo =>
    refine bind_ne_stackOverflow hnumbers fun (x, y) => ?_
    dsimp only
    split
    · rintro ⟨⟩
    · exact pure_ne_stackOverflow _
  | greaterThan | lessThan | greaterThanOrEqual | lessThanOrEqual =>
    exact bind_ne_stackOverflow hnumbers fun _ => pure_ne_stackOverflow _
  | equality | inequality | logicalAnd | logicalOr => exact pure_ne_stackOverflow _

/-- An operation that does not overflow does not do so at its place. -/
lemma settle_failsWith {span : Span} {r : Except RuntimeCause Value}
    (h : r ≠ .error .stackOverflow) : FailsWith Fault.NoOverflow (settle span r) := by
  cases r with
  | ok v => exact .of_pure v
  | error cause =>
    refine .of_throw fun place hfault => h ?_
    cases hfault
    rfl

/-- A computation that does not overflow does not do so at its place. -/
lemma locate_failsWith {span : Span} {c : Effectful RuntimeCause Value}
    (h : FailsWith (· ≠ .stackOverflow) c) : FailsWith Fault.NoOverflow (locate span c) := by
  refine FailsWith.adapt fun effects cause hcause place hfault => h effects cause hcause ?_
  cases hfault
  rfl

/-! ## Expressions -/

/-- A computation that is not too deep is not stopped. -/
lemma within_of_le {depth : Nat} (h : depth ≤ depthLimit) (span : Span)
    (c : Effectful Fault Value) : within depth span c = c :=
  if_neg (Nat.not_lt.2 h)

/-- **No expression overflows** that is not too high for the depth at which it stands.

**Proof sketch.** Induction on the expression. A part is lower than the whole and stands one level
deeper, so the bound holds of it too. The depth of the expression is within the limit, and no
operator or function overflows. -/
theorem evaluate_failsWith (vars : Variables) (e : Expr) {depth : Nat}
    (h : depth + e.height ≤ depthLimit) : FailsWith Fault.NoOverflow (evaluate vars depth e) := by
  have hdepth : depth ≤ depthLimit := Nat.le_of_add_right_le h
  induction e using Expr.induction generalizing depth with
  | number | string | boolean | unit =>
    rw [evaluate, within_of_le hdepth]
    exact .of_pure _
  | ident span name =>
    rw [evaluate, within_of_le hdepth]
    cases vars.get? name with
    | some v => exact .of_pure v
    | none => exact .of_throw (by simp [Fault.NoOverflow])
  | unary span op operand ih =>
    have hlt : operand.height < above [operand.height] := lt_above (by simp)
    rw [Expr.height] at h
    rw [evaluate, within_of_le hdepth]
    exact (ih (by omega) (by omega)).bind fun v => settle_failsWith (op.apply_ne_stackOverflow v)
  | binary span op left right ihl ihr =>
    have hl : left.height < above [left.height, right.height] := lt_above (by simp)
    have hr : right.height < above [left.height, right.height] := lt_above (by simp)
    rw [Expr.height] at h
    rw [evaluate, within_of_le hdepth]
    refine (ihl (by omega) (by omega)).bind fun l => ?_
    cases op.decided? l with
    | some v => exact .of_pure v
    | none =>
      exact (ihr (by omega) (by omega)).bind fun r =>
        settle_failsWith (op.apply_ne_stackOverflow l r)
  | conditional span condition yes no ihc ihy ihn =>
    rw [Expr.height] at h
    generalize hheights : [condition.height, yes.height, no.height] = heights at h
    have hc : condition.height < above heights := lt_above (by simp [← hheights])
    have hy : yes.height < above heights := lt_above (by simp [← hheights])
    have hn : no.height < above heights := lt_above (by simp [← hheights])
    rw [evaluate, within_of_le hdepth]
    refine (ihc (by omega) (by omega)).bind fun c => ?_
    split
    · exact ihy (by omega) (by omega)
    · exact ihn (by omega) (by omega)
  | call span name arguments ih =>
    have hall : ∀ a ∈ arguments, FailsWith Fault.NoOverflow (evaluate vars (depth + 1) a) := by
      intro a ha
      have hlt : a.height < above (arguments.map Expr.height) := lt_above (List.mem_map_of_mem ha)
      rw [Expr.height] at h
      exact ih a ha (by omega) (by omega)
    rw [evaluate, within_of_le hdepth]
    exact (FailsWith.evaluateAll hall).bind fun args => locate_failsWith (call_failsWith name args)

/-- A computation that fails because of too great a depth, before it has any effects. -/
def OverflowsAt (effects : Effects) {α : Type} (c : Effectful Fault α) : Prop :=
  ∃ span, c.run effects = (.error (.runtime .stackOverflow span), effects)

/-- A computation overflows if it is stopped because it is too deep, or does so itself. -/
lemma OverflowsAt.within {effects : Effects} {depth : Nat} {c : Effectful Fault Value}
    (h : depthLimit < depth ∨ OverflowsAt effects c) (span : Span) :
    OverflowsAt effects (within depth span c) := by
  unfold Lit.within
  split
  next => exact ⟨span, rfl⟩
  next hle => exact h.resolve_left hle

/-- If the first of two computations overflows, then so do both together. -/
lemma OverflowsAt.bind {effects : Effects} {α β : Type} {c : Effectful Fault α}
    (h : OverflowsAt effects c) (k : α → Effectful Fault β) : OverflowsAt effects (c >>= k) := by
  obtain ⟨span, hrun⟩ := h
  exact ⟨span, by rw [run_bind, hrun]⟩

/-- **An expression overflows** if the part that is evaluated first is too deep.

**Proof sketch.** Induction on the expression. The part that is evaluated first is one level deeper
and has one step fewer, so it overflows, and nothing is evaluated after it. An expression without
parts is too deep itself. -/
theorem evaluate_overflows (vars : Variables) (effects : Effects) (e : Expr) {depth : Nat}
    (h : depthLimit < depth + e.firstSteps) : OverflowsAt effects (evaluate vars depth e) := by
  induction e using Expr.induction generalizing depth with
  | number | string | boolean | unit | ident =>
    simp only [Expr.firstSteps, Nat.add_zero] at h
    rw [evaluate]
    exact .within (.inl h) _
  | unary span op operand ih =>
    rw [Expr.firstSteps] at h
    rw [evaluate]
    exact .within (.inr ((ih (by omega)).bind _)) span
  | binary span op left right ihl =>
    rw [Expr.firstSteps] at h
    rw [evaluate]
    exact .within (.inr ((ihl (by omega)).bind _)) span
  | conditional span condition yes no ihc =>
    rw [Expr.firstSteps] at h
    rw [evaluate]
    exact .within (.inr ((ihc (by omega)).bind _)) span
  | call span name arguments ih =>
    rw [evaluate]
    cases arguments with
    | nil =>
      simp only [Expr.firstSteps, Nat.add_zero] at h
      exact .within (.inl h) span
    | cons first more =>
      rw [Expr.firstSteps] at h
      have hfirst : OverflowsAt effects (evaluate vars (depth + 1) first) :=
        ih first List.mem_cons_self (by omega)
      rw [evaluateAll]
      exact .within (.inr ((hfirst.bind _).bind _)) span

/-! ## Programs -/

/-- **No run overflows** of statements whose expressions are not too high. -/
lemma not_overflows_runStatements {program : Program}
    (h : ∀ s ∈ program, s.value.height ≤ depthLimit) (last : Value) (vars : Variables)
    (effects : Effects) : ¬ (runStatements last program vars effects).Overflows := by
  induction program generalizing last vars effects with
  | nil =>
    rintro ⟨span, hspan⟩
    cases hspan
  | cons s rest ih =>
    rw [List.forall_mem_cons] at h
    have hfails : FailsWith Fault.NoOverflow (evaluate vars 0 s.value) :=
      evaluate_failsWith vars s.value (by omega)
    rw [runStatements]
    rcases hrun : (evaluate vars 0 s.value).run effects with ⟨fault | v, after⟩
    · rintro ⟨span, hspan⟩
      exact hfails effects fault (by rw [hrun]) span (Except.error.inj hspan)
    · exact ih h.2 v (s.bind v vars) after

/-- **Every run overflows** of statements of which the first one is too deep. -/
lemma overflows_runStatements {s : Statement} (h : depthLimit < s.value.firstSteps)
    (rest : Program) (last : Value) (vars : Variables) (effects : Effects) :
    (runStatements last (s :: rest) vars effects).Overflows := by
  obtain ⟨span, hrun⟩ : OverflowsAt effects (evaluate vars 0 s.value) :=
    evaluate_overflows vars effects s.value (by omega)
  rw [runStatements, hrun]
  exact ⟨span, rfl⟩

/-- A derivation bounds the nesting of all expressions of a program. -/
lemma Clauses.nesting_lt {depth : Nat} {ts : List Placed} {program : Program}
    (h : Clauses depth ts program) : ∀ s ∈ program, s.value.nesting < depth := by
  have hclause {ts : List Placed} {s : Statement} (h : Clause depth ts s) :
      s.value.nesting < depth := by
    cases h with
    | assign place eq name value => exact value.nesting_lt
    | expression value => exact value.nesting_lt
  induction h with
  | nil => exact List.forall_mem_nil _
  | separator place _ ih => exact ih
  | last clause => exact List.forall_mem_singleton.2 (hclause clause)
  | statement place clause _ ih => exact List.forall_mem_cons.2 ⟨hclause clause, ih⟩

/-- **Which programs that are read can overflow.** What is read is nested less than is allowed, if
the steps into the left operand of an operator and into the condition of a conditional are not
counted. So a program does not overflow, whatever the variables are, if no path takes more than one
such step, or if no path is longer than is allowed. It always overflows if the path to the part that
is evaluated first is longer than is allowed.

**Proof sketch.** A derivation bounds the nesting (`Clauses.nesting_lt`), and height is at most
nesting and left steps together (`Expr.height_le`). A program that is not too high does not overflow
(`not_overflows_runStatements`); one whose first part stands too deep does
(`overflows_runStatements`). -/
theorem overflows_of_parse {code : Text} {program : Program} (h : parse code = .ok program) :
    (∀ s ∈ program, s.value.nesting < depthLimit) ∧
    ((∀ s ∈ program, s.value.leftSteps ≤ 1) →
      ∀ vars effects, ¬ (runCode code vars effects).Overflows) ∧
    ((∀ s ∈ program, s.value.height ≤ depthLimit) →
      ∀ vars effects, ¬ (runCode code vars effects).Overflows) ∧
    (∀ s rest, program = s :: rest → depthLimit < s.value.firstSteps →
      ∀ vars effects, (runCode code vars effects).Overflows) := by
  obtain ⟨ts, -, hclauses⟩ := parse_eq_ok_iff.1 h
  have hnesting := hclauses.nesting_lt
  have hlow (hheight : ∀ s ∈ program, s.value.height ≤ depthLimit) (vars : Variables)
      (effects : Effects) : ¬ (runCode code vars effects).Overflows := by
    rw [runCode, h]
    exact not_overflows_runStatements hheight .unit vars effects
  refine ⟨hnesting, fun hleft => hlow fun s hs => ?_, hlow, ?_⟩
  · have hheight := s.value.height_le
    have hlt := hnesting s hs
    have hle := hleft s hs
    omega
  · rintro s rest rfl hfirst vars effects
    rw [runCode, h]
    exact overflows_runStatements hfirst rest .unit vars effects

/-- No path of `a + b` takes two steps into a left operand. -/
theorem not_overflows_sum :
    parse "a + b".toList = .ok [.expression (.binary ⟨0, 5⟩ .addition (.ident ⟨0, 1⟩ "a".toList)
      (.ident ⟨4, 5⟩ "b".toList))] ∧ ¬ (runCode "a + b".toList [] ⟨[], none⟩).Overflows := by
  have hparse : parse "a + b".toList =
      .ok [.expression (.binary ⟨0, 5⟩ .addition (.ident ⟨0, 1⟩ "a".toList)
        (.ident ⟨4, 5⟩ "b".toList))] := by cbv
  refine ⟨hparse, (overflows_of_parse hparse).2.1 ?_ [] ⟨[], none⟩⟩
  simp [Statement.value, Expr.leftSteps, above, greatest]

/-! ## Long sums -/

/-- **A sum of ones** with the given number of plus signs. -/
def sumOfOnes : Nat → Term
  | 0 => .number .one
  | n + 1 => .binary .addition (sumOfOnes n) (.number .one)

/-- The code of a sum of ones. -/
def sumCode (n : Nat) : Text :=
  '1' :: (List.replicate n ['+', '1']).flatten ++ ['\n']

/-- A sum of ones needs no parentheses. -/
lemma pieces_sumOfOnes (n : Nat) {needed : Symbol} (h : needed.strength ≤ 12) :
    (sumOfOnes n).pieces needed = Numeral.one.piece ::
      (List.replicate n [BinaryOp.addition.piece, Numeral.one.piece]).flatten := by
  induction n generalizing needed with
  | zero => rw [sumOfOnes, Term.pieces, List.replicate_zero, List.flatten_nil]
  | succ n ih =>
    have hright :
        (Term.number .one).pieces BinaryOp.addition.rightSymbol = [Numeral.one.piece] := by
      rw [Term.pieces]
    have hplace : ¬ BinaryOp.addition.symbol.strength < needed.strength := Nat.not_lt.2 h
    rw [sumOfOnes, Term.pieces, enclosed, if_neg hplace, ih (Nat.le_refl _), hright,
      List.replicate_succ', List.flatten_append]
    rfl

/-- A sum of ones is not nested deeper if it is longer. -/
lemma depth_sumOfOnes_le (n : Nat) {needed : Symbol} (h : needed.strength ≤ 12) :
    (sumOfOnes n).depth needed ≤ 2 := by
  induction n generalizing needed with
  | zero => simp [sumOfOnes, Term.depth]
  | succ n ih =>
    have hright : (Term.number .one).depth .multiplicative = 1 := by simp [Term.depth]
    have hplace : ¬ BinaryOp.addition.symbol.strength < needed.strength := Nat.not_lt.2 h
    rw [sumOfOnes, Term.depth, enclosedDepth, if_neg hplace]
    exact Nat.max_le.2 ⟨ih (Nat.le_refl _), Nat.succ_le_succ hright.le⟩

/-- The part of a sum of ones that is evaluated first is as deep as the sum is long. -/
lemma firstSteps_sumOfOnes (n : Nat) : (sumOfOnes n).expr.firstSteps = n := by
  induction n with
  | zero => simp [sumOfOnes, Term.expr, Expr.firstSteps]
  | succ n ih => rw [sumOfOnes, Term.expr, Expr.firstSteps, ih]

/-- The code of a sum of ones is how it is printed.

**Proof sketch.** The pieces are a one and then, as often as needed, a sign and another one
(`pieces_sumOfOnes`). Without blanks the code is their texts. -/
lemma print_sumOfOnes (n : Nat) :
    print (fun _ _ => .none) [.expression (sumOfOnes n)] = sumCode n := by
  have hspell (ps : List Piece) : spell (fun _ => .none) ps = ps.flatMap Piece.text := by
    induction ps with
    | nil => rfl
    | cons p ps ih =>
      rw [spell, ih, List.flatMap_cons]
      rfl
  have hflat :
      (List.replicate n [BinaryOp.addition.piece, Numeral.one.piece]).flatten.flatMap Piece.text =
        (List.replicate n ['+', '1']).flatten := by
    induction n with
    | zero => rfl
    | succ n ih =>
      rw [List.replicate_succ, List.replicate_succ, List.flatten_cons, List.flatten_cons,
        List.flatMap_append, ih]
      rfl
  rw [print, print, Line.pieces, pieces_sumOfOnes n (by decide), hspell, List.flatMap_cons, hflat]
  rfl

/-- **A long sum is read and overflows**: it is nested no deeper than a short one, but it is as high
as it is long. -/
theorem overflows_sumCode {n : Nat} (h : depthLimit < n) :
    ∃ program, parse (sumCode n) = .ok program ∧
      ∀ vars effects, (runCode (sumCode n) vars effects).Overflows := by
  have hdepth : ∀ line ∈ [Line.expression (sumOfOnes n)], line.value.depth .expr ≤ depthLimit := by
    rw [List.forall_mem_singleton]
    exact Nat.le_trans (depth_sumOfOnes_le n (by decide)) (by decide)
  obtain ⟨program, hprogram, hbare⟩ := exists_parse_print hdepth fun _ _ => .none
  rw [print_sumOfOnes] at hprogram
  obtain ⟨s, rfl, hs⟩ := List.map_eq_singleton_iff.1 hbare
  have hfirst : depthLimit < s.value.firstSteps := by
    rw [← Expr.firstSteps_mapOffsets fun _ => 0, ← Statement.value_mapOffsets]
    change depthLimit < s.bare.value.firstSteps
    rw [hs, Line.value_statement]
    exact h.trans_eq (firstSteps_sumOfOnes n).symm
  refine ⟨[s], hprogram, fun vars effects => ?_⟩
  rw [runCode, hprogram]
  exact overflows_runStatements hfirst [] .unit vars effects

/-- **A sum with 257 plus signs** is read and overflows. -/
theorem overflows_sumCode_257 :
    (∃ program, parse (sumCode 257) = .ok program) ∧
      (runCode (sumCode 257) [] ⟨[], none⟩).Overflows := by
  obtain ⟨program, hparse, hoverflows⟩ := overflows_sumCode (show depthLimit < 257 by decide)
  exact ⟨⟨program, hparse⟩, hoverflows [] ⟨[], none⟩⟩

end Weave.Lit
