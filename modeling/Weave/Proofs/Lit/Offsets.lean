import Weave.Lit.Session
import Weave.Proofs.Lit.Effectful
import Weave.Proofs.Lit.Grammar

set_option autoImplicit false
set_option relaxedAutoImplicit false

/-!
# Offsets

A tree keeps the stretches of code that its parts come from. If the code is moved, then only the
offsets of these stretches change: the same derivation gives the tree with the new offsets, and
evaluation has the same effects and the same result, with faults at the new offsets.

## Main definitions

* `Weave.Lit.Expr.mapOffsets`, `Weave.Lit.Statement.mapOffsets`, `Weave.Lit.Fault.mapOffsets` — a
  function applied to all offsets.
* `Weave.Lit.RanProgram.mapOffsets` — a run whose fault has other offsets.

## Main results

* `Weave.Lit.Expr.induction` — induction on expressions, for all arguments of a call at once.
* `Weave.Lit.Clauses.mapOffsets` — derivations do not depend on offsets.
* `Weave.Lit.runStatements_mapOffsets` — running does not depend on offsets.
-/

namespace Weave.Lit

/-! ## Applying a function to all offsets -/

section

variable (f : Nat → Nat)

/-- A stretch of code with a function applied to its offsets. -/
def Span.mapOffsets (span : Span) : Span :=
  ⟨f span.start, f span.stop⟩

/-- A token with a function applied to the offsets of its stretch. -/
def Placed.mapOffsets (p : Placed) : Placed :=
  ⟨p.token, p.span.mapOffsets f⟩

/-- **An expression** with a function applied to all offsets in it. -/
def Expr.mapOffsets : Expr → Expr
  | number span x => number (span.mapOffsets f) x
  | string span t => string (span.mapOffsets f) t
  | boolean span b => boolean (span.mapOffsets f) b
  | unit span => unit (span.mapOffsets f)
  | ident span name => ident (span.mapOffsets f) name
  | unary span op operand => unary (span.mapOffsets f) op operand.mapOffsets
  | binary span op left right => binary (span.mapOffsets f) op left.mapOffsets right.mapOffsets
  | conditional span condition yes no =>
    conditional (span.mapOffsets f) condition.mapOffsets yes.mapOffsets no.mapOffsets
  | call span name arguments => call (span.mapOffsets f) name (arguments.map mapOffsets)

/-- **A statement** with a function applied to all offsets in it. -/
def Statement.mapOffsets : Statement → Statement
  | assign span name value => assign (span.mapOffsets f) name (value.mapOffsets f)
  | expression value => expression (value.mapOffsets f)

/-- A fault with a function applied to the offsets of its stretch. -/
def Fault.mapOffsets : Fault → Fault
  | syntactic fault => syntactic ⟨fault.cause, fault.span.mapOffsets f⟩
  | runtime cause span => runtime cause (span.mapOffsets f)

/-- A run with a function applied to the offsets of its fault. -/
def RanProgram.mapOffsets (r : RanProgram) : RanProgram :=
  { r with outcome := r.outcome.mapError (Fault.mapOffsets f) }

end

/-- **Induction on expressions**, where a claim about a call may use it for all arguments. -/
@[elab_as_elim]
theorem Expr.induction {motive : Expr → Prop}
    (number : ∀ span x, motive (.number span x))
    (string : ∀ span t, motive (.string span t))
    (boolean : ∀ span b, motive (.boolean span b))
    (unit : ∀ span, motive (.unit span))
    (ident : ∀ span name, motive (.ident span name))
    (unary : ∀ span op operand, motive operand → motive (.unary span op operand))
    (binary : ∀ span op left right, motive left → motive right →
      motive (.binary span op left right))
    (conditional : ∀ span condition yes no, motive condition → motive yes → motive no →
      motive (.conditional span condition yes no))
    (call : ∀ span name arguments, (∀ a ∈ arguments, motive a) →
      motive (.call span name arguments))
    (e : Expr) : motive e :=
  @Expr.rec motive (fun es => ∀ a ∈ es, motive a) number string boolean unit ident unary binary
    conditional call (List.forall_mem_nil _) (fun _ _ h hs => List.forall_mem_cons.2 ⟨h, hs⟩) e

/-! ## Derivations -/

section

variable {f : Nat → Nat} {depth : Nat} {ts : List Placed}

/-- The span of an expression is moved with it. -/
@[simp] lemma Expr.span_mapOffsets (e : Expr) : (e.mapOffsets f).span = e.span.mapOffsets f := by
  cases e <;> rw [mapOffsets] <;> rfl

/-- Moving an expression moves the span that it was given. -/
@[simp] lemma Expr.mapOffsets_withSpan (e : Expr) (span : Span) :
    (e.withSpan span).mapOffsets f = (e.mapOffsets f).withSpan (span.mapOffsets f) := by
  cases e <;> simp only [withSpan, mapOffsets]

/-- Applying two functions one after the other. -/
lemma Expr.mapOffsets_mapOffsets (g : Nat → Nat) (e : Expr) :
    (e.mapOffsets f).mapOffsets g = e.mapOffsets fun n => g (f n) := by
  induction e using Expr.induction with
  | number | string | boolean | unit | ident => simp only [mapOffsets, Span.mapOffsets]
  | unary | binary | conditional => simp only [mapOffsets, Span.mapOffsets, *]
  | call span name arguments ih =>
    simp only [mapOffsets, Span.mapOffsets, List.map_map]
    exact congrArg _ (List.map_congr_left ih)

/-- Applying two functions one after the other. -/
lemma Statement.mapOffsets_mapOffsets (g : Nat → Nat) (s : Statement) :
    (s.mapOffsets f).mapOffsets g = s.mapOffsets fun n => g (f n) := by
  cases s <;> simp only [mapOffsets, Expr.mapOffsets_mapOffsets, Span.mapOffsets]

/-- The value of a statement is moved with it. -/
@[simp] lemma Statement.value_mapOffsets (s : Statement) :
    (s.mapOffsets f).value = s.value.mapOffsets f := by
  cases s <;> rfl

/-- An expression without parts is moved with its tokens. -/
lemma Atom.mapOffsets {e : Expr} (h : Atom ts e) :
    Atom (ts.map (Placed.mapOffsets f)) (e.mapOffsets f) := by
  cases h <;> rw [Expr.mapOffsets] <;> constructor

/-- A further argument of a call with a function applied to all offsets in it. -/
def FurtherArgument.mapOffsets (f : Nat → Nat) (a : FurtherArgument) : FurtherArgument :=
  ⟨a.comma.mapOffsets f, a.tokens.map (Placed.mapOffsets f), a.value.mapOffsets f⟩

/-- The tokens of a further argument are moved with it. -/
lemma FurtherArgument.map_placed (a : FurtherArgument) :
    a.placed.map (Placed.mapOffsets f) = (a.mapOffsets f).placed :=
  rfl

/-- **An expression is derived** from its tokens wherever they are.

**Proof sketch.** Induction on the derivation: each rule is applied again to the tokens at their new
places. -/
theorem Phrase.mapOffsets {s : Symbol} {e : Expr} (h : Phrase depth s ts e) :
    Phrase depth s (ts.map (Placed.mapOffsets f)) (e.mapOffsets f) := by
  induction h with
  | tighter next _ ih => exact .tighter next ih
  | conditional question colon _ _ _ ihc ihy ihn =>
    rw [Expr.mapOffsets]
    simpa [Span.mapOffsets, Placed.mapOffsets] using
      Phrase.conditional (question.mapOffsets f) (colon.mapOffsets f) ihc ihy ihn
  | binary op place _ _ ihl ihr =>
    rw [Expr.mapOffsets]
    simpa [Span.mapOffsets, Placed.mapOffsets] using
      Phrase.binary op (place.mapOffsets f) ihl ihr
  | unary op place _ ih =>
    rw [Expr.mapOffsets]
    simpa [Span.mapOffsets, Placed.mapOffsets] using Phrase.unary op (place.mapOffsets f) ih
  | atom n h => exact .atom n h.mapOffsets
  | @call n first e place opening close name more _ _ ih ihs =>
    rw [Expr.mapOffsets]
    have hmore : ∀ a ∈ more.map (FurtherArgument.mapOffsets f),
        Phrase n .expr a.tokens a.value := by
      rw [List.forall_mem_map]
      exact ihs
    simpa [Span.mapOffsets, Placed.mapOffsets, List.map_flatMap, List.flatMap_map,
      FurtherArgument.map_placed, FurtherArgument.mapOffsets, Function.comp_def] using
      Phrase.call (place.mapOffsets f) (opening.mapOffsets f) (close.mapOffsets f) name _ ih hmore
  | parens opening close _ ih =>
    rw [Expr.mapOffsets_withSpan]
    simpa [Span.mapOffsets, Placed.mapOffsets] using
      Phrase.parens (opening.mapOffsets f) (close.mapOffsets f) ih

/-- A statement is derived from its tokens wherever they are. -/
lemma Clause.mapOffsets {s : Statement} (h : Clause depth ts s) :
    Clause depth (ts.map (Placed.mapOffsets f)) (s.mapOffsets f) := by
  cases h with
  | assign place eq name value =>
    simpa [Statement.mapOffsets, Span.mapOffsets, Placed.mapOffsets] using
      Clause.assign (place.mapOffsets f) (eq.mapOffsets f) name value.mapOffsets
  | expression value => exact .expression value.mapOffsets

/-- **A program is derived** from its tokens wherever they are. -/
theorem Clauses.mapOffsets {program : Program} (h : Clauses depth ts program) :
    Clauses depth (ts.map (Placed.mapOffsets f)) (program.map (Statement.mapOffsets f)) := by
  induction h with
  | nil => exact .nil
  | separator place _ ih => exact .separator (place.mapOffsets f) ih
  | last clause => exact .last clause.mapOffsets
  | statement place clause _ ih =>
    rw [List.map_append]
    exact .statement (place.mapOffsets f) clause.mapOffsets ih

end

/-! ## Evaluation -/

section

variable (f : Nat → Nat)

/-- A fault that is placed at the new offsets. -/
lemma settle_mapOffsets (span : Span) (r : Except RuntimeCause Value) :
    settle (span.mapOffsets f) r = ExceptT.adapt (Fault.mapOffsets f) (settle span r) := by
  cases r <;> rfl

/-- The faults of a computation that are placed at the new offsets. -/
lemma locate_mapOffsets (span : Span) (c : Effectful RuntimeCause Value) :
    locate (span.mapOffsets f) c = ExceptT.adapt (Fault.mapOffsets f) (locate span c) := by
  refine ExceptT.ext (funext fun effects => ?_)
  simp only [locate, run_adapt]
  cases (c.run effects).1 <;> rfl

/-- The fault of too great a depth at the new offsets. -/
lemma within_mapOffsets (depth : Nat) (span : Span) (c : Effectful Fault Value) :
    within depth (span.mapOffsets f) (ExceptT.adapt (Fault.mapOffsets f) c) =
      ExceptT.adapt (Fault.mapOffsets f) (within depth span c) := by
  unfold within
  split <;> rfl

/-- **The value of an expression** does not depend on offsets, but its faults are at the new
offsets.

**Proof sketch.** Induction on the expression. Offsets are looked at only where a fault is given its
place, and `within_mapOffsets`, `settle_mapOffsets` and `locate_mapOffsets` say that this comes to
the same before the map and after it. -/
theorem evaluate_mapOffsets (vars : Variables) (e : Expr) (depth : Nat) :
    evaluate vars depth (e.mapOffsets f) =
      ExceptT.adapt (Fault.mapOffsets f) (evaluate vars depth e) := by
  induction e using Expr.induction generalizing depth with
  | number | string | boolean | unit =>
    rw [Expr.mapOffsets, evaluate, evaluate, ← within_mapOffsets]
    rfl
  | ident span name =>
    rw [Expr.mapOffsets, evaluate, evaluate, ← within_mapOffsets]
    cases vars.get? name <;> rfl
  | unary span op operand ih =>
    rw [Expr.mapOffsets, evaluate, evaluate, ← within_mapOffsets, adapt_bind, ih]
    simp only [settle_mapOffsets]
  | binary span op left right ihl ihr =>
    rw [Expr.mapOffsets, evaluate, evaluate, ← within_mapOffsets, adapt_bind, ihl]
    congr 2
    funext l
    cases op.decided? l with
    | some v => rfl
    | none => simp only [adapt_bind, ihr, settle_mapOffsets]
  | conditional span condition yes no ihc ihy ihn =>
    rw [Expr.mapOffsets, evaluate, evaluate, ← within_mapOffsets, adapt_bind, ihc]
    congr 2
    funext c
    split
    · exact ihy _
    · exact ihn _
  | call span name arguments ih =>
    have hall : evaluateAll vars (depth + 1) (arguments.map (Expr.mapOffsets f)) =
        ExceptT.adapt (Fault.mapOffsets f) (evaluateAll vars (depth + 1) arguments) := by
      induction arguments with
      | nil => rfl
      | cons a more ihmore =>
        rw [List.forall_mem_cons] at ih
        simp only [List.map_cons, evaluateAll, adapt_bind, adapt_pure, ih.1, ihmore ih.2]
    rw [Expr.mapOffsets, evaluate, evaluate, ← within_mapOffsets, adapt_bind, hall]
    simp only [locate_mapOffsets]

/-- **Running statements** does not depend on offsets, but a fault is at the new offsets. -/
theorem runStatements_mapOffsets (program : Program) (last : Value) (vars : Variables)
    (effects : Effects) :
    runStatements last (program.map (Statement.mapOffsets f)) vars effects =
      (runStatements last program vars effects).mapOffsets f := by
  induction program generalizing last vars effects with
  | nil => rfl
  | cons s rest ih =>
    have hbind (v : Value) : (s.mapOffsets f).bind v vars = s.bind v vars := by cases s <;> rfl
    rw [List.map_cons, runStatements, runStatements, Statement.value_mapOffsets,
      evaluate_mapOffsets, run_adapt]
    rcases (evaluate vars 0 s.value).run effects with ⟨_ | v, effects⟩
    · rfl
    · simp only [Except.mapError, hbind]
      exact ih v (s.bind v vars) effects

end

end Weave.Lit
