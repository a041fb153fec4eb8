import Weave.Proofs.Lit.Offsets

set_option autoImplicit false
set_option relaxedAutoImplicit false

/-!
# How deep expressions are

Measures of the depth of an expression. They count the steps of the paths from the whole to its
parts: all of them, those into the left operand of an operator and into the condition of a
conditional, and the others. Reading counts the last kind only.

## Main definitions

* `Weave.Lit.Expr.height` — the most steps on a path.
* `Weave.Lit.Expr.nesting`, `Weave.Lit.Expr.leftSteps` — the most steps of the two kinds.
* `Weave.Lit.Expr.firstSteps` — the steps on the path to the part that is evaluated first.

## Main results

* `Weave.Lit.Expr.height_le` — a path has no more steps than there are of the two kinds.
* `Weave.Lit.Phrase.nesting_lt` — a derivation bounds the steps that reading counts.
-/

namespace Weave.Lit

/-! ## The greatest of some numbers -/

/-- The greatest of some numbers, and zero if there are none. -/
def greatest (ns : List Nat) : Nat :=
  ns.foldr max 0

/-- One more than the greatest of some numbers, and zero if there are none. -/
def above (ns : List Nat) : Nat :=
  greatest (ns.map (· + 1))

/-- The greatest of some numbers is at most a bound if each of them is. -/
@[simp] lemma greatest_le_iff {ns : List Nat} {n : Nat} : greatest ns ≤ n ↔ ∀ m ∈ ns, m ≤ n := by
  induction ns with
  | nil => simp [greatest]
  | cons m ns ih =>
    rw [List.forall_mem_cons, ← ih]
    exact Nat.max_le

/-- One more than the greatest is at most a bound if each of the numbers is less than it. -/
@[simp] lemma above_le_iff {ns : List Nat} {n : Nat} : above ns ≤ n ↔ ∀ m ∈ ns, m < n := by
  rw [above, greatest_le_iff, List.forall_mem_map]
  rfl

/-- No number is more than the greatest. -/
lemma le_greatest {ns : List Nat} {m : Nat} (h : m ∈ ns) : m ≤ greatest ns :=
  greatest_le_iff.1 (Nat.le_refl _) m h

/-- Every number is less than one more than the greatest. -/
lemma lt_above {ns : List Nat} {m : Nat} (h : m ∈ ns) : m < above ns :=
  above_le_iff.1 (Nat.le_refl _) m h

/-! ## Measures -/

namespace Expr

/-- **The height**: the most steps on a path from an expression to a part. -/
def height : Expr → Nat
  | unary _ _ operand => above [operand.height]
  | binary _ _ left right => above [left.height, right.height]
  | conditional _ condition yes no => above [condition.height, yes.height, no.height]
  | call _ _ arguments => above (arguments.map height)
  | _ => 0

/-- **The nesting**: the most steps on a path that do not lead into the left operand of an operator
or the condition of a conditional. -/
def nesting : Expr → Nat
  | unary _ _ operand => above [operand.nesting]
  | binary _ _ left right => max left.nesting (above [right.nesting])
  | conditional _ condition yes no => max condition.nesting (above [yes.nesting, no.nesting])
  | call _ _ arguments => above (arguments.map nesting)
  | _ => 0

/-- The most steps on a path that lead into the left operand of an operator or the condition of a
conditional. -/
def leftSteps : Expr → Nat
  | unary _ _ operand => operand.leftSteps
  | binary _ _ left right => max (above [left.leftSteps]) right.leftSteps
  | conditional _ condition yes no =>
    max (above [condition.leftSteps]) (max yes.leftSteps no.leftSteps)
  | call _ _ arguments => greatest (arguments.map leftSteps)
  | _ => 0

/-- **The steps on the path to the part that is evaluated first.** -/
def firstSteps : Expr → Nat
  | unary _ _ operand => operand.firstSteps + 1
  | binary _ _ left _ => left.firstSteps + 1
  | conditional _ condition _ _ => condition.firstSteps + 1
  | call _ _ (first :: _) => first.firstSteps + 1
  | _ => 0

/-- **The steps of a path** are of the two kinds.

**Proof sketch.** Induction on the expression. A step to the left counts as one of `leftSteps`, any
other step as one of `nesting`, and the greatest of the parts is at least as great as each
(`lt_above`). -/
theorem height_le (e : Expr) : e.height ≤ e.nesting + e.leftSteps := by
  induction e using Expr.induction with
  | number | string | boolean | unit | ident => simp [height]
  | unary span op operand ih =>
    have hnesting := lt_above (List.mem_singleton_self operand.nesting)
    simp only [height, nesting, leftSteps, above_le_iff, List.forall_mem_singleton]
    omega
  | binary span op left right ihl ihr =>
    have hright := lt_above (List.mem_singleton_self right.nesting)
    have hleft := lt_above (List.mem_singleton_self left.leftSteps)
    simp only [height, nesting, leftSteps, above_le_iff, List.forall_mem_cons]
    refine ⟨?_, ?_, List.forall_mem_nil _⟩ <;> omega
  | conditional span condition yes no ihc ihy ihn =>
    have hcondition := lt_above (List.mem_singleton_self condition.leftSteps)
    have hyes : yes.nesting < above [yes.nesting, no.nesting] := lt_above (by simp)
    have hno : no.nesting < above [yes.nesting, no.nesting] := lt_above (by simp)
    simp only [height, nesting, leftSteps, above_le_iff, List.forall_mem_cons]
    refine ⟨?_, ?_, ?_, List.forall_mem_nil _⟩ <;> omega
  | call span name arguments ih =>
    simp only [height, nesting, leftSteps, above_le_iff, List.forall_mem_map]
    intro a ha
    have hle := ih a ha
    have hnesting := lt_above (List.mem_map_of_mem (f := nesting) ha)
    have hleft := le_greatest (List.mem_map_of_mem (f := leftSteps) ha)
    omega

/-! ## Places make no difference -/

/-- Moving an expression keeps its height. -/
@[simp] lemma height_mapOffsets (f : Nat → Nat) (e : Expr) :
    (e.mapOffsets f).height = e.height := by
  induction e using Expr.induction with
  | number | string | boolean | unit | ident => simp only [mapOffsets, height]
  | unary | binary | conditional => simp only [mapOffsets, height, *]
  | call span name arguments ih =>
    simp only [mapOffsets, height, List.map_map]
    exact congrArg above (List.map_congr_left ih)

/-- Moving an expression keeps the steps to the part that is evaluated first. -/
@[simp] lemma firstSteps_mapOffsets (f : Nat → Nat) (e : Expr) :
    (e.mapOffsets f).firstSteps = e.firstSteps := by
  induction e using Expr.induction with
  | number | string | boolean | unit | ident => simp only [mapOffsets, firstSteps]
  | unary | binary | conditional => simp only [mapOffsets, firstSteps, *]
  | call span name arguments ih =>
    cases arguments with
    | nil => simp only [mapOffsets, firstSteps, List.map_nil]
    | cons first more =>
      simp only [mapOffsets, firstSteps, List.map_cons, ih first List.mem_cons_self]

/-- Another span keeps the nesting of an expression. -/
@[simp] lemma nesting_withSpan (e : Expr) (span : Span) :
    (e.withSpan span).nesting = e.nesting := by
  cases e <;> simp only [withSpan, nesting]

end Expr

/-- **A derivation bounds the nesting** of an expression, whatever parentheses it has.

**Proof sketch.** Induction on the derivation. A rule that takes a level is one of those whose parts
count as nested; the left operand of an operator and the condition of a conditional take none. -/
theorem Phrase.nesting_lt {depth : Nat} {s : Symbol} {ts : List Placed} {e : Expr}
    (h : Phrase depth s ts e) : e.nesting < depth := by
  induction h with
  | tighter _ _ ih => exact ih
  | conditional question colon _ _ _ ihc ihy ihn =>
    have hbranches := above_le_iff.2 (List.forall_mem_cons.2 ⟨ihy, List.forall_mem_singleton.2 ihn⟩)
    rw [Expr.nesting]
    omega
  | binary op place _ _ ihl ihr =>
    have hright := above_le_iff.2 (List.forall_mem_singleton.2 ihr)
    rw [Expr.nesting]
    omega
  | unary op place _ ih =>
    rw [Expr.nesting, Nat.lt_succ_iff, above_le_iff]
    exact List.forall_mem_singleton.2 ih
  | atom n h => exact Nat.lt_succ_of_le (by cases h <;> simp [Expr.nesting])
  | call place opening close name more _ _ ih ihs =>
    rw [Expr.nesting, Nat.lt_succ_iff, above_le_iff, List.forall_mem_map, List.forall_mem_cons,
      List.forall_mem_map]
    exact ⟨ih, ihs⟩
  | parens opening close _ ih =>
    rw [Expr.nesting_withSpan]
    exact Nat.lt_succ_of_lt ih

end Weave.Lit
