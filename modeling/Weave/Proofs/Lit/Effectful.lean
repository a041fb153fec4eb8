import Weave.Lit.Evaluate
import Weave.Proofs.Stateful

set_option autoImplicit false
set_option relaxedAutoImplicit false

/-!
# Effectful computations

How a change of its faults passes through a computation with effects, and which faults it can have
at all.

## Main definitions

* `Weave.Lit.FailsWith` — a computation that fails with faults of a kind only.

## Main results

* `Weave.Lit.adapt_bind` — changing the faults of both parts changes those of the whole.
* `Weave.Lit.FailsWith.bind` — the faults of a whole are those of its parts.
-/

namespace Weave.Lit

variable {ε ε' α β : Type}

/-! ## Other faults -/

section

variable (g : ε → ε')

/-- Changing the faults of a computation keeps its effects. -/
lemma run_adapt (c : Effectful ε α) (effects : Effects) :
    (ExceptT.adapt g c).run effects = ((c.run effects).1.mapError g, (c.run effects).2) :=
  rfl

/-- There is no fault to change in a result. -/
lemma adapt_pure (a : α) : ExceptT.adapt g (pure a : Effectful ε α) = pure a :=
  rfl

/-- **Changing the faults** of two computations changes those of one after the other. -/
lemma adapt_bind (c : Effectful ε α) (k : α → Effectful ε β) :
    ExceptT.adapt g (c >>= k) = ExceptT.adapt g c >>= fun a => ExceptT.adapt g (k a) := by
  refine ExceptT.ext (funext fun effects => ?_)
  rw [run_adapt, run_bind, run_bind, run_adapt]
  rcases c.run effects with ⟨_ | _, _⟩ <;> rfl

end

/-! ## Faults of a kind -/

/-- **A computation fails with faults of a kind only**, whatever was written and displayed
before. -/
def FailsWith (P : ε → Prop) (c : Effectful ε α) : Prop :=
  ∀ effects e, (c.run effects).1 = .error e → P e

namespace FailsWith

variable {P : ε → Prop}

/-- A result is no fault. -/
lemma of_pure (a : α) : FailsWith P (pure a : Effectful ε α) :=
  nofun

/-- Failing at once is failing with this fault only. -/
lemma of_throw {e : ε} (h : P e) : FailsWith P (throw e : Effectful ε α) := by
  rintro effects _ ⟨⟩
  exact h

/-- An effect is no fault. -/
lemma of_modify (f : Effects → Effects) : FailsWith P (modify f : Effectful ε Unit) :=
  nofun

/-- **The faults of two computations**, one after the other, are those of both. -/
lemma bind {c : Effectful ε α} {k : α → Effectful ε β} (hc : FailsWith P c)
    (hk : ∀ a, FailsWith P (k a)) : FailsWith P (c >>= k) := by
  intro effects e he
  rw [run_bind] at he
  rcases hrun : c.run effects with ⟨f | a, after⟩
  · rw [hrun] at he
    cases he
    exact hc effects e (by rw [hrun])
  · rw [hrun] at he
    exact hk a after e he

/-- A computation that fails with faults of a kind fails with faults of a wider one. -/
lemma mono {Q : ε → Prop} {c : Effectful ε α} (hc : FailsWith P c) (h : ∀ e, P e → Q e) :
    FailsWith Q c :=
  fun effects e he => h e (hc effects e he)

/-- If faults are changed, then a computation fails with the changed faults only. -/
lemma adapt {g : ε' → ε} {c : Effectful ε' α} (hc : FailsWith (fun e => P (g e)) c) :
    FailsWith P (ExceptT.adapt g c) := by
  intro effects e he
  rw [run_adapt] at he
  rcases hrun : c.run effects with ⟨f | a, after⟩
  · rw [hrun] at he
    cases he
    exact hc effects f (by rw [hrun])
  · rw [hrun] at he
    cases he

/-- The faults of expressions, one after the other, are those of all of them. -/
lemma evaluateAll {P : Fault → Prop} {vars : Variables} {depth : Nat} {es : List Expr}
    (h : ∀ e ∈ es, FailsWith P (evaluate vars depth e)) :
    FailsWith P (evaluateAll vars depth es) := by
  induction es with
  | nil => exact .of_pure []
  | cons e es ih =>
    rw [List.forall_mem_cons] at h
    exact h.1.bind fun v => (ih h.2).bind fun vs => .of_pure (v :: vs)

end FailsWith

end Weave.Lit
