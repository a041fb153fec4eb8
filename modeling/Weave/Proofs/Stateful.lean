import Mathlib.Tactic.Lemma

set_option autoImplicit false
set_option relaxedAutoImplicit false

/-!
# Computations with a state

What comes of a computation that goes on with another one, with a state and possibly with faults,
and what a computation does to the state whatever comes of it.

## Main definitions

* `Weave.Leads` — a computation that takes every state to a related one.

## Main results

* `Weave.bind_apply`, `Weave.run_bind` — a computation that goes on with another one.
* `Weave.Leads.bind` — two steps are a step if the relation is transitive.
-/

namespace Weave

variable {σ ε α β : Type}

/-- A run that does nothing leaves the state as it is. -/
lemma pure_apply (a : α) (state : σ) : (pure a : StateM σ α) state = (a, state) :=
  rfl

/-- A run goes on with what has come of it. -/
lemma bind_apply (x : StateM σ α) (f : α → StateM σ β) (state : σ) :
    (x >>= f) state = f (x state).1 (x state).2 :=
  rfl

/-- **What comes of two computations** of which the second goes on with the result of the first. -/
lemma run_bind (c : ExceptT ε (StateM σ) α) (k : α → ExceptT ε (StateM σ) β) (state : σ) :
    (c >>= k).run state =
      match c.run state with
      | (.ok a, state) => (k a).run state
      | (.error e, state) => (.error e, state) := by
  change (match c.run state with | (r, state) => ExceptT.bindCont k r state) = _
  rcases c.run state with ⟨_ | _, _⟩ <;> rfl

/-- **Two computations** end with the fault of the first one, or as the second one does. -/
lemma run_bind_eq {c : ExceptT ε (StateM σ) α} {k : α → ExceptT ε (StateM σ) β} {state : σ}
    {result : Except ε β × σ} (h : (c >>= k).run state = result) :
    (∃ e next, c.run state = (.error e, next) ∧ result = (.error e, next)) ∨
      ∃ a next, c.run state = (.ok a, next) ∧ (k a).run next = result := by
  rw [run_bind] at h
  rcases hc : c.run state with ⟨e | a, next⟩
  · rw [hc] at h
    exact .inl ⟨e, next, rfl, h.symm⟩
  · rw [hc] at h
    exact .inr ⟨a, next, rfl, h⟩

/-- **A computation that takes every state to a related one**, whatever comes of it. -/
def Leads (R : σ → σ → Prop) (x : StateM σ α) : Prop :=
  ∀ state, R state (x state).2

namespace Leads

variable {R : σ → σ → Prop}

/-- Doing nothing is a step if the relation is reflexive. -/
lemma of_pure (hrefl : ∀ state, R state state) (a : α) : Leads R (pure a : StateM σ α) :=
  hrefl

/-- **Two steps** are a step if the relation is transitive. -/
lemma bind (htrans : ∀ {s t u}, R s t → R t u → R s u) {x : StateM σ α} {f : α → StateM σ β}
    (hx : Leads R x) (hf : ∀ a, Leads R (f a)) : Leads R (x >>= f) :=
  fun state => htrans (hx state) (hf _ _)

end Leads

end Weave
