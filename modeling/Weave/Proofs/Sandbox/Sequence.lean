import Mathlib.Tactic.Lemma
import Weave.Sandbox

set_option autoImplicit false
set_option relaxedAutoImplicit false

/-!
# Blocks that are run one after another

Whatever an artifact makes of its blocks, it runs them in one sandbox, in order, up to the first one
that faults. What comes of this depends on the codes and on the sandbox alone, so artifacts that run
the same codes can be compared without looking at what they are made of.

## Main definitions

* `Weave.executeAll` — runs blocks up to the first one that faults.

## Main results

* `Weave.getElem?_of_fault?_executeAll` — the block that faults is the first one after those that
  were run to their ends.
* `Weave.length_done_executeAll` — without a fault all blocks are run to their ends.
-/

namespace Weave

variable {σ ν ε : Type}

/-- What came of blocks that were run one after another: what came of each of them that was run to
its end, the fault of the one that was not, and the state afterwards. -/
structure RanBlocks (σ ν ε : Type) where
  done : List (Executed ν)
  fault? : Option (BlockFault ε)
  state : σ

/-- **Runs blocks one after another**, up to the first one that faults. -/
def executeAll (sandbox : Sandbox σ ν ε) : List Text → σ → RanBlocks σ ν ε
  | [], state => { done := [], fault? := none, state }
  | code :: codes, state =>
    match execute sandbox code state with
    | (.error fault, state) => { done := [], fault? := some fault, state }
    | (.ok done, state) =>
      let ran := executeAll sandbox codes state
      { ran with done := done :: ran.done }

variable {sandbox : Sandbox σ ν ε} {code : Text} {codes : List Text} {state next : σ}

/-- A block that faults is the last one. -/
lemma executeAll_cons_of_error {fault : BlockFault ε}
    (h : execute sandbox code state = (.error fault, next)) :
    executeAll sandbox (code :: codes) state =
      { done := [], fault? := some fault, state := next } := by
  rw [executeAll, h]

/-- After a block that does not fault the other ones are run. -/
lemma executeAll_cons_of_ok {done : Executed ν}
    (h : execute sandbox code state = (.ok done, next)) :
    executeAll sandbox (code :: codes) state =
      { executeAll sandbox codes next with
        done := done :: (executeAll sandbox codes next).done } := by
  rw [executeAll, h]

/-- A fault of a block comes with the code of the block. -/
lemma code_of_execute_error {fault : BlockFault ε}
    (h : execute sandbox code state = (.error fault, next)) : fault.code = code := by
  unfold execute at h
  dsimp only at h
  split at h
  next =>
    cases h
    rfl
  next => cases h

variable (sandbox) in
/-- Not more blocks are run to their ends than there are. -/
lemma length_done_executeAll_le (codes : List Text) (state : σ) :
    (executeAll sandbox codes state).done.length ≤ codes.length := by
  induction codes generalizing state with
  | nil => exact Nat.le_refl 0
  | cons code codes ih =>
    rcases h : execute sandbox code state with ⟨fault | done, next⟩
    · rw [executeAll_cons_of_error h]
      exact Nat.zero_le _
    · rw [executeAll_cons_of_ok h]
      exact Nat.succ_le_succ (ih next)

/-- **The block that faults** is the first one after those that were run to their ends. -/
theorem getElem?_of_fault?_executeAll {fault : BlockFault ε}
    (h : (executeAll sandbox codes state).fault? = some fault) :
    codes[(executeAll sandbox codes state).done.length]? = some fault.code := by
  induction codes generalizing state with
  | nil => cases h
  | cons code codes ih =>
    rcases hrun : execute sandbox code state with ⟨fault' | done, next⟩
    · rw [executeAll_cons_of_error hrun] at h ⊢
      cases h
      rw [code_of_execute_error hrun]
      rfl
    · rw [executeAll_cons_of_ok hrun] at h ⊢
      exact ih h

/-- **Without a fault** all blocks are run to their ends. -/
theorem length_done_executeAll (h : (executeAll sandbox codes state).fault? = none) :
    (executeAll sandbox codes state).done.length = codes.length := by
  induction codes generalizing state with
  | nil => rfl
  | cons code codes ih =>
    rcases hrun : execute sandbox code state with ⟨fault | done, next⟩
    · rw [executeAll_cons_of_error hrun] at h
      cases h
    · rw [executeAll_cons_of_ok hrun] at h ⊢
      exact congrArg Nat.succ (ih h)

end Weave
