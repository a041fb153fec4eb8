import Weave.Page
import Weave.Proofs.Sandbox.Sequence
import Weave.Proofs.Stateful
import Weave.Proofs.Text.Trimming

set_option autoImplicit false
set_option relaxedAutoImplicit false

/-!
# A page by the blocks that were run for it

What a run shows on a page is told by what came of the blocks, one after another. So a page whose
images can be saved is made exactly if no block faults.

## Main definitions

* `Weave.Chunk.code?` — the code of a chunk.
* `Weave.Page.shownOf` — what is shown of sections whose blocks were run.
* `Weave.Page.ofRan` — the page of chunks whose blocks were run.

## Main results

* `Weave.Page.ofRunChunks_eq` — a run of a page is a run of its blocks.
* `Weave.Page.filterMap_code?_sections_of_terminated` — the blocks where no chunk goes on.
-/

namespace Weave

/-- **The code of a chunk**: its lines with line feeds between them. -/
def Chunk.code? : Chunk → Option Text
  | .prose _ => none
  | .code lines _ => some (Text.unrows lines)

/-- A chunk of code that does not go on ends its block. -/
lemma Chunk.eq_terminated {lines : List Text} {continuation : Continuation}
    (h : (code lines continuation).isContinued = false) : continuation = .terminated := by
  cases continuation with
  | terminated => rfl
  | continued => cases h

namespace Page

variable {σ ν ε ω : Type}

/-- **What is shown of sections** whose blocks were run, as it stands on the page. -/
def shownOf (sandbox : Sandbox σ ν ε) : List Section → List (Executed ν) → List Text
  | [], _ => []
  | s :: ss, dones =>
    match s.code?, dones with
    | some code, done :: dones =>
      (Shown.ofBlock sandbox done).text code :: shownOf sandbox ss dones
    | _, dones => [] :: shownOf sandbox ss dones

/-- **The page of chunks whose blocks were run**, unless one of them has faulted. -/
def ofRan (sandbox : Sandbox σ ν ε) (s : Settings) (cs : List Chunk) (ran : RanBlocks σ ν ε) :
    Except (Failure ε) Text :=
  match ran.fault? with
  | some fault => .error (.execution fault)
  | none => .ok (assemble s cs (shownOf sandbox (sections [] cs) ran.done))

/-- What comes of sections whose blocks were run. -/
def resultsOf (sandbox : Sandbox σ ν ε) (ss : List Section) (ran : RanBlocks σ ν ε) :
    Except (Failure ε) (List Text) :=
  match ran.fault? with
  | some fault => .error (.execution fault)
  | none => .ok (shownOf sandbox ss ran.done)

variable {write : Text → Bytes → StateM ω (Except FileFault Unit)} {sandbox : Sandbox σ ν ε}

/-- Nothing is shown of a section without a block. -/
lemma map_resultsOf_none (chunk : Chunk) (ss : List Section) (ran : RanBlocks σ ν ε) :
    (resultsOf sandbox ss ran).map ([] :: ·) = resultsOf sandbox (⟨chunk, none⟩ :: ss) ran := by
  unfold resultsOf
  cases ran.fault? <;> rfl

/-- What is shown of a section comes before what is shown of the sections after it. -/
lemma map_resultsOf_some (chunk : Chunk) (code : Text) (ss : List Section) (ran : RanBlocks σ ν ε)
    (done : Executed ν) :
    (resultsOf sandbox ss ran).map ((Shown.ofBlock sandbox done).text code :: ·) =
      resultsOf sandbox (⟨chunk, some code⟩ :: ss) { ran with done := done :: ran.done } := by
  unfold resultsOf
  cases ran.fault? <;> rfl

/-- **A run of sections is a run of their blocks**, if no image fails to be saved.

**Proof sketch.** Induction on the sections. A section without code leaves the files and the state
as they are. A block faults on both sides, or runs to its end; then its image is saved by
hypothesis, and the rest is run in the same state. -/
theorem results_eq_resultsOf {ss : List Section} {state : σ} {world : ω}
    (hsaved : ∀ fault, (results write sandbox ss state world).1 ≠ .error (.file fault)) :
    (results write sandbox ss state world).1 =
      resultsOf sandbox ss (executeAll sandbox (ss.filterMap Section.code?) state) := by
  induction ss generalizing state world with
  | nil => rfl
  | cons s ss ih =>
    obtain ⟨chunk, code?⟩ := s
    cases code? with
    | none =>
      have hmap : (results write sandbox (⟨chunk, none⟩ :: ss) state world).1 =
          (results write sandbox ss state world).1.map ([] :: ·) := rfl
      rw [hmap, ih fun fault h => hsaved fault (by rw [hmap, h]; rfl), List.filterMap_cons_none rfl]
      exact map_resultsOf_none chunk ss _
    | some code =>
      have hcodes : (Section.mk chunk (some code) :: ss).filterMap Section.code? =
          code :: ss.filterMap Section.code? := rfl
      rw [hcodes]
      rcases hrun : execute sandbox code state with ⟨fault | done, next⟩
      · rw [executeAll_cons_of_error hrun, results]
        simp only [hrun]
        rfl
      · rw [executeAll_cons_of_ok hrun]
        rcases hsave : (Shown.ofBlock sandbox done).save write code world with ⟨fault | _, world'⟩
        · refine absurd ?_ (hsaved fault)
          rw [results]
          simp only [hrun, bind_apply, hsave]
          rfl
        · have hmap : (results write sandbox (⟨chunk, some code⟩ :: ss) state world).1 =
              (results write sandbox ss next world').1.map
                ((Shown.ofBlock sandbox done).text code :: ·) := by
            rw [results]
            simp only [hrun, bind_apply, hsave]
            rfl
          rw [hmap, ih fun fault h => hsaved fault (by rw [hmap, h]; rfl)]
          exact map_resultsOf_some chunk code ss _ done

/-- **A run of a page is a run of its blocks**, if no image fails to be saved. -/
theorem ofRunChunks_eq {s : Settings} {cs : List Chunk} {state : σ} {world : ω}
    (hsaved : ∀ fault, (ofRunChunks write sandbox state s cs world).1 ≠ .error (.file fault)) :
    (ofRunChunks write sandbox state s cs world).1 =
      ofRan sandbox s cs
        (executeAll sandbox ((sections [] cs).filterMap Section.code?) state) := by
  have hmap : (ofRunChunks write sandbox state s cs world).1 =
      (results write sandbox (sections [] cs) state world).1.map (assemble s cs) := rfl
  rw [hmap, results_eq_resultsOf fun fault h => hsaved fault (by rw [hmap, h]; rfl)]
  unfold resultsOf ofRan
  generalize executeAll sandbox ((sections [] cs).filterMap Section.code?) state = ran
  cases ran.fault? <;> rfl

/-- **Where no chunk goes on** each chunk of code is a block, without the blanks at its end. -/
theorem filterMap_code?_sections_of_terminated {cs : List Chunk}
    (h : ∀ c ∈ cs, c.isContinued = false) :
    (sections [] cs).filterMap Section.code? = (cs.filterMap Chunk.code?).map Text.trimEnd := by
  induction cs with
  | nil => rfl
  | cons c cs ih =>
    rw [List.forall_mem_cons] at h
    cases c with
    | prose lines => exact ih h.2
    | code lines continuation =>
      have htrim : Text.trimEnd ([] ++ Text.unrows lines ++ ['\n']) = (Text.unrows lines).trimEnd :=
        Text.trimEnd_append_blanks (List.forall_mem_singleton.2 rfl) _
      rw [sections, if_pos (.inl (Chunk.eq_terminated h.1)), htrim]
      exact congrArg ((Text.unrows lines).trimEnd :: ·) (ih h.2)

end Page

end Weave
