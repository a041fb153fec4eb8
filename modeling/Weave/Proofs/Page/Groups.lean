import Mathlib.Data.List.SplitBy
import Weave.Proofs.Page.Images
import Weave.Proofs.Sandbox.Sequence

set_option autoImplicit false
set_option relaxedAutoImplicit false

/-!
# The code that a page runs

The chunks of code of a page fall into groups, and a group is run as one block when its last chunk
is reached. A run takes the groups in order, each of them once. It goes through all of them unless a
block faults or an image cannot be saved, and there it stops.

## Main definitions

* `Weave.Page.codeGroups`, `Weave.Page.groupText` — the groups, and the code that a group is run as.
* `Weave.Sandbox.recording` — a sandbox that keeps a record of what it is given to run.
* `Weave.Page.resultsAndState` — a run that also returns the sandbox as it leaves it.
* `Weave.Page.RunsWell` — blocks that are run one after another without a fault.
* `Weave.Page.Ended` — how a run can end.

## Main results

* `Weave.Page.filterMap_code?_sections` — the code of the sections is that of the groups.
* `Weave.Page.results_eq` — returning the sandbox as well makes no difference to a run.
* `Weave.Page.resultsAndState_recording` — what a run gives the sandbox to run, and how it ends.
* `Weave.Page.ofRunChunks_preserves` — what saving images leaves true, making a page does too.
* `Weave.Page.ofRunChunks_runs_groups` — what a page gives the sandbox to run, group by group.
* `Weave.Page.ofRunChunks_leaves_groups` — it need not be all of the groups.
-/

namespace Weave

/-- **A sandbox that keeps a record** of what it is given to run, and otherwise is as another
one. -/
def Sandbox.recording {σ ν ε : Type} (sandbox : Sandbox σ ν ε) : Sandbox (σ × List Text) ν ε where
  pushDisplay s := (sandbox.pushDisplay s.1, s.2)
  popDisplay s := ((sandbox.popDisplay s.1).1, (sandbox.popDisplay s.1).2, s.2)
  run code s :=
    let ran := sandbox.run code s.1
    { outcome := ran.outcome, output := ran.output, state := (ran.state, s.2 ++ [code]) }
  shows := sandbox.shows
  faultMessage := sandbox.faultMessage
  suppresses s code := sandbox.suppresses s.1 code

namespace Page

/-! ## Groups -/

/-- The code of a chunk, with a line feed at its end. -/
def codeText : Chunk → Text
  | .prose _ => []
  | .code lines _ => Text.unrows lines ++ ['\n']

/-- **The groups** of the chunks of code: a group ends at a chunk that does not go on, or at the
last chunk of code. -/
def codeGroups (cs : List Chunk) : List (List Chunk) :=
  (cs.filter Chunk.isCode).splitBy fun c _ => c.isContinued

/-- **The code that a group is run as.** -/
def groupText (group : List Chunk) : Text :=
  Text.trimEnd (group.flatMap codeText)

/-- A group that is closed by a chunk, which does not go on or is the last one of code, comes before
the groups of the chunks after it. -/
lemma splitBy_isContinued {before after : List Chunk} {c : Chunk}
    (hbefore : ∀ b ∈ before, b.isContinued = true) (hc : c.isContinued = false ∨ after = []) :
    (before ++ c :: after).splitBy (fun c _ => c.isContinued) =
      (before ++ [c]) :: after.splitBy (fun c _ => c.isContinued) := by
  have hgroup : (before ++ [c]).splitBy (fun c _ => c.isContinued) = [before ++ [c]] := by
    refine List.splitBy_of_isChain (by simp) ?_
    rw [List.isChain_iff_forall_rel_of_append_cons_cons]
    intro a b left right heq
    have hinit : before = left ++ a :: (b :: right).dropLast := by
      simpa using congrArg List.dropLast heq
    exact hbefore a (by simp [hinit])
  rw [List.append_cons, List.splitBy_append, hgroup]
  · rfl
  · rintro a ha d hd
    rw [List.getLast?_concat, Option.mem_some_iff] at ha
    rcases hc with hc | rfl
    · exact ha ▸ hc
    · cases hd

/-- **The code of the sections** is that of the groups. The chunks of the group that is still open
come before the chunks of the page.

**Proof sketch.** Induction on the chunks, with the chunks `before` of the group that is open. Prose
makes no code. A chunk of code that goes on is added to the group, since more code follows. Any
other one ends the group, and so does the last one; there `splitBy` cuts as well
(`splitBy_isContinued`). -/
lemma filterMap_code?_sections {before cs : List Chunk}
    (hbefore : ∀ b ∈ before, b.isContinued = true)
    (hopen : before ≠ [] → ∃ c ∈ cs, c.isCode = true) :
    (sections (before.flatMap codeText) cs).filterMap Section.code? =
      ((before ++ cs.filter Chunk.isCode).splitBy fun c _ => c.isContinued).map groupText := by
  induction cs generalizing before with
  | nil =>
    obtain rfl : before = [] := by
      by_contra hne
      obtain ⟨c, hc, -⟩ := hopen hne
      cases hc
    rfl
  | cons c cs ih =>
    cases c with
    | prose lines =>
      exact ih hbefore fun hne => by simpa [Chunk.isCode] using hopen hne
    | code lines continuation =>
      set c := Chunk.code lines continuation with hchunk
      have hcode : before.flatMap codeText ++ Text.unrows lines ++ ['\n'] =
          (before ++ [c]).flatMap codeText := by
        simp [hchunk, codeText]
      have hfilter : (c :: cs).filter Chunk.isCode = c :: cs.filter Chunk.isCode := rfl
      rw [hfilter, hchunk, sections, hcode, ← hchunk]
      split
      next hends =>
        have hc : c.isContinued = false ∨ cs.filter Chunk.isCode = [] := by
          rcases hends with rfl | hlast
          · exact .inl rfl
          · refine .inr (List.filter_eq_nil_iff.2 fun d hd => ?_)
            simpa using List.all_eq_true.1 hlast d hd
        rw [splitBy_isContinued hbefore hc, List.map_cons, List.filterMap_cons]
        exact congrArg _ (@ih [] (List.forall_mem_nil _) (absurd rfl))
      next hgoes =>
        rw [not_or] at hgoes
        have hcontinued : ∀ b ∈ before ++ [c], b.isContinued = true := by
          rw [List.forall_mem_append, List.forall_mem_singleton]
          refine ⟨hbefore, ?_⟩
          cases continuation with
          | terminated => exact absurd rfl hgoes.1
          | continued => rfl
        have hmore : ∃ d ∈ cs, d.isCode = true := by
          simpa using hgoes.2
        rw [List.append_cons before c (cs.filter Chunk.isCode)]
        exact ih hcontinued fun _ => hmore

/-- The code of the sections of a page is that of its groups. -/
lemma filterMap_code?_sections_nil (cs : List Chunk) :
    (sections [] cs).filterMap Section.code? = (codeGroups cs).map groupText :=
  filterMap_code?_sections (List.forall_mem_nil _) (absurd rfl)

/-! ## Runs -/

section Runs

variable {σ ν ε ω : Type} {sandbox : Sandbox σ ν ε}
  {write : Text → Bytes → StateM ω (Except FileFault Unit)}

/-- **Runs the code of sections** and also returns the sandbox as this leaves it. -/
def resultsAndState (write : Text → Bytes → StateM ω (Except FileFault Unit))
    (sandbox : Sandbox σ ν ε) :
    List Section → σ → StateM ω (Except (Failure ε) (List Text) × σ)
  | [], state => pure (.ok [], state)
  | s :: rest, state =>
    match s.code? with
    | none => do
      let (shown, last) ← resultsAndState write sandbox rest state
      return (shown.map ([] :: ·), last)
    | some code =>
      match execute sandbox code state with
      | (.error fault, last) => pure (.error (.execution fault), last)
      | (.ok done, state) => do
        let shown := Shown.ofBlock sandbox done
        match ← shown.save write code with
        | .error fault => return (.error (.file fault), state)
        | .ok () =>
          let (more, last) ← resultsAndState write sandbox rest state
          return (more.map (shown.text code :: ·), last)

/-- **Returning the sandbox as well** makes no difference to a run.

**Proof sketch.** Induction on the sections: both make the same steps, and the one keeps the last
sandbox besides. -/
lemma results_eq (ss : List Section) (state : σ) (world : ω) :
    results write sandbox ss state world =
      ((resultsAndState write sandbox ss state world).1.1,
        (resultsAndState write sandbox ss state world).2) := by
  induction ss generalizing state world with
  | nil => rfl
  | cons s ss ih =>
    rw [results, resultsAndState]
    cases s.code? with
    | none =>
      simp only [bind_apply, ih]
      rfl
    | some code =>
      dsimp only
      obtain ⟨outcome, next⟩ := execute sandbox code state
      cases outcome with
      | error fault => rfl
      | ok done =>
        simp only [bind_apply]
        obtain ⟨saved, world'⟩ := (Shown.ofBlock sandbox done).save write code world
        cases saved with
        | error fault => rfl
        | ok _ =>
          simp only [bind_apply, ih]
          rfl

/-- A sandbox that keeps a record runs a block as the other one does, and adds its code to the
record. -/
lemma execute_recording (code : Text) (state : σ) (record : List Text) :
    execute sandbox.recording code (state, record) =
      ((execute sandbox code state).1, (execute sandbox code state).2, record ++ [code]) := by
  simp only [execute, Sandbox.recording]
  cases (sandbox.run code (sandbox.pushDisplay state)).outcome <;> rfl

/-- Blocks that are run one after another, from a state of the sandbox and of the files to another
one. None of them faults, and every image is saved. -/
inductive RunsWell (write : Text → Bytes → StateM ω (Except FileFault Unit))
    (sandbox : Sandbox σ ν ε) : σ → ω → List Text → σ → ω → Prop
  | nil (state : σ) (world : ω) : RunsWell write sandbox state world [] state world
  | cons {state next last : σ} {world world' final : ω} {code : Text} {done : Executed ν}
    {codes : List Text} :
    execute sandbox code state = (.ok done, next) →
      (Shown.ofBlock sandbox done).save write code world = (.ok (), world') →
      RunsWell write sandbox next world' codes last final →
      RunsWell write sandbox state world (code :: codes) last final

/-- **How a run ends**, after the blocks it has run and before those that are left. Either it has
gone through all of them; or the last of the blocks it has run has faulted; or this block has not,
but its image cannot be saved to the files as the blocks before have left them. -/
inductive Ended {α : Type} (write : Text → Bytes → StateM ω (Except FileFault Unit))
    (sandbox : Sandbox σ ν ε) (state : σ) (world : ω) :
    Except (Failure ε) α → σ → ω → List Text → List Text → Prop
  | ok {a : α} {last : σ} {final : ω} {ran : List Text} :
    RunsWell write sandbox state world ran last final →
      Ended write sandbox state world (.ok a) last final ran []
  | fault {fault : BlockFault ε} {st last : σ} {final : ω} {ran rest : List Text} :
    RunsWell write sandbox state world ran st final →
      execute sandbox fault.code st = (.error fault, last) →
      Ended write sandbox state world (.error (.execution fault)) last final (ran ++ [fault.code])
        rest
  | unsaved {fault : FileFault} {code : Text} {done : Executed ν} {mime : Mime} {payload : Payload}
    {st last : σ} {reached final : ω} {ran rest : List Text} :
    RunsWell write sandbox state world ran st reached →
      execute sandbox code st = (.ok done, last) →
      Shown.ofBlock sandbox done = .image mime payload →
      write (imageName code mime) payload.bytes reached = (.error fault, final) →
      Ended write sandbox state world (.error (.file fault)) last final (ran ++ [code]) rest

/-- What is made of the outcome of a run does not matter to how it ends. -/
lemma Ended.map {α β : Type} {outcome : Except (Failure ε) α} {state last : σ} {world final : ω}
    {ran rest : List Text} (h : Ended write sandbox state world outcome last final ran rest)
    (f : α → β) : Ended write sandbox state world (outcome.map f) last final ran rest := by
  cases h with
  | ok hran => exact .ok hran
  | fault hran hfault => exact .fault hran hfault
  | unsaved hran hdone hshown hwrite => exact .unsaved hran hdone hshown hwrite

/-- A run that begins with a block which does not fault, and whose image is saved, ends as the rest
of it does. -/
lemma Ended.cons {α : Type} {outcome : Except (Failure ε) α} {state next last : σ}
    {world world' final : ω} {code : Text} {done : Executed ν} {ran rest : List Text}
    (hdone : execute sandbox code state = (.ok done, next))
    (hsave : (Shown.ofBlock sandbox done).save write code world = (.ok (), world'))
    (h : Ended write sandbox next world' outcome last final ran rest) :
    Ended write sandbox state world outcome last final (code :: ran) rest := by
  cases h with
  | ok hran => exact .ok (.cons hdone hsave hran)
  | fault hran hfault => exact .fault (.cons hdone hsave hran) hfault
  | unsaved hran hdone' hshown hwrite =>
    exact .unsaved (.cons hdone hsave hran) hdone' hshown hwrite

/-- Only an image can fail to be saved. -/
lemma exists_image_of_save_error {shown : Shown} {code : Text} {fault : FileFault}
    {world next : ω} (h : shown.save write code world = (.error fault, next)) :
    ∃ mime payload, shown = .image mime payload ∧
      write (imageName code mime) payload.bytes world = (.error fault, next) := by
  cases shown with
  | image mime payload => exact ⟨mime, payload, rfl, h⟩
  | nothing => cases h
  | markdown t => cases h
  | plain t => cases h

/-- **What a run gives the sandbox to run**, and how it ends: the record has grown by the blocks
that were run, which together with those that are left are the code of the sections.

**Proof sketch.** By sections, each time for the sandbox, its record and the files that the sections
before have left. -/
theorem resultsAndState_recording (write : Text → Bytes → StateM ω (Except FileFault Unit))
    (sandbox : Sandbox σ ν ε) (ss : List Section) (state : σ) (record : List Text) (world : ω) :
    ∃ outcome last ran rest next,
      resultsAndState write sandbox.recording ss (state, record) world =
        ((outcome, last, record ++ ran), next) ∧
      results write sandbox ss state world = (outcome, next) ∧
      ran ++ rest = ss.filterMap Section.code? ∧
      Ended write sandbox state world outcome last next ran rest := by
  induction ss generalizing state record world with
  | nil =>
    refine ⟨.ok [], state, [], [], world, ?_, rfl, rfl, .ok (.nil state world)⟩
    rw [List.append_nil]
    rfl
  | cons s ss ih =>
    rw [resultsAndState, results, List.filterMap_cons]
    cases s.code? with
    | none =>
      obtain ⟨outcome, last, ran, rest, next, hrecord, hrun, hcodes, hended⟩ :=
        ih state record world
      refine ⟨_, last, ran, rest, next, ?_, ?_, hcodes, hended.map ([] :: ·)⟩
      · simp only [bind_apply, hrecord]
        rfl
      · simp only [bind_apply, hrun]
        rfl
    | some code =>
      simp only [execute_recording]
      cases hdone : execute sandbox code state with
      | mk outcome st =>
        cases outcome with
        | error fault =>
          obtain rfl := code_of_execute_error hdone
          exact ⟨_, st, [fault.code], _, world, rfl, rfl, rfl,
            .fault (.nil state world) hdone⟩
        | ok done =>
          simp only [bind_apply]
          cases hsave : (Shown.ofBlock sandbox done).save write code world with
          | mk saved world' =>
            -- What is shown of a block does not depend on the record.
            have hsave' : (Shown.ofBlock sandbox.recording done).save write code world =
                (saved, world') := hsave
            simp only [hsave']
            cases saved with
            | error fault =>
              obtain ⟨mime, payload, hshown, hwrite⟩ := exists_image_of_save_error hsave
              exact ⟨_, st, [code], _, world', rfl, rfl, rfl,
                .unsaved (.nil state world) hdone hshown hwrite⟩
            | ok _ =>
              obtain ⟨outcome, last, ran, rest, next, hrecord, hrun, hcodes, hended⟩ :=
                ih st (record ++ [code]) world'
              refine ⟨_, last, code :: ran, rest, next, ?_, ?_, by rw [List.cons_append, hcodes],
                (hended.cons hdone hsave).map ((Shown.ofBlock sandbox done).text code :: ·)⟩
              · rw [List.append_cons record code ran]
                simp only [bind_apply, hrecord]
                rfl
              · simp only [bind_apply, hrun]
                rfl

/-- **What is true of the files** stays true of them in a run, if it does when an image of one of
the blocks is saved.

**Proof sketch.** Induction on the sections. Running a block does not touch the files, and saving
its image preserves what is true of them by hypothesis. After a fault nothing more is done. -/
theorem results_preserves {P : ω → Prop} {ss : List Section}
    (hwrite : ∀ code ∈ ss.filterMap Section.code?, ∀ mime ∈ Mime.images, ∀ payload : Payload,
      ∀ world, P world → P (write (imageName code mime) payload.bytes world).2)
    (state : σ) {world : ω} (h : P world) : P (results write sandbox ss state world).2 := by
  induction ss generalizing state world with
  | nil => exact h
  | cons s ss ih =>
    rw [results]
    cases hcode : s.code? with
    | none =>
      simp only [List.filterMap_cons, hcode] at hwrite
      exact ih hwrite state h
    | some code =>
      simp only [List.filterMap_cons, hcode] at hwrite
      rw [List.forall_mem_cons] at hwrite
      obtain ⟨hfirst, hrest⟩ := hwrite
      dsimp only
      obtain ⟨outcome, next⟩ := execute sandbox code state
      cases outcome with
      | error fault => exact h
      | ok done =>
        have hsaved : P ((Shown.ofBlock sandbox done).save write code world).2 := by
          cases hshown : Shown.ofBlock sandbox done with
          | image mime payload => exact hfirst mime (mem_images_of_ofBlock hshown) payload world h
          | nothing => exact h
          | markdown t => exact h
          | plain t => exact h
        simp only [bind_apply]
        generalize (Shown.ofBlock sandbox done).save write code world = saved at hsaved ⊢
        obtain ⟨outcome, world'⟩ := saved
        cases outcome with
        | error fault => exact hsaved
        | ok _ => exact ih hrest next hsaved

/-- **What is true of the files** stays true of them while a page is made. -/
theorem ofRunChunks_preserves {P : ω → Prop} {cs : List Chunk}
    (hwrite : ∀ group ∈ codeGroups cs, ∀ mime ∈ Mime.images, ∀ payload : Payload, ∀ world,
      P world → P (write (imageName (groupText group) mime) payload.bytes world).2)
    (state : σ) (s : Settings) {world : ω} (h : P world) :
    P (ofRunChunks write sandbox state s cs world).2 := by
  rw [ofRunChunks, bind_apply]
  refine results_preserves ?_ state h
  rw [filterMap_code?_sections_nil, List.forall_mem_map]
  exact hwrite

/-- **A page runs its groups** in order, each of them once: whatever the sandbox, what it is given
to run is the code of the first groups. If the page is made, it is the code of all of them. If a
block faults, the fault comes with the code of the last group that was run. Else the image of this
group cannot be saved.

**Proof sketch.** The run is recorded block by block (`resultsAndState_recording`), and the code of
the sections is that of the groups (`filterMap_code?_sections_nil`). -/
theorem ofRunChunks_runs_groups (write : Text → Bytes → StateM ω (Except FileFault Unit))
    (sandbox : Sandbox σ ν ε) (state : σ) (s : Settings) (cs : List Chunk) (world : ω) :
    ∃ outcome last ran rest next,
      resultsAndState write sandbox.recording (sections [] cs) (state, []) world =
        ((outcome, last, ran), next) ∧
      ofRunChunks write sandbox state s cs world = (outcome.map (assemble s cs), next) ∧
      ran ++ rest = (codeGroups cs).map groupText ∧
      Ended write sandbox state world outcome last next ran rest := by
  obtain ⟨outcome, last, ran, rest, next, hrecord, hrun, hcodes, hended⟩ :=
    resultsAndState_recording write sandbox (sections [] cs) state [] world
  refine ⟨outcome, last, ran, rest, next, hrecord, ?_,
    hcodes.trans (filterMap_code?_sections_nil cs), hended⟩
  rw [ofRunChunks, bind_apply, hrun]
  rfl

end Runs

/-- The fault of a file that a run has ended in. -/
def fileFault? {ε α : Type} : Except (Failure ε) α → Option FileFault
  | .error (.file fault) => some fault
  | _ => none

/-- A run has ended in the fault of a file only if it has failed. -/
lemma eq_error_of_fileFault? {ε α : Type} {outcome : Except (Failure ε) α} {fault : FileFault}
    (h : fileFault? outcome = some fault) : outcome = .error (.file fault) := by
  unfold fileFault? at h
  split at h
  next => rw [Option.some.inj h]
  next => cases h

/-- A page whose first block shows an image, and whose second block faults if it is run. -/
def imageThenMissing : List Chunk :=
  [.code ["svg(\"a\")".toList] .terminated, .code ["missing".toList] .terminated]

/-- **A page need not run all of its groups** if none of those that it runs faults: it stops at an
image that cannot be saved, here because there is no directory for it. -/
theorem ofRunChunks_leaves_groups :
    (∃ last next, resultsAndState (writeInto "missing".toList) Lit.sandbox.recording
        (sections [] imageThenMissing) ({}, []) Tree.bare =
      ((.error (.file .notFound), last, ["svg(\"a\")".toList]), next)) ∧
    (codeGroups imageThenMissing).map groupText = ["svg(\"a\")".toList, "missing".toList] ∧
    (execute Lit.sandbox "svg(\"a\")".toList {}).1.isOk = true ∧
    (execute Lit.sandbox "missing".toList (execute Lit.sandbox "svg(\"a\")".toList {}).2).1.isOk =
      false := by
  refine ⟨?_, by decide +kernel, by decide +kernel, by decide +kernel⟩
  have hrun : fileFault? (resultsAndState (writeInto "missing".toList) Lit.sandbox.recording
        (sections [] imageThenMissing) ({}, []) Tree.bare).1.1 = some .notFound ∧
      (resultsAndState (writeInto "missing".toList) Lit.sandbox.recording
        (sections [] imageThenMissing) ({}, []) Tree.bare).1.2.2 = ["svg(\"a\")".toList] := by
    decide +kernel
  obtain ⟨hfault, hran⟩ := hrun
  exact ⟨_, _, Prod.ext (Prod.ext (eq_error_of_fileFault? hfault) (Prod.ext rfl hran)) rfl⟩

end Page

end Weave
