import Weave.Lit.Session
import Weave.Notebook.Execution
import Weave.Proofs.Sandbox.Sequence

set_option autoImplicit false
set_option relaxedAutoImplicit false

/-!
# What running a notebook changes

A run gives the cells of code to the sandbox, one after another, and what it makes of them is told
by what came of these blocks: the cells that were run to their ends get numbers and outputs, and
nothing else is changed. The numbers and outputs that a cell had before make no difference, so a run
that is made again ends as it did before.

## Main definitions

* `Weave.Notebook.cleared` — a notebook without numbers and outputs.
* `Weave.Notebook.codes` — the codes of its cells.
* `Weave.Notebook.fill` — cells with numbers and outputs of blocks that were run.
* `Weave.Notebook.AreOutputsOf` — what the outputs of a cell say about a block.

## Main results

* `Weave.Notebook.run_eq` — a run of a notebook is a run of its codes.
* `Weave.Notebook.run_fills_cells` — what a run makes of each cell.
* `Weave.Notebook.run_eq_run_of_cleared_eq` — what a run does not depend on.
-/

namespace Weave.Notebook

variable {σ ν ε : Type}

/-! ## Cells without results -/

/-- A cell without its number and its outputs. -/
def Cell.cleared : Cell → Cell
  | .markdown metadata source => .markdown metadata source
  | .code _ metadata _ source => .code none metadata [] source

/-- **A notebook without results**: no cell has a number or outputs. -/
def cleared (nb : Notebook) : Notebook :=
  { nb with cells := nb.cells.map Cell.cleared }

/-- A cell of code with a number and outputs. -/
def Cell.numbered (count : Nat) (outputs : List Output) : Cell → Cell
  | .markdown metadata source => .markdown metadata source
  | .code _ metadata _ source => .code (some count) metadata outputs source

/-- The codes of the cells that hold code. -/
def codesOf (cells : List Cell) : List Text :=
  (cells.filter Cell.isCode).map fun cell => cell.source.flatten

/-- **The codes of a notebook**, in order. -/
def codes (nb : Notebook) : List Text :=
  codesOf nb.cells

/-- The codes do not depend on results. -/
lemma codesOf_map_cleared (cells : List Cell) :
    codesOf (cells.map Cell.cleared) = codesOf cells := by
  induction cells with
  | nil => rfl
  | cons cell cells ih =>
    cases cell with
    | markdown metadata source => exact ih
    | code count? metadata outputs source => exact congrArg (source.flatten :: ·) ih

/-- Notebooks that differ in results only have the same codes. -/
lemma codes_eq_of_cleared_eq {nb₁ nb₂ : Notebook} (h : nb₁.cleared = nb₂.cleared) :
    nb₁.codes = nb₂.codes := by
  rw [codes, ← codesOf_map_cleared]
  exact (congrArg (fun nb => codesOf nb.cells) h).trans (codesOf_map_cleared nb₂.cells)

/-! ## Filled cells -/

/-- **Cells that were run**: those of code are numbered from `count + 1` on and hold the outputs of
the blocks, as long as there are any. -/
def fill (sandbox : Sandbox σ ν ε) (count : Nat) : List (Executed ν) → List Cell → List Cell
  | [], cells => cells
  | _, [] => []
  | dones, .markdown metadata source :: cells =>
    .markdown metadata source :: fill sandbox count dones cells
  | done :: dones, .code count? metadata outputs source :: cells =>
    Cell.numbered (count + 1) (outputsOf sandbox (count + 1) done)
      (.code count? metadata outputs source) :: fill sandbox (count + 1) dones cells

variable {sandbox : Sandbox σ ν ε}

/-- Nothing is filled in if no block was run. -/
@[simp] lemma fill_nil (count : Nat) (cells : List Cell) : fill sandbox count [] cells = cells := by
  rw [fill]

/-- There are no cells to be filled. -/
@[simp] lemma fill_no_cells (count : Nat) (dones : List (Executed ν)) :
    fill sandbox count dones [] = [] := by
  cases dones <;> rw [fill]
  nofun

/-- Cells of prose are kept. -/
@[simp] lemma fill_markdown (count : Nat) (dones : List (Executed ν)) (metadata : Json.Fields)
    (source : List Text) (cells : List Cell) :
    fill sandbox count dones (.markdown metadata source :: cells) =
      .markdown metadata source :: fill sandbox count dones cells := by
  cases dones with
  | nil => rw [fill_nil, fill_nil]
  | cons done dones => rw [fill]; nofun

/-- A cell of code is filled with the next block. -/
@[simp] lemma fill_code (count : Nat) (done : Executed ν) (dones : List (Executed ν))
    (count? : Option Nat) (metadata : Json.Fields) (outputs : List Output) (source : List Text)
    (cells : List Cell) :
    fill sandbox count (done :: dones) (.code count? metadata outputs source :: cells) =
      Cell.code (some (count + 1)) metadata (outputsOf sandbox (count + 1) done) source ::
        fill sandbox (count + 1) dones cells := by
  rw [fill]
  rfl

/-- **Running cells** is running their codes and filling them. -/
theorem runCells_eq (sandbox : Sandbox σ ν ε) (count : Nat) (cells : List Cell) (state : σ) :
    runCells sandbox count cells state =
      { fault? := (executeAll sandbox (codesOf cells) state).fault?
        cells := fill sandbox count (executeAll sandbox (codesOf cells) state).done cells
        state := (executeAll sandbox (codesOf cells) state).state } := by
  induction cells generalizing count state with
  | nil => simp [runCells, codesOf, executeAll]
  | cons cell cells ih =>
    cases cell with
    | markdown metadata source =>
      rw [runCells, ih, fill_markdown]
      rfl
    | code count? metadata outputs source =>
      have hcodes : codesOf (.code count? metadata outputs source :: cells) =
          source.flatten :: codesOf cells := rfl
      rw [runCells, hcodes]
      rcases h : execute sandbox source.flatten state with ⟨fault | done, next⟩
      · rw [executeAll_cons_of_error h, fill_nil]
      · dsimp only
        rw [executeAll_cons_of_ok h, ih, fill_code]

/-- **Running a notebook** is running its codes and filling its cells. -/
theorem run_eq (sandbox : Sandbox σ ν ε) (nb : Notebook) (state : σ) :
    nb.run sandbox state =
      ((executeAll sandbox nb.codes state).fault?,
        { nb with cells := fill sandbox 0 (executeAll sandbox nb.codes state).done nb.cells }) := by
  rw [run, runCells_eq]
  rfl

/-- Filling cells adds results and nothing else. -/
lemma map_cleared_fill (count : Nat) (dones : List (Executed ν)) (cells : List Cell) :
    (fill sandbox count dones cells).map Cell.cleared = cells.map Cell.cleared := by
  induction cells generalizing count dones with
  | nil => rw [fill_no_cells]
  | cons cell cells ih =>
    cases cell with
    | markdown metadata source => rw [fill_markdown, List.map_cons, ih, List.map_cons]
    | code count? metadata outputs source =>
      cases dones with
      | nil => rw [fill_nil]
      | cons done dones =>
        rw [fill_code, List.map_cons, ih, List.map_cons]
        rfl

variable (sandbox) in
/-- **A cell whose block was run** gets the next number and the outputs of the block.

**Proof sketch.** Induction on the cells. Text is passed over, and each cell of code takes the next
result and the next number. -/
lemma getElem?_filter_fill {dones : List (Executed ν)} {done : Executed ν} {k : Nat}
    (h : dones[k]? = some done) (count : Nat) (cells : List Cell) :
    ((fill sandbox count dones cells).filter Cell.isCode)[k]? =
      (cells.filter Cell.isCode)[k]?.map
        (Cell.numbered (count + k + 1) (outputsOf sandbox (count + k + 1) done)) := by
  induction cells generalizing count dones k with
  | nil => rw [fill_no_cells]; rfl
  | cons cell cells ih =>
    cases cell with
    | markdown metadata source =>
      rw [fill_markdown]
      exact ih h count
    | code count? metadata outputs source =>
      cases dones with
      | nil => cases h
      | cons done' dones =>
        rw [fill_code]
        cases k with
        | zero =>
          cases h
          rfl
        | succ k =>
          have hrest : dones[k]? = some done := h
          have hfill := ih hrest (count + 1)
          rw [Nat.add_right_comm count 1 k] at hfill
          exact hfill

/-- The cells after those whose blocks were run are kept. -/
lemma getElem?_filter_fill_of_le {dones : List (Executed ν)} {k : Nat} (h : dones.length ≤ k)
    (count : Nat) (cells : List Cell) :
    ((fill sandbox count dones cells).filter Cell.isCode)[k]? =
      (cells.filter Cell.isCode)[k]? := by
  induction cells generalizing count dones k with
  | nil => rw [fill_no_cells]
  | cons cell cells ih =>
    cases cell with
    | markdown metadata source =>
      rw [fill_markdown]
      exact ih h count
    | code count? metadata outputs source =>
      cases dones with
      | nil => rw [fill_nil]
      | cons done dones =>
        rw [fill_code]
        cases k with
        | zero => cases h
        | succ k => exact ih (Nat.le_of_succ_le_succ h) (count + 1)

/-! ## What is changed -/

/-- **What the outputs of a cell say about a block**, the cell having a number: what was written, in
lines, unless nothing was; then what was displayed; then the value, if there is one. -/
def AreOutputsOf (sandbox : Sandbox σ ν ε) (count : Nat) (done : Executed ν)
    (outputs : List Output) : Prop :=
  ∃ streams displays results, outputs = streams ++ displays ++ results ∧
    (done.output = [] → streams = []) ∧
    (done.output ≠ [] →
      ∃ lines, streams = [.stream "stdout".toList lines] ∧ lines.flatten = done.output) ∧
    displays = (done.displays.map fun bundle => Output.displayData (bundleData bundle) []) ∧
    (done.value? = none → results = []) ∧
    ∀ v, done.value? = some v →
      results = [.executeResult count (bundleData (Bundle.of (sandbox.shows v))) []]

/-- The outputs that a cell gets are those of its block. -/
lemma areOutputsOf_outputsOf (sandbox : Sandbox σ ν ε) (count : Nat) (done : Executed ν) :
    AreOutputsOf sandbox count done (outputsOf sandbox count done) := by
  refine ⟨_, _, _, rfl, fun h => if_pos h, fun h => ⟨_, if_neg h, ?_⟩, rfl, fun h => ?_,
    fun v h => ?_⟩
  · exact Text.flatten_pieces done.output
  · rw [h]
    rfl
  · rw [h]
    rfl

/-- **What a run makes of each cell.** The cells whose blocks were run to their ends are numbered
from one on and hold the outputs of their blocks. If no block faults, these are all cells of code;
and if one does, it is the block of the next cell, and this cell and those after it are kept. But
for numbers and outputs nothing is changed.

**Proof sketch.** A run is the blocks run in order, and filling with what they have done (`run_eq`).
Filling takes the cells of code in order (`getElem?_filter_fill`) and clears to the same notebook.
As many blocks are done as there are cells of code, or the block of the next cell faults
(`getElem?_of_fault?_executeAll`). -/
theorem run_fills_cells (sandbox : Sandbox σ ν ε) (nb : Notebook) (state : σ) :
    let ran := executeAll sandbox nb.codes state
    let after := (nb.run sandbox state).2
    (nb.run sandbox state).1 = ran.fault? ∧
    after.cleared = nb.cleared ∧
    (∀ k done, ran.done[k]? = some done → ∃ metadata outputs source,
      after.codeCells[k]? = some (.code (some (k + 1)) metadata outputs source) ∧
        AreOutputsOf sandbox (k + 1) done outputs) ∧
    (∀ k, ran.done.length ≤ k → after.codeCells[k]? = nb.codeCells[k]?) ∧
    (ran.fault? = none → ran.done.length = nb.codeCells.length) ∧
    (∀ fault, ran.fault? = some fault → ∃ cell, nb.codeCells[ran.done.length]? = some cell ∧
      fault.code = cell.source.flatten) := by
  have hlength : nb.codes.length = nb.codeCells.length := List.length_map _
  dsimp only
  rw [run_eq]
  refine ⟨rfl, ?_, fun k done hdone => ?_, fun k hk => ?_, fun h => ?_, fun fault h => ?_⟩
  · rw [cleared, map_cleared_fill]
    rfl
  · obtain ⟨hk, -⟩ := List.getElem?_eq_some_iff.1 hdone
    have hle := length_done_executeAll_le sandbox nb.codes state
    have hcell : k < nb.codeCells.length := by omega
    have hcode := (List.mem_filter.1 (List.getElem_mem hcell)).2
    have hfill := getElem?_filter_fill sandbox hdone 0 nb.cells
    rw [Nat.zero_add] at hfill
    change _ = (nb.codeCells[k]?).map _ at hfill
    rw [List.getElem?_eq_getElem hcell] at hfill
    cases hkind : nb.codeCells[k] with
    | markdown metadata source =>
      rw [hkind] at hcode
      cases hcode
    | code count? metadata outputs source =>
      rw [hkind] at hfill
      exact ⟨metadata, _, source, hfill, areOutputsOf_outputsOf sandbox (k + 1) done⟩
  · exact getElem?_filter_fill_of_le hk 0 nb.cells
  · rw [length_done_executeAll h, hlength]
  · have hcode := getElem?_of_fault?_executeAll h
    rw [codes, codesOf, List.getElem?_map, Option.map_eq_some_iff] at hcode
    obtain ⟨cell, hcell, hcode⟩ := hcode
    exact ⟨cell, hcell, hcode.symm⟩

/-! ## What a run does not depend on -/

/-- **Old results are lost** when all cells are filled.

**Proof sketch.** Induction on the cells. Two cells that are cleared to the same are of one kind and
have the same source. A cell of code is given a new number and new outputs, so nothing is left of
the old ones. -/
lemma fill_eq_of_map_cleared_eq {cells₁ cells₂ : List Cell}
    (h : cells₁.map Cell.cleared = cells₂.map Cell.cleared) (count : Nat)
    {dones : List (Executed ν)} (hall : dones.length = (codesOf cells₁).length) :
    fill sandbox count dones cells₁ = fill sandbox count dones cells₂ := by
  induction cells₁ generalizing cells₂ count dones with
  | nil =>
    obtain rfl := List.map_eq_nil_iff.1 h.symm
    rfl
  | cons cell₁ cells₁ ih =>
    cases cells₂ with
    | nil => cases h
    | cons cell₂ cells₂ =>
      obtain ⟨hcell, hcells⟩ := List.cons.inj h
      cases cell₁ with
      | markdown metadata source =>
        cases cell₂ with
        | code _ _ _ _ => cases hcell
        | markdown _ _ =>
          cases hcell
          rw [fill_markdown, fill_markdown, ih hcells count hall]
      | code _ _ _ source =>
        cases cell₂ with
        | markdown _ _ => cases hcell
        | code _ _ _ _ =>
          cases hcell
          cases dones with
          | nil => cases hall
          | cons done dones =>
            rw [fill_code, fill_code, ih hcells (count + 1) (Nat.succ.inj hall)]

/-- Cells that are filled again with the same blocks stay as they are. -/
lemma fill_fill (count : Nat) (dones : List (Executed ν)) (cells : List Cell) :
    fill sandbox count dones (fill sandbox count dones cells) =
      fill sandbox count dones cells := by
  induction cells generalizing count dones with
  | nil => rw [fill_no_cells, fill_no_cells]
  | cons cell cells ih =>
    cases cell with
    | markdown metadata source => rw [fill_markdown, fill_markdown, ih]
    | code count? metadata outputs source =>
      cases dones with
      | nil => rw [fill_nil, fill_nil]
      | cons done dones => rw [fill_code, fill_code, ih]

/-- A run leaves the codes as they are. -/
lemma codes_run (sandbox : Sandbox σ ν ε) (nb : Notebook) (state : σ) :
    (nb.run sandbox state).2.codes = nb.codes := by
  refine codes_eq_of_cleared_eq ?_
  rw [run_eq, cleared, map_cleared_fill]
  rfl

/-- **Old results make no difference to a run.** Notebooks that differ in results only, run from the
same state, end in the same fault or in none, and if in none, they are the same afterwards. So a
notebook that was run is left as it is by the same run, which ends as it did before.

**Proof sketch.** The codes are the same, and so is what comes of them. If all blocks are run to
their ends, every cell of code is filled; and what was filled is filled with the same again. -/
theorem run_eq_run_of_cleared_eq (sandbox : Sandbox σ ν ε) (state : σ) {nb₁ nb₂ : Notebook}
    (h : nb₁.cleared = nb₂.cleared) :
    (nb₁.run sandbox state).1 = (nb₂.run sandbox state).1 ∧
    ((nb₁.run sandbox state).1 = none → (nb₁.run sandbox state).2 = (nb₂.run sandbox state).2) ∧
    (nb₁.run sandbox state).2.run sandbox state = nb₁.run sandbox state := by
  have hcodes := codes_eq_of_cleared_eq h
  refine ⟨?_, fun hnone => ?_, ?_⟩
  · rw [run_eq, run_eq, hcodes]
  · rw [run_eq] at hnone
    have hall := length_done_executeAll hnone
    obtain ⟨hcells, hmetadata, hmajor, hminor⟩ := Notebook.mk.inj h
    rw [run_eq, run_eq, fill_eq_of_map_cleared_eq hcells 0 hall, hcodes, hmetadata, hmajor, hminor]
  · rw [run_eq sandbox (nb₁.run sandbox state).2, codes_run, run_eq]
    exact congrArg (fun cells => (_, { nb₁ with cells })) (fill_fill 0 _ nb₁.cells)

/-- A notebook that was run before, with other numbers and another output. -/
def staleNotebook : Notebook where
  cells := [.code (some 7) [] [.stream "stdout".toList ["old\n".toList]] ["println(\"a\")".toList],
    .markdown [] ["prose".toList], .code (some 9) [] [] ["\"b\" # c".toList]]
  metadata := []
  major := 4
  minor := 2

/-- It is run like the notebook without these results, and in the end is the same. -/
theorem run_eq_run_of_cleared_eq_staleNotebook :
    staleNotebook.cleared = staleNotebook.cleared.cleared ∧
      (staleNotebook.run Lit.sandbox {}).1 = none ∧
      (staleNotebook.run Lit.sandbox {}).2 = (staleNotebook.cleared.run Lit.sandbox {}).2 ∧
      (staleNotebook.run Lit.sandbox {}).2.run Lit.sandbox {} =
        staleNotebook.run Lit.sandbox {} := by
  have hcleared : staleNotebook.cleared = staleNotebook.cleared.cleared := rfl
  have hnone : (staleNotebook.run Lit.sandbox {}).1 = none := by
    rw [← Option.isNone_iff_eq_none]
    decide +kernel
  obtain ⟨-, hsame, hagain⟩ := run_eq_run_of_cleared_eq Lit.sandbox {} hcleared
  exact ⟨hcleared, hnone, hsame hnone, hagain⟩

end Weave.Notebook
