import Weave.Proofs.Chunk.Endings
import Weave.Proofs.Notebook.Building
import Weave.Proofs.Notebook.Running
import Weave.Proofs.Page.Running
import Weave.Proofs.Sandbox.Trimming

set_option autoImplicit false
set_option relaxedAutoImplicit false

/-!
# A page and a notebook of the same chunks

A page and a notebook run the same blocks of code in the same order, if each chunk of code is a
block and no chunk begins with the head of a cell. But a page runs a block without the blanks at its
end, and a notebook runs the cell as it is. So they agree up to the first block that faults, and
hardly differ there.

## Main results

* `Weave.Notebook.ofChunks_eq_ok` — the notebook of chunks without heads of cells.
* `Weave.page_and_notebook_run_alike` — what a page and a notebook make of the same blocks.
* `Weave.page_and_notebook_differ` — that it need not be the same.
-/

namespace Weave

namespace Notebook

/-- The chunk does not begin with the head of a cell. -/
def IsHeadless (c : Chunk) : Prop :=
  ∀ line ∈ (linesOfChunk c).head?, CellHeader.ofLine? (ε := Lit.Fault) line = none

/-- Whether a chunk is without a head is decided by reading its first line. -/
instance (c : Chunk) : Decidable (IsHeadless c) :=
  inferInstanceAs (Decidable (∀ line ∈ (linesOfChunk c).head?,
    CellHeader.ofLine? (ε := Lit.Fault) line = none))

/-- A chunk without head is the source of its cell. -/
lemma cellOfChunk_eq_ok {c : Chunk} (h : IsHeadless c) :
    cellOfChunk (ε := Lit.Fault) c =
      .ok (.fresh (kindOfChunk c) [] (sourceLines (linesOfChunk c))) :=
  cellOfChunk_of_not_isHead fun line hline => CellHeader.ofLine?_eq_none_iff.1 (h line hline)

/-- **The notebook of chunks without heads of cells** has the code of the chunks. -/
lemma cellsOfChunks_eq_ok {cs : List Chunk} (h : ∀ c ∈ cs, IsHeadless c) :
    ∃ cells, cellsOfChunks (ε := Lit.Fault) cs = .ok cells ∧
      codesOf cells = cs.filterMap Chunk.code? := by
  induction cs with
  | nil => exact ⟨[], rfl, rfl⟩
  | cons c cs ih =>
    rw [List.forall_mem_cons] at h
    obtain ⟨cells, hcells, hcodes⟩ := ih h.2
    refine ⟨.fresh (kindOfChunk c) [] (sourceLines (linesOfChunk c)) :: cells, ?_, ?_⟩
    · rw [cellsOfChunks_cons_of_ok (cellOfChunk_eq_ok h.1), hcells]
      rfl
    · cases c with
      | prose lines => exact hcodes
      | code lines continuation =>
        have hsource : (sourceLines lines).flatten = Text.unrows lines := flatten_sourceLines lines
        change (sourceLines lines).flatten :: codesOf cells = _
        rw [hsource, hcodes]
        rfl

/-- The notebook is made, and its codes are those of the chunks. -/
theorem ofChunks_eq_ok (s : Settings) {cs : List Chunk} (h : ∀ c ∈ cs, IsHeadless c) :
    ∃ nb, ofChunks (ε := Lit.Fault) s cs = .ok nb ∧ nb.codes = cs.filterMap Chunk.code? := by
  obtain ⟨cells, hcells, hcodes⟩ := cellsOfChunks_eq_ok h
  refine ⟨{ empty s with cells }, ?_, hcodes⟩
  rw [ofChunks, hcells]
  rfl

end Notebook

/-- A place that takes any image and keeps none. -/
def takeAll : Text → Bytes → StateM Unit (Except FileFault Unit) :=
  fun _ _ => pure (.ok ())

variable {ω : Type} {write : Text → Bytes → StateM ω (Except FileFault Unit)} {s : Settings}
  {cs ds : List Chunk} {merge : Bool} {world : ω}

/-- **The blanks at the end of a block** in normal form hold no line feed, if no line of the chunks
does. -/
lemma lineFeed_not_mem_of_trimEnd_eq (hnormal : cs = Chunk.normalize merge ds)
    (hterminated : ∀ c ∈ cs, c.isContinued = false)
    (hlines : ∀ lines continuation, .code lines continuation ∈ cs → ∀ l ∈ lines, '\n' ∉ l)
    {code z : Text} (hcode : code ++ z ∈ cs.filterMap Chunk.code?)
    (htrimmed : (code ++ z).trimEnd = code) : '\n' ∉ z := by
  obtain ⟨c, hc, hlinesOf⟩ := List.mem_filterMap.1 hcode
  cases c with
  | prose lines => cases hlinesOf
  | code lines continuation =>
    have hwell : (Chunk.code lines continuation).IsWellEnded :=
      Chunk.isWellEnded_of_mem_normalize _ (hnormal ▸ hc)
    obtain ⟨blanks, hwhole, hblanks⟩ := Text.exists_eq_trimEnd_append (code ++ z)
    rw [htrimmed] at hwhole
    obtain rfl := List.append_cancel_left hwhole
    exact Chunk.lineFeed_not_mem_blanks (hwell.2 (Chunk.eq_terminated (hterminated _ hc)))
      (hlines _ _ hc) (Option.some.inj hlinesOf).symm hblanks

/-- **What a page and a notebook make of the same blocks**: the page runs each block without the
blanks at its end, the notebook runs it as it is, and the two runs are alike.

Neither run looks at the other's texts: what is left to compare is one block after another, and
there only the blanks at the end of the block.

**Proof sketch.** The page is made of the run of its sections, whose codes are those of the chunks
as none goes on. The notebook is filled from the run of its cells, whose codes are the same. The two
runs are compared block by block (`Lit.runsAlike_trimEnd`). -/
theorem page_and_notebook_run_alike (hnormal : cs = Chunk.normalize merge ds)
    (hterminated : ∀ c ∈ cs, c.isContinued = false) (hheadless : ∀ c ∈ cs, Notebook.IsHeadless c)
    (hsaved : ∀ fault,
      (Page.ofRunChunks write Lit.sandbox {} s cs world).1 ≠ .error (.file fault)) :
    let codes := cs.filterMap Chunk.code?
    let onPage := executeAll Lit.sandbox (codes.map Text.trimEnd) {}
    let inCells := executeAll Lit.sandbox codes {}
    (Page.ofRunChunks write Lit.sandbox {} s cs world).1 = Page.ofRan Lit.sandbox s cs onPage ∧
    (∃ nb, Notebook.ofChunks (ε := Lit.Fault) s cs = .ok nb ∧
      nb.run Lit.sandbox {} = (inCells.fault?,
        { nb with cells := Notebook.fill Lit.sandbox 0 inCells.done nb.cells })) ∧
    Lit.RunsAlike onPage inCells ∧
    ((∀ lines continuation, .code lines continuation ∈ cs → ∀ l ∈ lines, '\n' ∉ l) →
      ∀ code z, code ++ z ∈ codes → (code ++ z).trimEnd = code → '\n' ∉ z) := by
  intro codes onPage inCells
  refine ⟨?page, ?notebook, Lit.runsAlike_trimEnd codes {}, ?lineFeeds⟩
  case page =>
    rw [Page.ofRunChunks_eq hsaved, Page.filterMap_code?_sections_of_terminated hterminated]
  case notebook =>
    obtain ⟨nb, hnb, hcodes⟩ := Notebook.ofChunks_eq_ok s hheadless
    refine ⟨nb, hnb, ?_⟩
    rw [Notebook.run_eq, hcodes]
  case lineFeeds =>
    intro hlines code z hcode htrimmed
    exact lineFeed_not_mem_of_trimEnd_eq hnormal hterminated hlines hcode htrimmed

/-- The theorem at two blocks, the second of which faults: the blank at the end of the first one
makes no difference. -/
theorem page_and_notebook_run_alike_undefined :
    let cs : List Chunk :=
      [.code ["true ".toList] .terminated, .code ["y".toList] .terminated]
    let onPage := executeAll Lit.sandbox ["true".toList, "y".toList] {}
    let inCells := executeAll Lit.sandbox ["true ".toList, "y".toList] {}
    cs = Chunk.normalize false cs ∧ (∀ c ∈ cs, c.isContinued = false) ∧
      (∀ c ∈ cs, Notebook.IsHeadless c) ∧
      (Page.ofRunChunks takeAll Lit.sandbox {} {} cs ()).1 =
        .error (.execution ⟨"y".toList, .runtime (.undefinedVariable "y".toList) ⟨0, 1⟩⟩) ∧
      Lit.RunsAlike onPage inCells := by
  intro cs onPage inCells
  have hnormal : cs = Chunk.normalize false cs := by decide
  have hterminated : ∀ c ∈ cs, c.isContinued = false := by decide
  have hheadless : ∀ c ∈ cs, Notebook.IsHeadless c := by decide
  have hpage : (Page.ofRunChunks takeAll Lit.sandbox {} {} cs ()).1 =
      .error (.execution ⟨"y".toList, .runtime (.undefinedVariable "y".toList) ⟨0, 1⟩⟩) := by cbv
  obtain ⟨-, -, halike, -⟩ := page_and_notebook_run_alike hnormal hterminated hheadless
    fun fault hfault => by
      rw [hpage] at hfault
      cases hfault
  exact ⟨hnormal, hterminated, hheadless, hpage, halike⟩

/-- **A page and a notebook may differ.** A form feed at the end of a block is left out on the page;
in the notebook it is a character that the language does not know. And code that breaks off in an
expression breaks off after the blanks at its end in the notebook, and before them on the page. -/
theorem page_and_notebook_differ :
    let runOnPage (cs : List Chunk) := (Page.ofRunChunks takeAll Lit.sandbox {} {} cs ()).1
    let runInCells (cs : List Chunk) :=
      (Notebook.ofChunks (ε := Lit.Fault) {} cs).map fun nb => (nb.run Lit.sandbox {}).1
    let padded : List Chunk := [.code ["true\x0c".toList] .terminated]
    let broken : List Chunk := [.code ["true + ".toList] .terminated]
    (padded = Chunk.normalize false padded ∧ (∀ c ∈ padded, Notebook.IsHeadless c) ∧
      runOnPage padded = .ok "```lit\ntrue\x0c\n```\n\n```\ntrue\n```\n".toList ∧
      runInCells padded = .ok (some
        ⟨"true\x0c".toList, .syntactic ⟨.unexpectedCharacter '\x0c', 4, 5⟩⟩)) ∧
    (broken = Chunk.normalize false broken ∧ (∀ c ∈ broken, Notebook.IsHeadless c) ∧
      runOnPage broken =
        .error (.execution ⟨"true +".toList, .syntactic ⟨.endOfExpression, 6, 6⟩⟩) ∧
      runInCells broken = .ok (some
        ⟨"true + ".toList, .syntactic ⟨.endOfExpression, 7, 7⟩⟩)) := by
  refine ⟨⟨by decide, by decide, ?_, ?_⟩, ⟨by decide, by decide, ?_, ?_⟩⟩
  all_goals cbv

end Weave
