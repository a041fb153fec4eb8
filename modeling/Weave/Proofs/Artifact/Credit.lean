import Weave.Artifact
import Weave.Proofs.Chunk.Tail
import Weave.Proofs.Filter.Tail

set_option autoImplicit false
set_option relaxedAutoImplicit false

/-!
# The credit at the end

The credit is put after the source as text, before anything is made of it, and a mark is put before
it so that it becomes a chunk of its own. It finishes nothing that the source leaves unfinished, so
it changes nothing of what comes before. But in a notebook the chunks that a block of code extends
over are merged, and a block that goes on at the end of the source takes the credit over. And where
the source ends in a carriage return the line feed before the mark makes a line end with it.

## Main definitions

* `Weave.creditLines` — the lines of prose of the credit.

## Main results

* `Weave.prepare_credit` — the chunks of a source with the credit.
* `Weave.prepare_credit_eq_append_iff` — for which sources the credit is a chunk of its own and
  changes nothing else.
* `Weave.prepare_credit_ne_append` — that it is not so for all sources.
-/

namespace Weave

/-- The lines of prose of the credit. -/
def creditLines : Target → List ProseLine
  | .script => [{ indent := [], text := "This file was generated using literate.".toList }]
  | .markdown =>
    [{ indent := [], text := "---".toList }, { indent := [], text := [] },
      { indent := [], text := "*This page was generated using literate.*".toList }]
  | .notebook => [{ indent := [], text := "*This notebook was generated using literate.*".toList }]

/-- The credit with the mark before it. -/
def markedCredit (target : Target) : Text :=
  "#-\n".toList ++ credit target ++ ['\n']

variable (target : Target) (s : Settings)

/-- The credit finishes nothing that a source leaves unfinished. -/
lemma isTail_markedCredit : IsTail target (markedCredit target) where
  lineEnds := by cases target <;> decide
  blocks := by cases target <;> decide
  lines := by cases target <;> decide +kernel
  formulas := by cases target <;> decide
  placeholders := by cases target <;> decide
  links := by cases target <;> decide

/-- The credit is read as a mark and lines of prose. -/
lemma lines_markedCredit :
    (Text.lines (markedCredit target)).map SourceLine.ofText =
      .cut :: (creditLines target).map .prose := by
  cases target <;> decide +kernel

/-- **The chunks of a source with the credit**: the prose of the credit is put after the chunks of
the source, whose last row is ended.

**Proof sketch.** The credit is a piece of its own to the filter (`filter_append`) and to chunking
(`Chunk.cut_append`), as the text before it ends its last row. Normalizing then puts its prose after
the chunks (`Chunk.normalize_append`). -/
theorem prepare_credit (source : Text) :
    prepare target { s with credit := true } {} source =
      Chunk.withProse (!target.allowsContinuation) (creditLines target)
        (prepare target { s with credit := false } {} (source ++ ['\n'])) := by
  have hwhole := Text.isWhole_append_lineFeed source
  have hcredit : addCredit target { s with credit := true } source =
      source ++ ['\n'] ++ markedCredit target := by
    simp [addCredit, markedCredit]
  have hne : creditLines target ≠ [] := by cases target <;> decide
  have hblank : (Chunk.prose (creditLines target)).isBlank = false := by cases target <;> decide
  have htrim : (Chunk.prose (creditLines target)).trimBlank = .prose (creditLines target) := by
    cases target <;> decide
  have hfilter : filter target { s with credit := true } (source ++ ['\n'] ++ markedCredit target) =
      filter target s (source ++ ['\n']) ++ markedCredit target :=
    filter_append hwhole (isTail_markedCredit target)
  obtain ⟨blanks, hblanks, hcut⟩ := Chunk.cut_append target.allowsContinuation
    (isWhole_filter hwhole) hne (lines_markedCredit target)
  unfold prepare
  dsimp only [id]
  rw [hcredit, hfilter, hcut, Chunk.normalize_append hblanks hblank htrim]
  rfl

/-- **A line feed after a source** makes no difference to its chunks, if it does not make a line end
with a carriage return before it. -/
lemma prepare_lineFeed {source : Text} (h : source.getLast? ≠ some '\r')
    (hfilter : (filter target s source).getLast? ≠ some '\r') :
    prepare target { s with credit := false } {} (source ++ ['\n']) =
      prepare target { s with credit := false } {} source := by
  change Chunk.normalize _ (Chunk.cut _ (filter target s (source ++ ['\n']))) =
    Chunk.normalize _ (Chunk.cut _ (filter target s source))
  have hlineFeed : filter target s (source ++ ['\n']) = filter target s source ++ ['\n'] ∨
      filter target s (source ++ ['\n']) = filter target s source := filter_lineFeed h
  rcases hlineFeed with hkept | hkept
  · rw [hkept, Chunk.normalize_cut_lineFeed hfilter]
  · rw [hkept]

/-- **The credit is a chunk of its own** and changes nothing else exactly if a line feed after the
source changes nothing and, in a notebook, the source does not end in a block of code that goes on.
The line feed changes nothing if neither the source nor what the filter leaves of it ends in a
carriage return.

**Proof sketch.** With credit the chunks are those of the source with a line feed, and the prose put
after them (`prepare_credit`). Prose is appended as a chunk of its own unless merging lets an open
block take it over (`Chunk.withProse_eq_append_iff`), which is so in a notebook alone. -/
theorem prepare_credit_eq_append_iff (source : Text) :
    let plain := prepare target { s with credit := false } {}
    (prepare target { s with credit := true } {} source =
        plain source ++ [.prose (creditLines target)] ↔
      plain (source ++ ['\n']) = plain source ∧
        (target = .notebook → ¬ Chunk.GoesOn (plain source))) ∧
    (source.getLast? ≠ some '\r' → (filter target s source).getLast? ≠ some '\r' →
      plain (source ++ ['\n']) = plain source) := by
  have hmerge : (!target.allowsContinuation) = true ↔ target = .notebook := by
    cases target <;> decide
  dsimp only
  refine ⟨?_, prepare_lineFeed target s⟩
  rw [prepare_credit]
  generalize prepare target { s with credit := false } {} source = cs
  generalize prepare target { s with credit := false } {} (source ++ ['\n']) = ds
  rw [Chunk.withProse_eq_append_iff, hmerge]
  constructor
  · rintro ⟨rfl, h⟩
    exact ⟨rfl, h⟩
  · rintro ⟨rfl, h⟩
    exact ⟨rfl, h⟩

/-- A block of code that the source breaks off inside a parenthesis takes the credit over. -/
theorem prepare_credit_ne_append :
    prepare .notebook { credit := true } {} "x = (1 +\n  2)\n".toList ≠
      prepare .notebook { credit := false } {} "x = (1 +\n  2)\n".toList ++
        [.prose (creditLines .notebook)] := by
  decide +kernel

/-- A carriage return at the end of a source is lost when the credit is put after it. -/
example :
    prepare .script { credit := true } {} "x\r".toList =
      [.code ["x".toList] .terminated, .prose (creditLines .script)] ∧
    prepare .script { credit := false } {} "x\r".toList = [.code ["x\r".toList] .terminated] := by
  decide +kernel

end Weave
