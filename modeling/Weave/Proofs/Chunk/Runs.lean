import Mathlib.Data.List.SplitBy
import Weave.Proofs.Chunk.Tail

set_option autoImplicit false
set_option relaxedAutoImplicit false

/-!
# Where chunks begin

A new chunk begins where the kind of the lines changes and at every mark, and nowhere else. Cutting
opens a chunk at once when it meets a mark, of a kind that the next line may not have; such a chunk
stays without lines. So the chunks that have lines are the longest runs of lines of one kind between
the marks, in their order. Which of them go on with the next one depends on the marks that join and
on nothing but these.

## Main definitions

* `Weave.SourceLine.runs` — the longest runs of lines of one kind between marks.
* `Weave.Chunk.runs` — the lines of chunks, chunk by chunk.
* `Weave.Chunk.terminated` — a chunk, apart from whether its block goes on.

## Main results

* `Weave.SourceLine.runs_append` — a run ends where the kind changes.
* `Weave.Chunk.runs_foldl_addLine` — lines that are added make the runs longer, or begin new ones.
* `Weave.Chunk.runs_cut` — the chunks of a text are its runs.
-/

namespace Weave

/-! ## Runs of lines -/

namespace SourceLine

/-- Whether the line is a mark between chunks. -/
def isMark : SourceLine → Bool
  | cut => true
  | join => true
  | prose _ => false
  | code _ => false

/-- Whether two lines are both prose or both code. -/
def isSameKind : SourceLine → SourceLine → Bool
  | prose _, prose _ => true
  | code _, code _ => true
  | _, _ => false

/-- **The runs of lines**: the lines are cut at the marks, which are dropped, and every piece is cut
where the kind of its lines changes. -/
def runs (ls : List SourceLine) : List (List SourceLine) :=
  (ls.splitOnP isMark).flatMap (List.splitBy isSameKind)

variable {ls more : List SourceLine}

/-- A mark belongs to no run. -/
lemma runs_cons_of_isMark {l : SourceLine} (h : l.isMark = true) (ls : List SourceLine) :
    runs (l :: ls) = runs ls := by
  rw [runs, List.splitOnP_cons_eq_if_modifyHead, if_pos h, List.flatMap_cons, List.splitBy_nil,
    List.nil_append, runs]

/-- The lines up to the first mark are the first piece. -/
lemma exists_splitOnP_eq_cons (ls : List SourceLine) :
    ∃ piece pieces, ls.splitOnP isMark = piece :: pieces ∧ piece <+: ls := by
  induction ls with
  | nil => exact ⟨[], [], List.splitOnP_nil, List.nil_prefix⟩
  | cons l ls ih =>
    obtain ⟨piece, pieces, hpieces, hpiece⟩ := ih
    rw [List.splitOnP_cons_eq_if_modifyHead, hpieces]
    cases hl : l.isMark with
    | true => exact ⟨[], piece :: pieces, rfl, List.nil_prefix⟩
    | false => exact ⟨l :: piece, pieces, rfl, (List.prefix_cons_inj l).2 hpiece⟩

/-- Lines that are no marks stand in the same piece as what follows them. -/
lemma splitOnP_append (h : ∀ l ∈ ls, l.isMark = false) {piece : List SourceLine}
    {pieces : List (List SourceLine)} (hmore : more.splitOnP isMark = piece :: pieces) :
    (ls ++ more).splitOnP isMark = (ls ++ piece) :: pieces := by
  induction ls with
  | nil => exact hmore
  | cons l ls ih =>
    rw [List.forall_mem_cons] at h
    rw [List.cons_append, List.splitOnP_cons_eq_if_modifyHead, if_neg (by simp [h.1]), ih h.2]
    rfl

/-- **A run ends** where the kind of the lines changes, or at a mark. -/
lemma runs_append (h : ∀ l ∈ ls, l.isMark = false)
    (hends : ∀ a ∈ ls, ∀ b ∈ more.head?, isSameKind a b = false) :
    runs (ls ++ more) = ls.splitBy isSameKind ++ runs more := by
  obtain ⟨piece, pieces, hmore, rest, hrest⟩ := exists_splitOnP_eq_cons more
  have hsplit : (ls ++ piece).splitBy isSameKind =
      ls.splitBy isSameKind ++ piece.splitBy isSameKind := by
    refine List.splitBy_append fun a ha b hb => hends a (List.mem_of_mem_getLast? ha) b ?_
    rw [← hrest, List.head?_append, hb]
    rfl
  rw [runs, splitOnP_append h hmore, List.flatMap_cons, hsplit, List.append_assoc, runs, hmore,
    List.flatMap_cons]

end SourceLine

namespace Chunk

/-! ## Chunks as runs -/

/-- The lines of a chunk, each with its kind. -/
def toLines : Chunk → List SourceLine
  | prose lines => lines.map .prose
  | code lines _ => lines.map .code

/-- **The lines of chunks**, chunk by chunk, for the chunks that have lines. -/
def runs (cs : List Chunk) : List (List SourceLine) :=
  (cs.map toLines).filter fun ls => !ls.isEmpty

/-- A chunk, apart from whether its block goes on. -/
def terminated : Chunk → Chunk
  | prose lines => prose lines
  | code lines _ => code lines .terminated

/-- The runs of chunks are followed by the runs of the chunks after them. -/
lemma runs_append (cs ds : List Chunk) : runs (cs ++ ds) = runs cs ++ runs ds := by
  rw [runs, List.map_append, List.filter_append, runs, runs]

/-- The lines of a chunk are no marks. -/
lemma isMark_of_mem_toLines {c : Chunk} : ∀ l ∈ c.toLines, l.isMark = false := by
  cases c <;> exact List.forall_mem_map.2 fun _ _ => rfl

/-- The lines of a chunk are of one kind. -/
lemma splitBy_toLines (c : Chunk) : c.toLines.splitBy SourceLine.isSameKind = runs [c] := by
  have hkind : c.toLines.IsChain fun a b => SourceLine.isSameKind a b = true := by
    refine List.Pairwise.isChain ?_
    cases c <;> exact List.pairwise_map.2 (List.pairwise_of_forall fun _ _ => rfl)
  by_cases hne : c.toLines = []
  · rw [runs, List.map_singleton, hne]
    rfl
  · rw [List.splitBy_of_isChain hne hkind, runs, List.map_singleton, List.filter_singleton,
      List.isEmpty_eq_false_iff.2 hne]
    rfl

/-- **A chunk ends** where the kind of the lines changes, or at a mark. -/
lemma runs_toLines_append {c : Chunk} {ls : List SourceLine}
    (h : ∀ a ∈ c.toLines, ∀ b ∈ ls.head?, SourceLine.isSameKind a b = false) :
    SourceLine.runs (c.toLines ++ ls) = runs [c] ++ SourceLine.runs ls := by
  rw [SourceLine.runs_append isMark_of_mem_toLines h, splitBy_toLines]

/-! ## Marks that join -/

/-- A chunk has the same lines whether its block goes on or not. -/
lemma toLines_terminated (c : Chunk) : c.terminated.toLines = c.toLines := by
  cases c <;> rfl

/-- A chunk apart from whether its block goes on is one that does not. -/
lemma isContinued_terminated (c : Chunk) : c.terminated.isContinued = false := by
  cases c <;> rfl

/-- Chunks have the same runs whether their blocks go on or not. -/
lemma runs_map_terminated (cs : List Chunk) : runs (cs.map terminated) = runs cs := by
  rw [runs, List.map_map, runs]
  exact congrArg _ (List.map_congr_left fun c _ => toLines_terminated c)

/-- Marking the first code as going on changes nothing else. -/
lemma map_terminated_continueFirstCode (cs : List Chunk) :
    (continueFirstCode cs).map terminated = cs.map terminated := by
  induction cs with
  | nil => rfl
  | cons c cs ih =>
    cases c with
    | prose lines => exact congrArg (prose lines :: ·) ih
    | code lines continuation => rfl

/-- Lines are added to the same chunks whether or not continuation is allowed. -/
lemma map_terminated_addLine (allow : Bool) (newest : List Chunk) (l : SourceLine) :
    (addLine allow newest l).map terminated = addLine false (newest.map terminated) l := by
  cases l with
  | cut => rcases newest with _ | ⟨_ | _, _⟩ <;> rfl
  | join =>
    cases allow with
    | false => rfl
    | true => exact congrArg (noCode :: ·) (map_terminated_continueFirstCode newest)
  | prose line => rcases newest with _ | ⟨_ | _, _⟩ <;> rfl
  | code line => rcases newest with _ | ⟨_ | _, _⟩ <;> rfl

/-- The same for lines that are added one after another. -/
lemma map_terminated_foldl_addLine (allow : Bool) (ls : List SourceLine) (newest : List Chunk) :
    (ls.foldl (addLine allow) newest).map terminated =
      ls.foldl (addLine false) (newest.map terminated) := by
  induction ls generalizing newest with
  | nil => rfl
  | cons l ls ih => rw [List.foldl_cons, ih, map_terminated_addLine, List.foldl_cons]

/-- **Continuation alone** depends on whether it is allowed. -/
lemma map_terminated_cut (allow : Bool) (t : Text) :
    (cut allow t).map terminated = cut false t := by
  have hfirst (l? : Option SourceLine) : [firstFor l?].map terminated = [firstFor l?] := by
    unfold firstFor
    split <;> rfl
  rw [cut_eq, cut_eq, List.map_reverse, newestFirst, newestFirst, map_terminated_foldl_addLine,
    hfirst]

/-! ## Cutting -/

/-- **A line that is added** belongs to the run of the newest chunk or begins the next one.

**Proof sketch.** A mark opens a chunk without lines, and the runs go on with the next line. A line
of the kind of the newest chunk is put at its end. Any other line begins a chunk and a run. -/
lemma runs_addLine (c : Chunk) (cs : List Chunk) (l : SourceLine) (ls : List SourceLine) :
    ∃ d ds, addLine false (c :: cs) l = d :: ds ∧
      runs ds.reverse ++ SourceLine.runs (d.toLines ++ ls) =
        runs cs.reverse ++ SourceLine.runs (c.toLines ++ l :: ls) := by
  -- The line is the end of the run of `c`, and `d` is the chunk that is opened for it.
  have hnew {d : Chunk} (hd : SourceLine.runs (d.toLines ++ ls) = SourceLine.runs (l :: ls))
      (hkind : ∀ a ∈ c.toLines, SourceLine.isSameKind a l = false) :
      runs (c :: cs).reverse ++ SourceLine.runs (d.toLines ++ ls) =
        runs cs.reverse ++ SourceLine.runs (c.toLines ++ l :: ls) := by
    have hsplit : SourceLine.runs (c.toLines ++ l :: ls) = runs [c] ++ SourceLine.runs (l :: ls) :=
      runs_toLines_append (by simpa using hkind)
    rw [hsplit, List.reverse_cons, runs_append, List.append_assoc, hd]
  cases l with
  | cut =>
    refine ⟨c.emptyLike, c :: cs, rfl, hnew ?_ ?_⟩
    · rw [SourceLine.runs_cons_of_isMark rfl]
      cases c <;> rfl
    · cases c <;> exact List.forall_mem_map.2 fun _ _ => rfl
  | join =>
    refine ⟨noCode, c :: cs, rfl, hnew ?_ ?_⟩
    · rw [SourceLine.runs_cons_of_isMark rfl]
      rfl
    · cases c <;> exact List.forall_mem_map.2 fun _ _ => rfl
  | prose line =>
    cases c with
    | prose lines => exact ⟨prose (lines ++ [line]), cs, rfl, by simp [toLines]⟩
    | code lines continuation =>
      exact ⟨prose [line], code lines continuation :: cs, rfl,
        hnew rfl (List.forall_mem_map.2 fun _ _ => rfl)⟩
  | code line =>
    cases c with
    | prose lines =>
      exact ⟨code [line] .terminated, prose lines :: cs, rfl,
        hnew rfl (List.forall_mem_map.2 fun _ _ => rfl)⟩
    | code lines continuation =>
      exact ⟨code (lines ++ [line]) continuation, cs, rfl, by simp [toLines]⟩

/-- **Lines that are added** one after another go on with the run of the newest chunk. -/
lemma runs_foldl_addLine (ls : List SourceLine) (c : Chunk) (cs : List Chunk) :
    runs (ls.foldl (addLine false) (c :: cs)).reverse =
      runs cs.reverse ++ SourceLine.runs (c.toLines ++ ls) := by
  induction ls generalizing c cs with
  | nil =>
    have hlast : SourceLine.runs (c.toLines ++ []) = runs [c] ++ SourceLine.runs [] :=
      runs_toLines_append (by simp)
    have hnone : SourceLine.runs [] = [] := rfl
    rw [List.foldl_nil, List.reverse_cons, runs_append, hlast, hnone, List.append_nil]
  | cons l ls ih =>
    obtain ⟨d, ds, hadd, hruns⟩ := runs_addLine c cs l ls
    rw [List.foldl_cons, hadd, ih, hruns]

/-- **The chunks of a text are its runs.** Whether or not continuation is allowed, the chunks that
have lines are the longest runs of lines of one kind between marks, in order. If it is not allowed,
no block of code goes on; if it is, the chunks are the same but for that.

**Proof sketch.** Marks that join make no difference to runs, so continuation need not be allowed
(`map_terminated_cut`). Then each line goes on with the run of the newest chunk or begins one
(`runs_foldl_addLine`), from a first chunk without lines. -/
theorem runs_cut (t : Text) :
    (∀ allow, runs (cut allow t) = SourceLine.runs ((Text.lines t).map SourceLine.ofText)) ∧
      (∀ c ∈ cut false t, c.isContinued = false) ∧
      (cut true t).map terminated = cut false t := by
  refine ⟨fun allow => ?_, fun c hc => ?_, map_terminated_cut true t⟩
  · have hfirst (l? : Option SourceLine) : (firstFor l?).toLines = [] := by
      unfold firstFor
      split <;> rfl
    rw [← runs_map_terminated, map_terminated_cut, cut_eq, newestFirst, runs_foldl_addLine, hfirst]
    rfl
  · rw [← map_terminated_cut false t] at hc
    obtain ⟨d, -, rfl⟩ := List.mem_map.1 hc
    exact isContinued_terminated d

/-- Marks before, between and after the lines. -/
theorem runs_cut_marksAround :
    let t := "#-\n# a\n#+\n#-\nx = 1\ny = 2\n# b\n#+\n".toList
    let statements := ["x = 1".toList, "y = 2".toList]
    runs (cut true t) = [[.prose ⟨[], "a".toList⟩], [.code "x = 1".toList, .code "y = 2".toList],
        [.prose ⟨[], "b".toList⟩]] ∧
      code statements .continued ∈ cut true t ∧
      code statements .terminated ∈ cut false t ∧
      (code statements .terminated).isContinued = false := by
  intro t statements
  have hcode : code statements .terminated ∈ cut false t := by decide
  obtain ⟨hruns, hterminated, -⟩ := runs_cut t
  exact ⟨(hruns true).trans (by decide), by decide, hcode, hterminated _ hcode⟩

end Chunk

end Weave
