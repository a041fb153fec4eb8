import Weave.Proofs.Chunk.Edges
import Weave.Proofs.Text.Rows

set_option autoImplicit false
set_option relaxedAutoImplicit false

/-!
# Lines that hold nothing but blanks

A line of blanks alone is a line of code that is not empty, and it begins with a blank. So it keeps
a chunk from being dropped, and at the end of a chunk or at its beginning it is taken for an
indented line. Emptying such lines in a source makes no difference to its chunks exactly if none of
them is all that a chunk of code has, and no block of code goes on only because of them.

## Main definitions

* `Weave.Text.isBare`, `Weave.Text.clearBareLines` — lines of blanks alone, and a text in which they
  are empty.
* `Weave.Chunk.visible` — a chunk without such lines of code.
* `Weave.Chunk.BareLinesIdle` — such lines make no difference to which chunks of code go on.

## Main results

* `Weave.Text.lines_clearBareLines` — the lines of a text in which bare lines are empty.
* `Weave.Chunk.map_visible_normalize` — idle bare lines make no difference to normal form.
* `Weave.Chunk.map_visible_normalize_clearBareLines` — the chunks of a text in which bare lines are
  empty.
* `Weave.Chunk.map_visible_normalize_eq_iff` — when bare lines make no difference.
* `Weave.Chunk.map_visible_normalize_ne` — that they can make one.
-/

namespace Weave

/-! ## Texts -/

namespace Text

/-- **A bare line** holds nothing but blanks. -/
def isBare (line : Text) : Bool :=
  line.all isBlank

/-- A line that is empty if it was bare. -/
def cleared (line : Text) : Text :=
  if line.isBare then [] else line

/-- A cleared line is bare only if it is empty. -/
lemma isEmpty_cleared (line : Text) (h : line.cleared.isBare = true) :
    line.cleared.isEmpty = true := by
  by_cases hbare : line.isBare = true
  · rw [cleared, if_pos hbare]
    rfl
  · rw [cleared, if_neg hbare] at h
    exact absurd h hbare

/-- A piece of a text with its line cleared. Its line end stays. -/
def clearPiece (piece : Text) : Text :=
  if (dropLineEnd piece).isBare then piece.drop (dropLineEnd piece).length else piece

/-- **A text in which every bare line is empty.** -/
def clearBareLines (t : Text) : Text :=
  (pieces t).flatMap clearPiece

/-- A row with its line feed is a row with its line feed when its line is cleared. -/
lemma exists_clearPiece_eq {a : Text} (ha : '\n' ∉ a) :
    ∃ b, '\n' ∉ b ∧ clearPiece (a ++ ['\n']) = b ++ ['\n'] ∧
      dropLineEnd (b ++ ['\n']) = (dropLineEnd (a ++ ['\n'])).cleared := by
  cases hbare : (dropLineEnd (a ++ ['\n'])).isBare with
  | false => exact ⟨a, ha, by rw [clearPiece, hbare]; rfl, by rw [cleared, hbare]; rfl⟩
  | true =>
    have hpiece : clearPiece (a ++ ['\n']) =
        (a ++ ['\n']).drop (dropLineEnd (a ++ ['\n'])).length := if_pos hbare
    have hcleared : (dropLineEnd (a ++ ['\n'])).cleared = [] := if_pos hbare
    rw [hpiece, hcleared]
    rcases dropLineEnd_append a with h | h
    · exact ⟨[], List.not_mem_nil, by rw [h, List.drop_left]; rfl, by decide⟩
    · refine ⟨['\r'], by decide, ?_, by decide⟩
      generalize dropLineEnd (a ++ ['\n']) = line at h
      rw [h, List.append_assoc, List.drop_left]

/-- **The lines of a text in which bare lines are empty**, if one does not count an empty line at
the end: without a line feed after it, it is none. -/
theorem lines_clearBareLines (t : Text) :
    (lines t).map cleared = lines (clearBareLines t) ∨
      (lines t).map cleared = lines (clearBareLines t) ++ [[]] := by
  induction t using row_induction with
  | last a ha =>
    by_cases hne : a = []
    · exact .inl (by rw [hne]; rfl)
    · rw [clearBareLines, pieces_eq_singleton ha hne, lines_eq_singleton ha hne,
        List.flatMap_singleton, List.map_singleton, clearPiece, dropLineEnd_of_not_mem ha, cleared]
      split
      next => exact .inr (by rw [List.drop_length]; rfl)
      next => exact .inl (lines_eq_singleton ha hne).symm
  | row a b ha ih =>
    obtain ⟨a', ha', hpiece, hline⟩ := exists_clearPiece_eq ha
    have hclear : clearBareLines (a ++ '\n' :: b) = a' ++ '\n' :: clearBareLines b := by
      rw [clearBareLines, pieces_cons ha, List.flatMap_cons, hpiece, List.append_assoc,
        List.singleton_append, clearBareLines]
    rw [hclear, lines_cons ha, lines_cons ha', List.map_cons, hline, List.cons_append]
    exact ih.imp (congrArg _) (congrArg _)

end Text

/-! ## Lines of a source -/

/-- A line of a source, emptied if it was a bare line of code. -/
def SourceLine.cleared : SourceLine → SourceLine
  | code line => code line.cleared
  | l => l

/-- A line that holds a visible character is not bare. -/
lemma Text.isBare_of_mem {line : Text} {c : Char} (h : c ∈ line) (hc : isBlank c = false) :
    line.isBare = false := by
  rw [isBare, List.all_eq_false]
  exact ⟨c, h, by rw [hc]; exact Bool.false_ne_true⟩

/-- **A bare line is code**, and so is an empty one.

**Proof sketch.** A bare line has nothing but blanks, so it is read as code. Any other line is kept
as it is, and if it is read as code there is a character in it that is no blank. -/
lemma SourceLine.ofText_cleared (line : Text) :
    ofText line.cleared = (ofText line).cleared := by
  have hcode {l : Text} (h : l.isBare = false) : (code l).cleared = code l := by
    rw [cleared, Text.cleared, h]
    rfl
  cases hbare : line.isBare with
  | true =>
    have hdrop : line.dropWhile isBlank = [] :=
      List.dropWhile_eq_nil_iff.2 (List.all_eq_true.1 hbare)
    have hline : ofText line = code line := by
      unfold ofText
      simp only [hdrop]
    rw [hline, cleared, Text.cleared, hbare]
    rfl
  | false =>
    have hline : line.cleared = line := by
      rw [Text.cleared, hbare]
      rfl
    rw [hline]
    unfold ofText
    dsimp only
    split
    case h_5 | h_6 =>
      exact (hcode (Text.isBare_of_mem (c := '#') (by simp) (by decide))).symm
    case h_7 => exact (hcode hbare).symm
    all_goals rfl

namespace Chunk

variable {allow merge : Bool} {cs ds : List Chunk}

/-! ## Cutting -/

/-- A chunk in which every bare line of code is empty. -/
def cleared : Chunk → Chunk
  | prose lines => prose lines
  | code lines continuation => code (lines.map Text.cleared) continuation

/-- The first code can be marked as going on before bare lines are cleared, or after it. -/
lemma continueFirstCode_map_cleared (cs : List Chunk) :
    continueFirstCode (cs.map cleared) = (continueFirstCode cs).map cleared := by
  induction cs with
  | nil => rfl
  | cons c cs ih =>
    cases c with
    | prose lines => exact congrArg (prose lines :: ·) ih
    | code lines continuation => rfl

/-- Lines are added to chunks whether or not bare ones are empty. -/
lemma addLine_cleared (newest : List Chunk) (l : SourceLine) :
    addLine allow (newest.map cleared) l.cleared = (addLine allow newest l).map cleared := by
  cases l with
  | cut => rcases newest with _ | ⟨_ | _, _⟩ <;> rfl
  | join =>
    cases allow with
    | false => rfl
    | true => exact congrArg (noCode :: ·) (continueFirstCode_map_cleared newest)
  | prose line => rcases newest with _ | ⟨_ | _, _⟩ <;> rfl
  | code line =>
    rcases newest with _ | ⟨_ | ⟨lines, continuation⟩, cs⟩
    · rfl
    · rfl
    · simp [addLine, SourceLine.cleared, cleared]

/-- The chunks of lines of which bare ones are empty. -/
lemma newestFirst_cleared (ls : List SourceLine) :
    newestFirst allow (ls.map SourceLine.cleared) = (newestFirst allow ls).map cleared := by
  have hfirst : [firstFor (ls.map SourceLine.cleared).head?] = [firstFor ls.head?].map cleared := by
    rcases ls with _ | ⟨_ | _ | _ | _, ls⟩ <;> rfl
  rw [newestFirst, newestFirst, hfirst]
  clear hfirst
  generalize [firstFor ls.head?] = newest
  induction ls generalizing newest with
  | nil => rfl
  | cons l ls ih => rw [List.map_cons, List.foldl_cons, addLine_cleared, ih, List.foldl_cons]

/-- **The chunks of a text in which bare lines are empty**, as far as they are kept. -/
lemma trimmed_cut_clearBareLines (t : Text) :
    trimmed (cut allow (Text.clearBareLines t)) = trimmed ((cut allow t).map cleared) := by
  have hlines : ((Text.lines t).map SourceLine.ofText).map SourceLine.cleared =
      ((Text.lines t).map Text.cleared).map SourceLine.ofText := by
    rw [List.map_map, List.map_map]
    exact List.map_congr_left fun line _ => (SourceLine.ofText_cleared line).symm
  rw [cut_eq, cut_eq, List.map_reverse, ← newestFirst_cleared, hlines]
  rcases Text.lines_clearBareLines t with h | h
  · rw [h]
  · rw [h, List.map_append, newestFirst_append _ rfl]
    exact (trimmed_addLine_empty allow _).symm

/-! ## Visible lines -/

/-- The lines that are not bare. -/
def visibleLines (lines : List Text) : List Text :=
  lines.filter fun l => !l.isBare

/-- **A chunk without its bare lines of code.** -/
def visible : Chunk → Chunk
  | prose lines => prose lines
  | code lines continuation => code (visibleLines lines) continuation

/-- A line that is not bare is not empty. -/
lemma isEmpty_of_isBare {l : Text} (h : l.isBare = false) : l.isEmpty = false := by
  cases l with
  | nil => cases h
  | cons c l => rfl

/-- Trimming empty lines keeps the visible ones. -/
lemma visibleLines_trimList (lines : List Text) :
    visibleLines (trimList List.isEmpty lines) = visibleLines lines := by
  rw [visibleLines, visibleLines, ← List.filterMap_eq_filter]
  refine filterMap_trimList fun l _ hempty => ?_
  rw [List.isEmpty_iff.1 hempty]
  rfl

/-- There is no empty line to trim among visible ones. -/
lemma trimList_visibleLines (lines : List Text) :
    trimList List.isEmpty (visibleLines lines) = visibleLines lines := by
  have hdrop (ls : List Text) (h : ∀ l ∈ ls, l.isEmpty = false) :
      ls.dropWhile List.isEmpty = ls := by
    cases ls with
    | nil => rfl
    | cons l ls => rw [List.dropWhile_cons_of_neg]; simp [h l List.mem_cons_self]
  have hvisible : ∀ l ∈ visibleLines lines, l.isEmpty = false := fun l hl =>
    isEmpty_of_isBare (by simpa using (List.mem_filter.1 hl).2)
  rw [trimList, hdrop _ hvisible, hdrop _ fun l hl => hvisible l (List.mem_reverse.1 hl),
    List.reverse_reverse]

/-- The visible lines are the same when bare ones are emptied. -/
lemma visibleLines_map_cleared (lines : List Text) :
    visibleLines (lines.map Text.cleared) = visibleLines lines := by
  induction lines with
  | nil => rfl
  | cons l lines ih =>
    simp only [visibleLines] at ih ⊢
    rw [List.map_cons, List.filter_cons, ih, List.filter_cons, Text.cleared]
    cases hbare : l.isBare with
    | true => rfl
    | false => simp [hbare]

/-- A chunk of code is blank without its bare lines if all of its lines are bare. -/
lemma isBlank_visible_code (lines : List Text) (continuation : Continuation) :
    (visible (code lines continuation)).isBlank = lines.all Text.isBare := by
  rw [visible, isBlank, visibleLines, List.all_filter]
  refine congrArg lines.all (funext fun l => ?_)
  cases hbare : l.isBare with
  | true => rfl
  | false => simpa using isEmpty_of_isBare hbare

/-- Bare lines can be left out before blank ones are trimmed, or after it. -/
lemma visible_trimBlank (c : Chunk) : c.trimBlank.visible = c.visible.trimBlank := by
  cases c with
  | prose lines => rfl
  | code lines continuation =>
    rw [trimBlank, visible, visible, trimBlank, visibleLines_trimList, trimList_visibleLines]

/-- A blank chunk is blank without its bare lines. -/
lemma isBlank_visible_of_isBlank {c : Chunk} (h : c.isBlank = true) : c.visible.isBlank = true := by
  cases c with
  | prose lines => exact h
  | code lines continuation =>
    rw [isBlank_visible_code, List.all_eq_true]
    intro l hl
    rw [List.isEmpty_iff.1 (List.all_eq_true.1 h l hl)]
    rfl

/-- Trimming a list keeps whether all of it is of the class. -/
lemma all_trimList {α : Type} (p : α → Bool) (l : List α) : (trimList p l).all p = l.all p := by
  cases h : l.all p with
  | false => exact (visibleEnds_trimList h).all_eq_false
  | true =>
    rw [trimList, List.dropWhile_eq_nil_iff.2 (List.all_eq_true.1 h)]
    rfl

/-- **Chunks without bare lines**: those are dropped that have no other lines. -/
lemma trimmed_map_visible (cs : List Chunk) :
    trimmed (cs.map visible) = ((trimmed cs).map visible).filter fun c => !c.isBlank := by
  have htrim (c : Chunk) : c.trimBlank.isBlank = c.isBlank := by
    cases c <;> exact all_trimList _ _
  induction cs with
  | nil => rfl
  | cons c cs ih =>
    rw [List.map_cons, ← List.singleton_append, trimmed_append, trimmed_singleton, ih,
      ← List.singleton_append (x := c), trimmed_append, trimmed_singleton, List.map_append,
      List.filter_append]
    congr 1
    cases hc : c.isBlank with
    | true => rw [isBlank_visible_of_isBlank hc]; rfl
    | false =>
      simp only [Bool.false_eq_true, if_false, List.map_singleton, visible_trimBlank,
        List.filter_singleton, htrim]
      cases c.visible.isBlank <;> rfl

/-! ## Marks -/

/-- **Bare lines make no difference** to which chunks of code go on: a chunk of code has other lines
too, and if an indented line ends it or follows it, then it goes on without its bare lines as
well. -/
def BareLinesIdle : List Chunk → Prop
  | [] => True
  | prose _ :: cs => BareLinesIdle cs
  | code lines continuation :: cs =>
    (∃ l ∈ lines, l.isBare = false) ∧
      (endsIndented lines = true ∨ nextOpensIndented cs = true →
        continuation = .continued ∨ endsIndented (visibleLines lines) = true ∨
          nextOpensIndented (cs.map visible) = true) ∧
      BareLinesIdle cs

/-- A visible line at the end is the last visible line. -/
lemma getLast?_visibleLines {lines : List Text} {l : Text} (h : lines.getLast? = some l)
    (hl : l.isBare = false) : (visibleLines lines).getLast? = some l := by
  obtain ⟨before, rfl⟩ := List.getLast?_eq_some_iff.1 h
  simp [visibleLines, List.filter_append, hl]

/-- A visible line at the beginning is the first visible line. -/
lemma head?_visibleLines {lines : List Text} {l : Text} (h : lines.head? = some l)
    (hl : l.isBare = false) : (visibleLines lines).head? = some l := by
  obtain ⟨after, rfl⟩ := List.head?_eq_some_iff.1 h
  simp [visibleLines, hl]

/-- A bare line that is not empty is taken for an indented one. -/
lemma startsBlank_of_isBare {l : Text} (hl : l.isEmpty = false) (h : l.isBare = true) :
    l.startsBlank = true := by
  cases l with
  | nil => cases hl
  | cons c l => exact List.all_eq_true.1 h c List.mem_cons_self

/-- If the last visible line is indented, so is the last line. -/
lemma endsIndented_of_visibleLines {lines : List Text} (h : VisibleEnds List.isEmpty lines)
    (hvisible : endsIndented (visibleLines lines) = true) : endsIndented lines = true := by
  obtain ⟨-, l, hlast, hl⟩ := h
  cases hbare : Text.isBare l with
  | true => simpa [endsIndented, hlast] using startsBlank_of_isBare hl hbare
  | false => rwa [endsIndented, getLast?_visibleLines hlast hbare, ← hlast] at hvisible

/-- If the first visible line is indented, so is the first line. -/
lemma opensIndented_of_visibleLines {lines : List Text} (h : VisibleEnds List.isEmpty lines)
    (hvisible : opensIndented (visibleLines lines) = true) : opensIndented lines = true := by
  obtain ⟨⟨l, hfirst, hl⟩, -⟩ := h
  cases hbare : Text.isBare l with
  | true => simpa [opensIndented, hfirst] using startsBlank_of_isBare hl hbare
  | false => rwa [opensIndented, head?_visibleLines hfirst hbare, ← hfirst] at hvisible

/-- If the next visible line of code is indented, so is the next line of code. -/
lemma nextOpensIndented_of_map_visible (h : ∀ c ∈ cs, c.IsTidy)
    (hvisible : nextOpensIndented (cs.map visible) = true) : nextOpensIndented cs = true := by
  induction cs with
  | nil => exact hvisible
  | cons c cs ih =>
    rw [List.forall_mem_cons] at h
    cases c with
    | prose lines => exact ih h.2 hvisible
    | code lines continuation => exact opensIndented_of_visibleLines h.1 hvisible

/-- A mark that is made for fewer reasons is the same if the code went on or one of the fewer
holds. -/
lemma mark_eq_mark_iff {marked marked' : Bool} {continuation : Continuation}
    (h : marked' = true → marked = true) :
    (if marked then .continued else continuation) =
        (if marked' then .continued else continuation) ↔
      (marked = true → continuation = .continued ∨ marked' = true) := by
  cases marked with
  | false =>
    rw [Bool.eq_false_iff.2 fun hmarked => Bool.false_ne_true (h hmarked)]
    simp
  | true =>
    cases marked' with
    | true => simp
    | false => simp [eq_comm]

/-- A chunk of code is marked the same without bare lines if it goes on without them whenever it
goes on with them. -/
lemma map_visible_continueIndented_code_iff {lines : List Text} {continuation : Continuation}
    (hlines : VisibleEnds List.isEmpty lines) (hcs : ∀ c ∈ cs, c.IsTidy) :
    (continueIndented (code lines continuation :: cs)).map visible =
        continueIndented ((code lines continuation :: cs).map visible) ↔
      (endsIndented lines = true ∨ nextOpensIndented cs = true →
        continuation = .continued ∨ endsIndented (visibleLines lines) = true ∨
          nextOpensIndented (cs.map visible) = true) ∧
      (continueIndented cs).map visible = continueIndented (cs.map visible) := by
  have hmarked : (endsIndented (visibleLines lines) || nextOpensIndented (cs.map visible)) = true →
      (endsIndented lines || nextOpensIndented cs) = true := by
    rw [Bool.or_eq_true, Bool.or_eq_true]
    exact Or.imp (endsIndented_of_visibleLines hlines) (nextOpensIndented_of_map_visible hcs)
  rw [continueIndented, List.map_cons, List.map_cons, visible, visible, continueIndented,
    List.cons.injEq]
  refine and_congr_left fun _ => ?_
  rw [code.injEq, and_iff_right rfl, mark_eq_mark_iff hmarked, Bool.or_eq_true, Bool.or_eq_true]

/-- **Which chunks of code go on** is the same without bare lines exactly if these are idle.

**Proof sketch.** Induction on the chunks. Prose is kept on both sides, and its first line says that
it is not blank. A chunk of code is the case of `map_visible_continueIndented_code_iff`. -/
lemma map_visible_continueIndented_iff (h : ∀ c ∈ cs, c.IsTidy) :
    ((∀ c ∈ cs, c.visible.isBlank = false) ∧
      (continueIndented cs).map visible = continueIndented (cs.map visible)) ↔
        BareLinesIdle cs := by
  induction cs with
  | nil => simp [continueIndented, BareLinesIdle]
  | cons c cs ih =>
    rw [List.forall_mem_cons] at h
    rw [List.forall_mem_cons]
    cases c with
    | prose lines =>
      have hprose : (visible (prose lines)).isBlank = false := by
        obtain ⟨⟨l, hfirst, hl⟩, -⟩ := h.1
        exact List.all_eq_false.2 ⟨l, List.mem_of_head? hfirst, by simp [hl]⟩
      have hcons : (continueIndented (prose lines :: cs)).map visible =
            continueIndented ((prose lines :: cs).map visible) ↔
          (continueIndented cs).map visible = continueIndented (cs.map visible) := by
        rw [continueIndented, List.map_cons, List.map_cons, visible, continueIndented,
          List.cons.injEq, and_iff_right rfl]
      rw [hcons, and_iff_right hprose]
      exact ih h.2
    | code lines continuation =>
      have hvisible : (visible (code lines continuation)).isBlank = false ↔
          ∃ l ∈ lines, l.isBare = false := by
        rw [isBlank_visible_code, List.all_eq_false]
        simp
      rw [map_visible_continueIndented_code_iff h.1 h.2, hvisible, BareLinesIdle, ← ih h.2,
        and_and_and_comm, and_assoc]

/-! ## Normal form -/

/-- Whether a chunk ends a block does not depend on its bare lines. -/
lemma endsBlock_visible (c : Chunk) : c.visible.endsBlock = c.endsBlock := by
  rcases c with lines | ⟨lines, _ | _⟩ <;> rfl

/-- Whether a chunk goes on does not depend on its bare lines. -/
lemma isContinued_visible (c : Chunk) : c.visible.isContinued = c.isContinued := by
  rcases c with lines | ⟨lines, _ | _⟩ <;> rfl

/-- A comment is not bare. -/
lemma sourceLines_visible (c : Chunk) : c.visible.sourceLines = visibleLines c.sourceLines := by
  cases c with
  | code lines continuation => rfl
  | prose lines =>
    refine (List.filter_eq_self.2 fun l hl => ?_).symm
    obtain ⟨line, -, rfl⟩ := List.mem_map.1 hl
    rw [Text.isBare_of_mem (marker_mem_toComment line) (by decide), Bool.not_false]

/-- The visible lines of code and of chunks that a block takes over. -/
lemma visibleLines_append_flatMap (lines : List Text) (inner : List Chunk) :
    visibleLines (lines ++ inner.flatMap sourceLines) =
      visibleLines lines ++ (inner.map visible).flatMap sourceLines := by
  rw [visibleLines, List.filter_append, List.filter_flatMap, List.flatMap_map]
  exact congrArg _ (List.flatMap_congr fun c _ => (sourceLines_visible c).symm)

/-- Bare lines make no difference to merging.

**Proof sketch.** Induction on the blocks. Whether a chunk goes on or ends a block is its mark,
which hiding lines keeps; the lines of the chunks in a block are hidden one by one. -/
lemma BlocksMerged.map_visible (h : BlocksMerged cs ds) :
    BlocksMerged (cs.map visible) (ds.map visible) := by
  have hends {inner : List Chunk} (hinner : ∀ c ∈ inner, c.endsBlock = false) :
      ∀ c ∈ inner.map visible, c.endsBlock = false := by
    rw [List.forall_mem_map]
    exact fun c hc => (endsBlock_visible c).trans (hinner c hc)
  induction h with
  | nil => exact .nil
  | @alone c cs ds hc rest ih => exact .alone ((isContinued_visible c).trans hc) ih
  | @ended lines more inner cs ds hinner rest ih =>
    have hlines : visibleLines (lines ++ inner.flatMap sourceLines ++ more) =
        visibleLines lines ++ (inner.map visible).flatMap sourceLines ++ visibleLines more := by
      rw [visibleLines, List.filter_append, ← visibleLines_append_flatMap, visibleLines,
        visibleLines]
    rw [List.map_cons, List.map_append, List.map_cons, List.map_cons, visible, visible, visible,
      hlines]
    exact .ended (hends hinner) ih
  | @unended lines inner hinner =>
    rw [List.map_cons, List.map_singleton, visible, visible, visibleLines_append_flatMap]
    exact .unended (hends hinner)

/-- Marking blocks as going on keeps the number of chunks. -/
lemma length_continueIndented (cs : List Chunk) : (continueIndented cs).length = cs.length := by
  induction cs with
  | nil => rfl
  | cons c cs ih => cases c <;> exact congrArg Nat.succ ih

/-- **Without merging**, bare lines make no difference to chunks in normal form exactly if they are
idle.

**Proof sketch.** If they make none, no chunk is dropped without its bare lines, since the number of
chunks is the same. Then the chunks are marked alike with them and without them. -/
lemma map_visible_normalize_false_iff :
    (normalize false cs).map visible = normalize false (cs.map visible) ↔
      BareLinesIdle (trimmed cs) := by
  rw [← map_visible_continueIndented_iff isTidy_of_mem_trimmed, normalize_eq, normalize_eq]
  dsimp only
  rw [if_neg Bool.false_ne_true, if_neg Bool.false_ne_true, trimmed_map_visible]
  have hkept (h : ∀ c ∈ trimmed cs, c.visible.isBlank = false) :
      ((trimmed cs).map visible).filter (fun c => !c.isBlank) = (trimmed cs).map visible := by
    refine List.filter_eq_self.2 (List.forall_mem_map.2 fun c hc => ?_)
    rw [h c hc, Bool.not_false]
  constructor
  · intro h
    have hlength := congrArg List.length h
    rw [List.length_map, length_continueIndented, length_continueIndented,
      ← List.length_map visible] at hlength
    have hvisible : ∀ c ∈ trimmed cs, c.visible.isBlank = false := fun c hc => by
      simpa using List.length_filter_eq_length_iff.1 hlength.symm _ (List.mem_map_of_mem hc)
    exact ⟨hvisible, h.trans (congrArg _ (hkept hvisible))⟩
  · rintro ⟨hvisible, hmarks⟩
    rw [hkept hvisible, hmarks]

/-- **Idle bare lines** make no difference to chunks in normal form. -/
theorem map_visible_normalize (h : BareLinesIdle (trimmed cs)) (merge : Bool) :
    (normalize merge cs).map visible = normalize merge (cs.map visible) := by
  have hmarked := map_visible_normalize_false_iff.2 h
  cases merge with
  | false => exact hmarked
  | true =>
    have hmerged : BlocksMerged (normalize false cs) (normalize true cs) := blocksMerged_iff.2 rfl
    have hvisible := hmerged.map_visible
    rw [hmarked] at hvisible
    exact (blocksMerged_iff.1 hvisible).symm

/-! ## Empty lines -/

/-- Where every bare line is empty, none is at an end of code that is trimmed. -/
lemma visibleEnds_isBare {lines : List Text} (h : VisibleEnds List.isEmpty lines)
    (hempty : ∀ l ∈ lines, l.isBare = true → l.isEmpty = true) :
    VisibleEnds Text.isBare lines := by
  have hbare (l : Text) (hl : l ∈ lines) (hne : l.isEmpty = false) : l.isBare = false := by
    by_contra hbare
    exact absurd (hempty l hl (by simpa using hbare)) (by simp [hne])
  obtain ⟨⟨l, hfirst, hl⟩, m, hlast, hm⟩ := h
  exact ⟨⟨l, hfirst, hbare l (List.mem_of_head? hfirst) hl⟩,
    m, hlast, hbare m (List.mem_of_getLast? hlast) hm⟩

/-- Without empty lines the next chunk of code begins as it did. -/
lemma nextOpensIndented_map_visible (h : ∀ c ∈ cs, c.IsTidy)
    (hempty : ∀ c ∈ cs, ∀ l ∈ c.codeLines, l.isBare = true → l.isEmpty = true) :
    nextOpensIndented (cs.map visible) = nextOpensIndented cs := by
  induction cs with
  | nil => rfl
  | cons c cs ih =>
    rw [List.forall_mem_cons] at h hempty
    cases c with
    | prose lines => exact ih h.2 hempty.2
    | code lines continuation =>
      obtain ⟨⟨l, hfirst, hl⟩, -⟩ := visibleEnds_isBare h.1 hempty.1
      rw [List.map_cons, visible, nextOpensIndented, opensIndented, head?_visibleLines hfirst hl,
        nextOpensIndented, opensIndented, hfirst]

/-- **Empty lines are idle.** -/
lemma bareLinesIdle_of_empty (h : ∀ c ∈ cs, c.IsTidy)
    (hempty : ∀ c ∈ cs, ∀ l ∈ c.codeLines, l.isBare = true → l.isEmpty = true) :
    BareLinesIdle cs := by
  induction cs with
  | nil => trivial
  | cons c cs ih =>
    rw [List.forall_mem_cons] at h hempty
    cases c with
    | prose lines => exact ih h.2 hempty.2
    | code lines continuation =>
      obtain ⟨-, l, hlast, hl⟩ := visibleEnds_isBare h.1 hempty.1
      refine ⟨⟨l, List.mem_of_getLast? hlast, hl⟩, fun hindented => ?_, ih h.2 hempty.2⟩
      rw [nextOpensIndented_map_visible h.2 hempty.2, endsIndented,
        getLast?_visibleLines hlast hl, ← hlast]
      exact .inr hindented

/-- In a cleared text every bare line of code is empty. -/
lemma isEmpty_of_mem_trimmed_cleared {c : Chunk} {l : Text} (h : c ∈ trimmed (cs.map cleared))
    (hl : l ∈ c.codeLines) (hbare : l.isBare = true) : l.isEmpty = true := by
  obtain ⟨d, hd, rfl⟩ := List.mem_map.1 h
  obtain ⟨e, -, rfl⟩ := List.mem_map.1 (List.mem_of_mem_filter hd)
  cases e with
  | prose lines => cases hl
  | code lines continuation =>
    obtain ⟨line, -, rfl⟩ := List.mem_map.1 ((trimList_sublist _ _).subset hl)
    exact line.isEmpty_cleared hbare

/-- A chunk without its bare lines is the same if these have been cleared before. -/
lemma visible_cleared (c : Chunk) : c.cleared.visible = c.visible := by
  cases c with
  | prose lines => rfl
  | code lines continuation =>
    rw [cleared, visible, visibleLines_map_cleared, visible]

/-- **The chunks of a text in which bare lines are empty** are those of the text without its bare
lines, except for empty lines. -/
theorem map_visible_normalize_clearBareLines (allow merge : Bool) (t : Text) :
    (normalize merge (cut allow (Text.clearBareLines t))).map visible =
      normalize merge ((cut allow t).map visible) := by
  have hidle : BareLinesIdle (trimmed ((cut allow t).map cleared)) :=
    bareLinesIdle_of_empty isTidy_of_mem_trimmed fun _ hc _ => isEmpty_of_mem_trimmed_cleared hc
  rw [normalize_eq, trimmed_cut_clearBareLines, ← normalize_eq, map_visible_normalize hidle,
    List.map_map]
  exact congrArg _ (List.map_congr_left fun c _ => visible_cleared c)

/-- **When bare lines make no difference.** Emptying them keeps which chunks a text has, which of
them go on and what visible lines they hold, exactly if they are idle.

**Proof sketch.** Emptying bare lines before the text is cut comes to the same as hiding them in the
chunks (`map_visible_normalize_clearBareLines`). Without merging the two are the same exactly if the
lines are idle (`map_visible_normalize_false_iff`), and then merging keeps them so
(`map_visible_normalize`). -/
theorem map_visible_normalize_eq_iff (allow : Bool) (t : Text) :
    (∀ merge, (normalize merge (cut allow t)).map visible =
      (normalize merge (cut allow (Text.clearBareLines t))).map visible) ↔
        BareLinesIdle (trimmed (cut allow t)) := by
  simp only [map_visible_normalize_clearBareLines]
  constructor
  · intro h
    exact map_visible_normalize_false_iff.1 (h false)
  · intro h merge
    exact map_visible_normalize h merge

/-- A line of blanks between two comments makes a block of two statements. -/
theorem map_visible_normalize_ne :
    ¬ ∀ (allow merge : Bool) (t : Text), (normalize merge (cut allow t)).map visible =
      (normalize merge (cut allow (Text.clearBareLines t))).map visible := by
  intro h
  exact absurd (h false true "x = 1\n# a\n  \n# b\ny = 2\n".toList) (by decide)

end Chunk

end Weave
