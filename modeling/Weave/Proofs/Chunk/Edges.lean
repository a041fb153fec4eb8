import Weave.Proofs.Chunk.Endings
import Weave.Proofs.Chunk.Merging

set_option autoImplicit false
set_option relaxedAutoImplicit false

/-!
# How chunks begin and end in normal form

A chunk in normal form has lines, and it neither begins nor ends with a blank one. If blocks of code
are merged, a block that goes on is the last chunk, and an indented block is never cut in two: a
chunk of code with another one before it begins at the margin, and one with a chunk after it ends at
the margin.

## Main definitions

* `Weave.Chunk.VisibleEnds` — a list begins and ends with elements that are not of a class.
* `Weave.Chunk.IsTidy` — a chunk begins and ends with lines that are not blank.
* `Weave.Chunk.EndsAtMargin` — no indented code comes after the end of a block.

## Main results

* `Weave.Chunk.isTidy_of_mem_normalize` — the ends of chunks in normal form.
* `Weave.Chunk.opensIndented_of_blocksMerged` — how merged chunks of code begin.
* `Weave.Chunk.normalize_tidy` — all of this for chunks in normal form.
-/

namespace Weave.Chunk

variable {α β : Type} {p : α → Bool} {q : β → Bool} {cs ds : List Chunk}

/-! ## Visible ends -/

/-- **A list has visible ends** if it begins and ends with elements that are not of the class. -/
def VisibleEnds (p : α → Bool) (l : List α) : Prop :=
  (∃ a, l.head? = some a ∧ p a = false) ∧ ∃ a, l.getLast? = some a ∧ p a = false

/-- **A chunk is tidy**: it has lines, and neither the first nor the last of them is blank. -/
def IsTidy : Chunk → Prop
  | prose lines => VisibleEnds ProseLine.isBlank lines
  | code lines _ => VisibleEnds List.isEmpty lines

/-- A list with visible ends is not empty. -/
lemma VisibleEnds.ne_nil {l : List α} (h : VisibleEnds p l) : l ≠ [] := by
  rintro rfl
  obtain ⟨⟨a, ha, -⟩, -⟩ := h
  cases ha

/-- A list with visible ends is not all of the class. -/
lemma VisibleEnds.all_eq_false {l : List α} (h : VisibleEnds p l) : l.all p = false := by
  obtain ⟨⟨a, hfirst, ha⟩, -⟩ := h
  exact List.all_eq_false.2 ⟨a, List.mem_of_head? hfirst, by simp [ha]⟩

/-- There is nothing to trim at visible ends. -/
lemma VisibleEnds.trimList_eq_self {l : List α} (h : VisibleEnds p l) : trimList p l = l := by
  obtain ⟨⟨a, hfirst, ha⟩, b, hlast, hb⟩ := h
  have hdrop {l : List α} {a : α} (hfirst : l.head? = some a) (ha : p a = false) :
      l.dropWhile p = l := by
    obtain ⟨more, rfl⟩ := List.head?_eq_some_iff.1 hfirst
    exact List.dropWhile_cons_of_neg (by simp [ha])
  rw [← List.head?_reverse] at hlast
  rw [trimList, hdrop hfirst ha, hdrop hlast hb, List.reverse_reverse]

/-- What is left of a list when its ends are trimmed has visible ends, if it is not empty. -/
lemma visibleEnds_trimList {l : List α} (h : l.all p = false) : VisibleEnds p (trimList p l) := by
  obtain ⟨before, b, htrim, hb⟩ := exists_trimList_eq_concat h
  obtain ⟨z, hz⟩ : trimList p l <+: l.dropWhile p := List.rdropWhile_prefix p _
  have hne : trimList p l ≠ [] := by simp [htrim]
  obtain ⟨a, rest, ha⟩ := List.exists_cons_of_ne_nil hne
  have hhead := List.head?_dropWhile_not p l
  rw [← hz, ha, List.cons_append, List.head?_cons] at hhead
  exact ⟨⟨a, by rw [ha, List.head?_cons], hhead⟩, b, by rw [htrim, List.getLast?_concat], hb⟩

/-- Two lists with visible ends make one. -/
lemma VisibleEnds.append {k l : List α} (hk : VisibleEnds p k) (hl : VisibleEnds p l) :
    VisibleEnds p (k ++ l) := by
  refine ⟨?_, ?_⟩
  · rw [List.head?_append_of_ne_nil _ hk.ne_nil]
    exact hk.1
  · rw [List.getLast?_append_of_ne_nil _ hl.ne_nil]
    exact hl.2

/-- A list that is not empty has visible ends if none of its elements is of the class. -/
lemma visibleEnds_map {f : α → β} {l : List α} (hl : l ≠ []) (hf : ∀ a, q (f a) = false) :
    VisibleEnds q (l.map f) := by
  refine ⟨?_, ?_⟩
  · exact ⟨f (l.head hl), by rw [List.head?_map, List.head?_eq_some_head hl]; rfl, hf _⟩
  · exact ⟨f (l.getLast hl), by rw [List.getLast?_map, List.getLast?_eq_some_getLast hl]; rfl, hf _⟩

/-! ## Tidy chunks -/

/-- A comment holds its marker. -/
lemma marker_mem_toComment (l : ProseLine) : '#' ∈ l.toComment := by
  obtain ⟨z, hz, hblank⟩ := Text.exists_eq_trimEnd_append (l.indent ++ "# ".toList ++ l.text)
  have hmarker : '#' ∈ l.toComment ++ z := by
    rw [ProseLine.toComment, ← hz]
    simp
  refine (List.mem_append.1 hmarker).resolve_right fun hmem => ?_
  exact absurd (hblank '#' hmem) (by decide)

/-- The lines of a tidy chunk have visible ends in the form of a source. -/
lemma IsTidy.visibleEnds_sourceLines {c : Chunk} (h : c.IsTidy) :
    VisibleEnds List.isEmpty c.sourceLines := by
  cases c with
  | prose lines =>
    refine visibleEnds_map (VisibleEnds.ne_nil h) fun l => ?_
    rw [List.isEmpty_eq_false_iff]
    exact List.ne_nil_of_mem (marker_mem_toComment l)
  | code lines continuation => exact h

/-- A chunk that is not blank is tidy without the blank lines at its ends. -/
lemma isTidy_trimBlank {c : Chunk} (h : c.isBlank = false) : c.trimBlank.IsTidy := by
  cases c with
  | prose lines => exact visibleEnds_trimList h
  | code lines continuation => exact visibleEnds_trimList h

/-- Marking code as going on keeps chunks tidy. -/
lemma isTidy_of_mem_continueIndented (h : ∀ c ∈ cs, c.IsTidy) :
    ∀ c ∈ continueIndented cs, c.IsTidy := by
  induction cs with
  | nil => exact List.forall_mem_nil _
  | cons c cs ih =>
    rw [List.forall_mem_cons] at h
    cases c with
    | prose lines => exact List.forall_mem_cons.2 ⟨h.1, ih h.2⟩
    | code lines continuation => exact List.forall_mem_cons.2 ⟨h.1, ih h.2⟩

/-- The lines of tidy chunks that a block takes over leave it visible ends. -/
lemma visibleEnds_append_flatMap {lines : List Text} {inner : List Chunk}
    (hlines : VisibleEnds List.isEmpty lines) (hinner : ∀ c ∈ inner, c.IsTidy) :
    VisibleEnds List.isEmpty (lines ++ inner.flatMap sourceLines) := by
  induction inner generalizing lines with
  | nil => rwa [List.flatMap_nil, List.append_nil]
  | cons c inner ih =>
    rw [List.forall_mem_cons] at hinner
    rw [List.flatMap_cons, ← List.append_assoc]
    exact ih (hlines.append hinner.1.visibleEnds_sourceLines) hinner.2

/-- **Merging keeps chunks tidy.** -/
lemma isTidy_of_blocksMerged (h : BlocksMerged cs ds) (hcs : ∀ c ∈ cs, c.IsTidy) :
    ∀ d ∈ ds, d.IsTidy := by
  induction h with
  | nil => exact hcs
  | alone hc rest ih =>
    rw [List.forall_mem_cons] at hcs ⊢
    exact ⟨hcs.1, ih hcs.2⟩
  | ended hinner rest ih =>
    rw [List.forall_mem_cons, List.forall_mem_append, List.forall_mem_cons] at hcs
    obtain ⟨hlines, htidy, hmore, hrest⟩ := hcs
    exact List.forall_mem_cons.2 ⟨(visibleEnds_append_flatMap hlines htidy).append hmore, ih hrest⟩
  | unended hinner =>
    rw [List.forall_mem_cons] at hcs
    exact List.forall_mem_singleton.2 (visibleEnds_append_flatMap hcs.1 hcs.2)

/-- The chunks that are not blank are tidy without the blank lines at their ends. -/
lemma isTidy_of_mem_trimmed : ∀ c ∈ trimmed cs, c.IsTidy := by
  intro c hc
  obtain ⟨d, hd, rfl⟩ := List.mem_map.1 hc
  exact isTidy_trimBlank (by simpa using (List.mem_filter.1 hd).2)

/-- The chunks that blocks are merged from are tidy. -/
lemma isTidy_of_mem_normalize_false : ∀ c ∈ normalize false cs, c.IsTidy :=
  isTidy_of_mem_continueIndented isTidy_of_mem_trimmed

/-- **A chunk in normal form** is tidy. -/
theorem isTidy_of_mem_normalize (merge : Bool) : ∀ c ∈ normalize merge cs, c.IsTidy := by
  cases merge with
  | false => exact isTidy_of_mem_normalize_false
  | true => exact isTidy_of_blocksMerged (blocksMerged_iff.2 rfl) isTidy_of_mem_normalize_false

/-! ## Indented blocks -/

/-- **Blocks end at the margin**: the next chunk of code after the end of a block does not begin
with an indented line. -/
def EndsAtMargin (cs : List Chunk) : Prop :=
  ∀ before lines after, cs = before ++ code lines .terminated :: after →
    nextOpensIndented after = false

/-- Blocks still end at the margin if the first chunks are left out. -/
lemma EndsAtMargin.of_append (before : List Chunk) (h : EndsAtMargin (before ++ cs)) :
    EndsAtMargin cs := by
  rintro first lines after rfl
  exact h (before ++ first) lines after (List.append_assoc _ _ _).symm

/-- Code that is broken off before an indented line does not end there. -/
lemma endsAtMargin_continueIndented (cs : List Chunk) : EndsAtMargin (continueIndented cs) := by
  intro before lines after hcs
  have hat : (continueIndented cs)[before.length]? = some (code lines .terminated) := by
    simp [hcs]
  obtain ⟨_, -, hgoesOn⟩ := getElem?_continueIndented hat
  have hdrop : (continueIndented cs).drop (before.length + 1) = after := by simp [hcs]
  rw [hdrop] at hgoesOn
  by_contra hopens
  have hcontinued := hgoesOn.2 (.inr (.inr (Bool.not_eq_false _ ▸ hopens)))
  cases hcontinued

/-- **A block that goes on** is the last chunk when blocks are merged. -/
lemma isContinued_of_blocksMerged (h : BlocksMerged cs ds) :
    ∀ d ∈ ds.dropLast, d.isContinued = false := by
  have hcons {d : Chunk} {ds : List Chunk} (hd : d.isContinued = false)
      (hds : ∀ d ∈ ds.dropLast, d.isContinued = false) :
      ∀ e ∈ (d :: ds).dropLast, e.isContinued = false := by
    cases ds with
    | nil => exact List.forall_mem_nil _
    | cons e ds =>
      rw [List.dropLast_cons_cons]
      exact List.forall_mem_cons.2 ⟨hd, hds⟩
  induction h with
  | nil => exact List.forall_mem_nil _
  | alone hc rest ih => exact hcons hc ih
  | ended hinner rest ih => exact hcons rfl ih
  | unended hinner => exact List.forall_mem_nil _

/-- How the first chunk of code begins is not changed by merging. -/
lemma nextOpensIndented_of_blocksMerged (h : BlocksMerged cs ds) (hcs : ∀ c ∈ cs, c.IsTidy) :
    nextOpensIndented ds = nextOpensIndented cs := by
  have hopens {lines more : List Text} (hlines : VisibleEnds List.isEmpty lines) :
      opensIndented (lines ++ more) = opensIndented lines := by
    rw [opensIndented, List.head?_append_of_ne_nil _ hlines.ne_nil, opensIndented]
  induction h with
  | nil => rfl
  | @alone c cs ds hc rest ih =>
    cases c with
    | prose lines => exact ih (List.forall_mem_cons.1 hcs).2
    | code lines continuation => rfl
  | ended hinner rest ih =>
    rw [List.forall_mem_cons] at hcs
    rw [nextOpensIndented, List.append_assoc, hopens hcs.1, nextOpensIndented]
  | unended hinner =>
    rw [List.forall_mem_cons] at hcs
    rw [nextOpensIndented, hopens hcs.1, nextOpensIndented]

/-- If the first of some chunks of code begins at the margin, and the others do, then all do. -/
lemma opensIndented_of_nextOpensIndented (h : nextOpensIndented ds = false)
    (hds : ∀ d ∈ (ds.filter isCode).tail, opensIndented d.codeLines = false) :
    ∀ d ∈ ds.filter isCode, opensIndented d.codeLines = false := by
  induction ds with
  | nil => exact List.forall_mem_nil _
  | cons d ds ih =>
    cases d with
    | prose lines => exact ih h hds
    | code lines continuation => exact List.forall_mem_cons.2 ⟨h, hds⟩

/-- **An indented block is not cut in two** when blocks are merged: a chunk of code with another one
before it begins at the margin.

**Proof sketch.** By blocks. A chunk of code in the result ends a block or is the last one. What
comes after the end of a block begins at the margin, and merging does not change how the next chunk
of code begins. -/
theorem opensIndented_of_blocksMerged (h : BlocksMerged cs ds) (hcs : ∀ c ∈ cs, c.IsTidy)
    (hmargin : EndsAtMargin cs) :
    ∀ d ∈ (ds.filter isCode).tail, opensIndented d.codeLines = false := by
  induction h with
  | nil => exact List.forall_mem_nil _
  | @alone c cs ds hc rest ih =>
    have hrest := ih (List.forall_mem_cons.1 hcs).2 (hmargin.of_append [c])
    rcases c with lines | ⟨lines, _ | _⟩
    · exact hrest
    · refine opensIndented_of_nextOpensIndented ?_ hrest
      rw [nextOpensIndented_of_blocksMerged rest (List.forall_mem_cons.1 hcs).2]
      exact hmargin [] lines cs rfl
    · cases hc
  | @ended lines more inner cs ds hinner rest ih =>
    rw [List.forall_mem_cons, List.forall_mem_append, List.forall_mem_cons] at hcs
    have htidy := hcs.2.2.2
    have hends : EndsAtMargin (code more .terminated :: cs) :=
      hmargin.of_append (code lines .continued :: inner)
    refine opensIndented_of_nextOpensIndented ?_
      (ih htidy (hends.of_append [code more .terminated]))
    rw [nextOpensIndented_of_blocksMerged rest htidy]
    exact hends [] more cs rfl
  | unended hinner => exact List.forall_mem_nil _

/-! ## Normal form -/

/-- A block that ends at the margin has no indented last line. -/
lemma EndsUnindented.endsIndented_eq {lines : List Text} (h : EndsUnindented lines) :
    endsIndented lines = false := by
  obtain ⟨before, d, rest, rfl, hd⟩ := h
  simpa [endsIndented, Text.startsBlank] using hd

/-- **Chunks in normal form** are tidy. With merging, only the last one may be a block that goes on
or end with an indented line of code, and only the first chunk of code may begin with one.

**Proof sketch.** Normal form without merging is tidy and ends at the margin
(`endsAtMargin_continueIndented`). Merging closes every block but the last one
(`isContinued_of_blocksMerged`) and keeps how the chunks of code begin
(`opensIndented_of_blocksMerged`); and a chunk that does not go on ends at the margin. -/
theorem normalize_tidy (cs : List Chunk) :
    (∀ merge, ∀ c ∈ normalize merge cs, c.IsTidy) ∧
      (∀ c ∈ (normalize true cs).dropLast,
        c.isContinued = false ∧ endsIndented c.codeLines = false) ∧
      ∀ c ∈ ((normalize true cs).filter isCode).tail, opensIndented c.codeLines = false := by
  have hmerged : BlocksMerged (normalize false cs) (normalize true cs) := blocksMerged_iff.2 rfl
  refine ⟨isTidy_of_mem_normalize, fun c hc => ?_, ?_⟩
  · have hcontinued : c.isContinued = false := isContinued_of_blocksMerged hmerged c hc
    refine ⟨hcontinued, ?_⟩
    have hended : c.IsWellEnded := isWellEnded_of_mem_normalize c (List.mem_of_mem_dropLast hc)
    rcases c with lines | ⟨lines, _ | _⟩
    · rfl
    · exact (hended.2 rfl).endsIndented_eq
    · cases hcontinued
  · exact opensIndented_of_blocksMerged hmerged isTidy_of_mem_normalize_false
      (endsAtMargin_continueIndented _)

/-- An indented block that prose breaks off, and one that ends the chunks. -/
theorem normalize_tidy_brokenBlock :
    let cs := [code [[], "if".toList, " a".toList] .terminated,
      prose [⟨[], []⟩, ⟨[], "b".toList⟩], code [" c".toList, "d".toList] .terminated,
      prose [⟨[], "e".toList⟩, ⟨" ".toList, []⟩], code ["f".toList] .continued]
    let block := code ["if".toList, " a".toList, "# b".toList, " c".toList, "d".toList] .terminated
    let last := code ["f".toList] .continued
    block ∈ (normalize true cs).dropLast ∧ last ∈ ((normalize true cs).filter isCode).tail ∧
      (block.IsTidy ∧ last.IsTidy) ∧
      (block.isContinued = false ∧ endsIndented block.codeLines = false) ∧
      opensIndented last.codeLines = false := by
  intro cs block last
  have hblock : block ∈ (normalize true cs).dropLast := by decide
  have hlast : last ∈ ((normalize true cs).filter isCode).tail := by decide
  obtain ⟨htidy, hends, hopens⟩ := normalize_tidy cs
  refine ⟨hblock, hlast, ⟨?_, ?_⟩, hends block hblock, hopens last hlast⟩
  · exact htidy true block (List.mem_of_mem_dropLast hblock)
  · exact htidy true last (List.mem_of_mem_filter (List.mem_of_mem_tail hlast))

end Weave.Chunk
