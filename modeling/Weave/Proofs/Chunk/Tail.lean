import Weave.Chunk.Cut
import Weave.Chunk.Normalize
import Weave.Proofs.Text.Append

set_option autoImplicit false
set_option relaxedAutoImplicit false

/-!
# Prose that is put after a text

A mark and lines of prose that are put after a text are cut into a chunk of their own. In normal
form it is still the last one, unless blocks of code are merged and the last one goes on: this one
takes the prose over. A line feed after the text makes no difference.

## Main definitions

* `Weave.Chunk.newestFirst` — the chunks of lines of a source.
* `Weave.Chunk.GoesOn` — the last of some chunks is a block of code that goes on.
* `Weave.Chunk.withProse` — chunks with prose put after them.

## Main results

* `Weave.Chunk.cut_append` — the chunks of a text with prose put after it.
* `Weave.Chunk.normalize_append` — the same in normal form.
* `Weave.Chunk.normalize_cut_lineFeed` — a line feed after the text makes no difference.
-/

namespace Weave.Chunk

/-- **The last chunk goes on**: it is a block of code that ends in a later chunk. -/
def GoesOn (cs : List Chunk) : Prop :=
  ∃ lines, cs.getLast? = some (code lines .continued)

/-- **Chunks with prose put after them.** If blocks of code are merged, one that goes on takes the
prose over as comments. -/
def withProse (merge : Bool) (ls : List ProseLine) (cs : List Chunk) : List Chunk :=
  match merge, cs.getLast? with
  | true, some (code lines .continued) =>
    cs.dropLast ++ [code (lines ++ ls.map ProseLine.toComment) .continued]
  | _, _ => cs ++ [prose ls]

/-- The chunks of lines of a source, newest first. -/
def newestFirst (allowContinuation : Bool) (ls : List SourceLine) : List Chunk :=
  ls.foldl (addLine allowContinuation) [firstFor ls.head?]

variable {allow merge : Bool} {ls : List ProseLine}

/-! ## Cutting -/

/-- A text is cut line by line, and the newest chunk stands first until the end. -/
lemma cut_eq (allow : Bool) (t : Text) :
    cut allow t = (newestFirst allow ((Text.lines t).map SourceLine.ofText)).reverse :=
  rfl

/-- More lines are added to the chunks that are there, if they do not begin with prose. -/
lemma newestFirst_append (ls : List SourceLine) {more : List SourceLine}
    (h : firstFor more.head? = noCode) :
    newestFirst allow (ls ++ more) = more.foldl (addLine allow) (newestFirst allow ls) := by
  cases ls with
  | nil =>
    rw [List.nil_append, newestFirst, h]
    rfl
  | cons l ls => rw [newestFirst, List.foldl_append, List.cons_append, List.head?_cons, newestFirst,
      List.head?_cons]

/-- Lines of prose are added to a chunk of prose. -/
lemma foldl_addLine_prose (lines ls : List ProseLine) (cs : List Chunk) :
    (ls.map SourceLine.prose).foldl (addLine allow) (prose lines :: cs) =
      prose (lines ++ ls) :: cs := by
  induction ls generalizing lines with
  | nil => rw [List.map_nil, List.foldl_nil, List.append_nil]
  | cons l ls ih =>
    have hadd : addLine allow (prose lines :: cs) (.prose l) = prose (lines ++ [l]) :: cs := rfl
    rw [List.map_cons, List.foldl_cons, hadd, ih, List.append_assoc, List.singleton_append]

/-- **A mark and lines of prose** make a chunk of prose, with nothing but blank chunks before it. -/
lemma exists_foldl_addLine_cut (allow : Bool) (hls : ls ≠ []) (newest : List Chunk) :
    ∃ blanks : List Chunk, (∀ c ∈ blanks, c.isBlank = true) ∧
      (.cut :: ls.map SourceLine.prose).foldl (addLine allow) newest =
        prose ls :: (blanks ++ newest) := by
  have hempty : (newest.head?.map emptyLike).getD noCode = noProse ∨
      (newest.head?.map emptyLike).getD noCode = noCode := by
    cases newest with
    | nil => exact .inr rfl
    | cons c cs =>
      cases c with
      | prose _ => exact .inl rfl
      | code _ _ => exact .inr rfl
  rw [List.foldl_cons, addLine]
  rcases hempty with h | h
  · rw [h, noProse, foldl_addLine_prose]
    exact ⟨[], by simp, rfl⟩
  · obtain ⟨l, ls, rfl⟩ := List.exists_cons_of_ne_nil hls
    have hadd : addLine allow (noCode :: newest) (.prose l) = prose [l] :: noCode :: newest := rfl
    rw [h, List.map_cons, List.foldl_cons, hadd, foldl_addLine_prose]
    exact ⟨[noCode], by simp [noCode, isBlank], rfl⟩

/-- **Prose that is put after a text** with a mark before it is a chunk of its own, with nothing but
blank chunks between. -/
theorem cut_append (allow : Bool) {t f : Text} (h : t.IsWhole) (hls : ls ≠ [])
    (hf : (Text.lines f).map SourceLine.ofText = .cut :: ls.map SourceLine.prose) :
    ∃ blanks : List Chunk, (∀ c ∈ blanks, c.isBlank = true) ∧
      cut allow (t ++ f) = cut allow t ++ (blanks ++ [prose ls]) := by
  obtain ⟨blanks, hblanks, hadd⟩ := exists_foldl_addLine_cut allow hls
    (newestFirst allow ((Text.lines t).map SourceLine.ofText))
  refine ⟨blanks.reverse, fun c hc => hblanks c (List.mem_reverse.1 hc), ?_⟩
  rw [cut_eq, Text.lines_append h, List.map_append, hf, newestFirst_append _ rfl, hadd,
    List.reverse_cons, List.reverse_append, ← cut_eq, List.append_assoc]

/-! ## Normal form -/

/-- The chunks that are not blank, without blank lines at their ends. -/
def trimmed (cs : List Chunk) : List Chunk :=
  (cs.filter fun c => !c.isBlank).map trimBlank

/-- Normal form is trimming, marking indented blocks as going on, and perhaps merging. -/
lemma normalize_eq (merge : Bool) (cs : List Chunk) :
    normalize merge cs =
      let marked := continueIndented (trimmed cs)
      if merge then mergeContinued marked else marked :=
  rfl

/-- Chunks are trimmed one by one. -/
lemma trimmed_append (cs ds : List Chunk) : trimmed (cs ++ ds) = trimmed cs ++ trimmed ds := by
  rw [trimmed, List.filter_append, List.map_append, trimmed, trimmed]

/-- A chunk is dropped by trimming if it is blank. -/
lemma trimmed_singleton (c : Chunk) : trimmed [c] = if c.isBlank then [] else [c.trimBlank] := by
  rw [trimmed, List.filter_cons]
  cases c.isBlank <;> rfl

/-- Blank chunks are dropped. -/
lemma trimmed_of_blank {cs : List Chunk} (h : ∀ c ∈ cs, c.isBlank = true) : trimmed cs = [] := by
  rw [trimmed, List.map_eq_nil_iff, List.filter_eq_nil_iff]
  intro c hc
  simp [h c hc]

/-- Whether code is broken off does not depend on prose that comes after it. -/
lemma nextOpensIndented_concat (cs : List Chunk) (ls : List ProseLine) :
    nextOpensIndented (cs ++ [prose ls]) = nextOpensIndented cs := by
  induction cs with
  | nil => rfl
  | cons c cs ih =>
    cases c with
    | prose lines => exact ih
    | code lines continuation => rfl

/-- Code that is broken off is marked in the chunks before. -/
lemma continueIndented_concat (cs : List Chunk) (ls : List ProseLine) :
    continueIndented (cs ++ [prose ls]) = continueIndented cs ++ [prose ls] := by
  induction cs with
  | nil => rfl
  | cons c cs ih =>
    cases c with
    | prose lines => rw [List.cons_append, continueIndented, continueIndented, ih, List.cons_append]
    | code lines continuation =>
      rw [List.cons_append, continueIndented, continueIndented, ih, nextOpensIndented_concat,
        List.cons_append]

/-- Without a block that goes on prose is the last chunk. -/
lemma withProse_of_not_goesOn {cs : List Chunk} (h : merge = true → ¬ GoesOn cs) :
    withProse merge ls cs = cs ++ [prose ls] := by
  unfold withProse
  split
  next lines hlast => exact absurd ⟨lines, hlast⟩ (h rfl)
  next => rfl

/-- A block that goes on takes prose over. -/
lemma withProse_of_goesOn {cs : List Chunk} {lines : List Text}
    (h : cs.getLast? = some (code lines .continued)) :
    withProse true ls cs =
      cs.dropLast ++ [code (lines ++ ls.map ProseLine.toComment) .continued] := by
  simp only [withProse, h]

/-- **Prose is the last chunk** exactly if no block that goes on takes it over. -/
lemma withProse_eq_append_iff {cs ds : List Chunk} :
    withProse merge ls ds = cs ++ [prose ls] ↔ ds = cs ∧ (merge = true → ¬ GoesOn ds) := by
  constructor
  · intro h
    by_cases hmerge : merge = true → ¬ GoesOn ds
    · rw [withProse_of_not_goesOn hmerge] at h
      exact ⟨List.append_cancel_right h, hmerge⟩
    · push Not at hmerge
      obtain ⟨rfl, lines, hlast⟩ := hmerge
      rw [withProse_of_goesOn hlast] at h
      have hcode := (List.append_inj' h rfl).2
      cases hcode
  · rintro ⟨rfl, h⟩
    exact withProse_of_not_goesOn h

/-- Whether the last chunk goes on is seen at the newest one. -/
lemma goesOn_reverse_iff {newest : List Chunk} :
    GoesOn newest.reverse ↔ newest.head?.any isContinued = true := by
  rw [GoesOn, List.getLast?_reverse]
  cases newest with
  | nil => simp
  | cons c cs =>
    rcases c with lines | ⟨lines, _ | _⟩ <;> simp [isContinued]

/-- While chunks are merged, **a block is open** exactly if the newest chunk is code that goes
on.

**Proof sketch.** By the equations of `Merging.add`. Where a chunk of code is added or taken over,
its own mark decides. Prose that is put beside an open block cannot be, as the block would have
taken it over. -/
lemma isOpen_add {m : Merging} (h : m.isOpen = m.newest.head?.any isContinued) (c : Chunk) :
    (m.add c).isOpen = (m.add c).newest.head?.any isContinued := by
  obtain ⟨newest, isOpen⟩ := m
  have hcode (lines : List Text) (continuation : Continuation) :
      isContinued (code lines continuation) = (continuation == .continued) := by
    cases continuation <;> rfl
  unfold Merging.add
  dsimp only at h ⊢
  split
  next lines continuation cs more =>
    rw [List.head?_cons, Option.any_some, hcode] at h ⊢
    exact h
  next lines continuation cs more continuation' =>
    rw [List.head?_cons, Option.any_some, hcode]
  next hprose hmore =>
    rw [List.head?_cons, Option.any_some]
    cases c with
    | code lines continuation => exact (hcode lines continuation).symm
    | prose lines =>
      cases isOpen with
      | false => rfl
      | true =>
        -- An open block would have taken the prose over.
        obtain ⟨lines', hlast⟩ := goesOn_reverse_iff.2 h.symm
        rw [List.getLast?_reverse] at hlast
        cases newest with
        | nil => cases hlast
        | cons d ds =>
          cases hlast
          exact absurd rfl (hprose _ _ _ _ rfl rfl)

/-- While chunks are merged, the newest one tells whether a block is open. -/
lemma isOpen_foldl_add (cs : List Chunk) {m : Merging}
    (h : m.isOpen = m.newest.head?.any isContinued) :
    (cs.foldl Merging.add m).isOpen = (cs.foldl Merging.add m).newest.head?.any isContinued := by
  induction cs generalizing m with
  | nil => exact h
  | cons c cs ih => exact ih (isOpen_add h c)

/-- **Prose that is merged** with the chunks before it: a block that goes on takes it over.

**Proof sketch.** The prose is the last chunk that is added. It is taken over exactly if a block is
open then, which is to say that the newest chunk goes on (`isOpen_foldl_add`). -/
lemma mergeContinued_concat (cs : List Chunk) (ls : List ProseLine) :
    mergeContinued (cs ++ [prose ls]) = withProse true ls (mergeContinued cs) := by
  have hopen := isOpen_foldl_add cs (m := { newest := [], isOpen := false }) rfl
  rw [mergeContinued, List.foldl_append, List.foldl_cons, List.foldl_nil, mergeContinued]
  generalize cs.foldl Merging.add { newest := [], isOpen := false } = m at hopen ⊢
  obtain ⟨newest, isOpen⟩ := m
  dsimp only at hopen ⊢
  by_cases hgoesOn : GoesOn newest.reverse
  · rw [goesOn_reverse_iff.1 hgoesOn] at hopen
    obtain ⟨lines, hlast⟩ := hgoesOn
    rw [withProse_of_goesOn hlast]
    rw [List.getLast?_reverse] at hlast
    cases newest with
    | nil => cases hlast
    | cons c cs =>
      cases hlast
      rw [hopen]
      simp [Merging.add]
  · rw [withProse_of_not_goesOn fun _ => hgoesOn]
    rw [goesOn_reverse_iff, Bool.not_eq_true] at hgoesOn
    rw [hopen, hgoesOn]
    exact List.reverse_cons

/-- **Prose that is put after chunks** is the last chunk in normal form, unless it is taken over by
a block of code that goes on. -/
theorem normalize_append {blanks : List Chunk} (hblanks : ∀ c ∈ blanks, c.isBlank = true)
    (hblank : (prose ls).isBlank = false) (htrim : (prose ls).trimBlank = prose ls)
    (cs : List Chunk) :
    normalize merge (cs ++ (blanks ++ [prose ls])) = withProse merge ls (normalize merge cs) := by
  have htrimmed : trimmed (cs ++ (blanks ++ [prose ls])) = trimmed cs ++ [prose ls] := by
    rw [trimmed_append, trimmed_append, trimmed_of_blank hblanks, List.nil_append,
      trimmed_singleton, hblank, htrim]
    rfl
  rw [normalize_eq, normalize_eq, htrimmed, continueIndented_concat]
  cases merge with
  | false => rfl
  | true => exact mergeContinued_concat _ ls

/-- An element of the class at the end is trimmed away. -/
lemma trimList_concat {α : Type} {p : α → Bool} {a : α} (ha : p a = true) (l : List α) :
    trimList p (l ++ [a]) = trimList p l := by
  rw [trimList, trimList, List.dropWhile_append]
  split
  next h =>
    rw [List.isEmpty_iff] at h
    simp [h, ha]
  next => simp [ha]

/-- **An empty line of code** at the end is left out in normal form. -/
lemma trimmed_addLine_empty (allow : Bool) (newest : List Chunk) :
    trimmed (addLine allow newest (.code [])).reverse = trimmed newest.reverse := by
  unfold addLine
  dsimp only
  split
  next lines continuation cs =>
    rw [List.reverse_cons, List.reverse_cons, trimmed_append, trimmed_append]
    congr 1
    have hblank :
        (code (lines ++ [[]]) continuation).isBlank = (code lines continuation).isBlank := by
      simp [isBlank]
    have htrim : (code (lines ++ [[]]) continuation).trimBlank =
        (code lines continuation).trimBlank := by
      rw [trimBlank, trimBlank, trimList_concat rfl]
    rw [trimmed_singleton, trimmed_singleton, hblank, htrim]
  next =>
    have hnone : trimmed [code [[]] .terminated] = [] := rfl
    rw [List.reverse_cons, trimmed_append, hnone, List.append_nil]

/-- **A line feed after a text** makes no difference to its chunks in normal form, if it does not
make a line end with a carriage return before it. -/
theorem normalize_cut_lineFeed {t : Text} (h : t.getLast? ≠ some '\r') :
    normalize merge (cut allow (t ++ ['\n'])) = normalize merge (cut allow t) := by
  have htrimmed : trimmed (cut allow (t ++ ['\n'])) = trimmed (cut allow t) := by
    rcases Text.lines_lineFeed h with hlines | hlines
    · rw [cut_eq, hlines, cut_eq]
    · rw [cut_eq, hlines, List.map_append, newestFirst_append _ rfl]
      exact trimmed_addLine_empty allow _
  rw [normalize_eq, htrimmed, normalize_eq]

end Weave.Chunk
