import Weave.Proofs.Chunk.Tail
import Weave.Proofs.Text.Trimming

set_option autoImplicit false
set_option relaxedAutoImplicit false

/-!
# How blocks of code end in normal form

A chunk of code in normal form is not empty, and its last line is not. If the last line begins with
a blank, the block goes on. So a block that does not go on ends in a line that begins with something
visible, and the blanks at the end of the block all stand in this line.

## Main definitions

* `Weave.Chunk.EndsUnindented` — the last of some lines begins with a visible character.
* `Weave.Chunk.IsWellEnded` — a chunk of code ends as it does in normal form.

## Main results

* `Weave.Chunk.isWellEnded_of_mem_normalize` — how chunks end in normal form.
* `Weave.Chunk.lineFeed_not_mem_blanks` — the blanks at the end of a block.
-/

namespace Weave.Chunk

/-- **The last line begins with a visible character.** -/
def EndsUnindented (lines : List Text) : Prop :=
  ∃ before d rest, lines = before ++ [d :: rest] ∧ Weave.isBlank d = false

/-- **A chunk of code ends** as it does in normal form: it has lines, and it goes on if the last one
is indented. -/
def IsWellEnded : Chunk → Prop
  | prose _ => True
  | code lines continuation =>
    lines ≠ [] ∧ (continuation = .terminated → EndsUnindented lines)

/-! ## Blank lines -/

/-- What is left of a list ends with an element that is not of the class, if there is one. -/
lemma exists_trimList_eq_concat {α : Type} {p : α → Bool} {l : List α} (h : l.all p = false) :
    ∃ before a, trimList p l = before ++ [a] ∧ p a = false := by
  obtain ⟨a, ha, hpa⟩ := List.all_eq_false.1 h
  have hdrop (l : List α) (ha : a ∈ l) : a ∈ l.dropWhile p := by
    rw [← List.takeWhile_append_dropWhile (p := p) (l := l), List.mem_append] at ha
    exact ha.resolve_left fun htake => hpa (List.mem_takeWhile_imp htake)
  have hmem : a ∈ (l.dropWhile p).reverse.dropWhile p :=
    hdrop _ (List.mem_reverse.2 (hdrop l ha))
  obtain ⟨b, more, hmore⟩ := List.exists_cons_of_ne_nil (List.ne_nil_of_mem hmem)
  refine ⟨more.reverse, b, ?_, ?_⟩
  · rw [trimList, hmore, List.reverse_cons]
  · have hhead := List.head?_dropWhile_not p (l.dropWhile p).reverse
    rw [hmore] at hhead
    simpa using hhead

/-- A chunk of code that is not blank ends in a line that is not empty. -/
lemma exists_line_of_mem_trimmed {cs : List Chunk} {lines : List Text}
    {continuation : Continuation} (h : code lines continuation ∈ trimmed cs) :
    ∃ before d rest, lines = before ++ [d :: rest] := by
  rw [trimmed, List.mem_map] at h
  obtain ⟨c, hc, htrim⟩ := h
  have hblank : c.isBlank = false := by simpa using (List.mem_filter.1 hc).2
  cases c with
  | prose _ => cases htrim
  | code ls _ =>
    cases htrim
    obtain ⟨before, l, hl, hempty⟩ := exists_trimList_eq_concat hblank
    cases l with
    | nil => cases hempty
    | cons d rest => exact ⟨before, d, rest, hl⟩

/-! ## Blocks that are broken off -/

/-- **Code that is broken off** at an indented line goes on. -/
lemma isWellEnded_of_mem_continueIndented {cs : List Chunk}
    (h : ∀ lines continuation, code lines continuation ∈ cs →
      ∃ before d rest, lines = before ++ [d :: rest]) :
    ∀ c ∈ continueIndented cs, c.IsWellEnded := by
  induction cs with
  | nil => exact List.forall_mem_nil _
  | cons c cs ih =>
    have hrest := ih fun lines continuation hmem =>
      h lines continuation (List.mem_cons_of_mem c hmem)
    cases c with
    | prose lines => exact List.forall_mem_cons.2 ⟨trivial, hrest⟩
    | code lines continuation =>
      obtain ⟨before, d, rest, hlines⟩ := h lines continuation List.mem_cons_self
      rw [continueIndented, List.forall_mem_cons]
      refine ⟨⟨by simp [hlines], fun hterminated => ⟨before, d, rest, hlines, ?_⟩⟩, hrest⟩
      by_contra hd
      have hindented : endsIndented lines = true := by
        simpa [endsIndented, hlines, Text.startsBlank] using hd
      rw [hindented, Bool.true_or, if_pos rfl] at hterminated
      cases hterminated

/-! ## Merged blocks -/

/-- Lines before do not change how lines end. -/
lemma EndsUnindented.append {more : List Text} (h : EndsUnindented more) (lines : List Text) :
    EndsUnindented (lines ++ more) := by
  obtain ⟨before, d, rest, rfl, hd⟩ := h
  exact ⟨lines ++ before, d, rest, (List.append_assoc _ _ _).symm, hd⟩

/-- **A chunk that is taken in** leaves chunks that end well. -/
lemma isWellEnded_add {m : Merging} (hopen : m.isOpen = m.newest.head?.any isContinued)
    (h : ∀ c ∈ m.newest, c.IsWellEnded) {c : Chunk} (hc : c.IsWellEnded) :
    ∀ d ∈ (m.add c).newest, d.IsWellEnded := by
  obtain ⟨newest, isOpen⟩ := m
  unfold Merging.add
  dsimp only at h hopen ⊢
  split
  next lines continuation cs more =>
    rw [List.forall_mem_cons] at h ⊢
    have hcontinued : continuation = .continued := by
      cases continuation with
      | continued => rfl
      | terminated => cases hopen
    refine ⟨⟨fun hnil => h.1.1 (List.append_eq_nil_iff.1 hnil).1, fun hterminated => ?_⟩, h.2⟩
    rw [hcontinued] at hterminated
    cases hterminated
  next lines continuation cs more continuation' =>
    rw [List.forall_mem_cons] at h ⊢
    exact ⟨⟨fun hnil => h.1.1 (List.append_eq_nil_iff.1 hnil).1,
      fun hterminated => (hc.2 hterminated).append lines⟩, h.2⟩
  next => exact List.forall_mem_cons.2 ⟨hc, h⟩

/-- **How chunks end in normal form.** -/
theorem isWellEnded_of_mem_normalize {merge : Bool} {cs : List Chunk} :
    ∀ c ∈ normalize merge cs, c.IsWellEnded := by
  have hmarked : ∀ c ∈ continueIndented (trimmed cs), c.IsWellEnded :=
    isWellEnded_of_mem_continueIndented fun _ _ => exists_line_of_mem_trimmed
  cases merge with
  | false => exact hmarked
  | true =>
    have hfold (ds : List Chunk) (m : Merging) (hds : ∀ c ∈ ds, c.IsWellEnded)
        (hopen : m.isOpen = m.newest.head?.any isContinued)
        (h : ∀ c ∈ m.newest, c.IsWellEnded) :
        ∀ c ∈ (ds.foldl Merging.add m).newest, c.IsWellEnded := by
      induction ds generalizing m with
      | nil => exact h
      | cons d ds ih =>
        rw [List.forall_mem_cons] at hds
        exact ih _ hds.2 (isOpen_add hopen d) (isWellEnded_add hopen h hds.1)
    intro c hc
    exact hfold _ _ hmarked rfl (List.forall_mem_nil _) c (List.mem_reverse.1 hc)

/-! ## Blanks at the end -/

/-- The last of some rows stands at the end. -/
lemma exists_unrows_concat (rows : List Text) (row : Text) :
    ∃ a, Text.unrows (rows ++ [row]) = a ++ row := by
  refine ⟨Text.writeLines rows, ?_⟩
  rw [Text.unrows_append_eq_writeLines rows (List.cons_ne_nil row []), Text.unrows_singleton]

/-- **The blanks at the end of a block** that does not go on hold no line feed, if no line of the
block does.

**Proof sketch.** A line of the block has a character that is no blank, and no line comes after it.
The blanks at the end do not reach back to this character, and the rest of its line holds no line
feed. -/
theorem lineFeed_not_mem_blanks {lines : List Text} (h : EndsUnindented lines)
    (hlines : ∀ l ∈ lines, '\n' ∉ l) {body z : Text} (hbody : body ++ z = Text.unrows lines)
    (hz : ∀ d ∈ z, Weave.isBlank d = true) : '\n' ∉ z := by
  obtain ⟨before, d, rest, rfl, hd⟩ := h
  have hrest : '\n' ∉ rest := fun hmem =>
    hlines (d :: rest) (by simp) (List.mem_cons_of_mem d hmem)
  have hvisible : d ∉ z := fun hmem => by
    rw [hz d hmem] at hd
    cases hd
  obtain ⟨a, ha⟩ := exists_unrows_concat before (d :: rest)
  rw [ha] at hbody
  rcases List.append_eq_append_iff.1 hbody with ⟨b, rfl, rfl⟩ | ⟨b, rfl, hb⟩
  · exact absurd (List.mem_append_right b List.mem_cons_self) hvisible
  · cases b with
    | nil =>
      rw [List.nil_append] at hb
      exact absurd (hb ▸ List.mem_cons_self) hvisible
    | cons e b =>
      obtain ⟨-, rfl⟩ := List.cons.inj hb
      exact fun hmem => hrest (List.mem_append_right b hmem)

end Weave.Chunk
