import Weave.Proofs.Chunk.Conservation
import Weave.Proofs.Chunk.Tail

set_option autoImplicit false
set_option relaxedAutoImplicit false

/-!
# Blocks that are merged

A block of code goes on in normal form if it was said to, or if an indented line stands where it is
broken off. Merging makes one chunk of it, from the chunk that it begins with to the next chunk of
code that does not go on, and leaves everything else as it is.

## Main definitions

* `Weave.Chunk.codeLines`, `Weave.Chunk.nextLine?` — the lines of code of a chunk, and the first
  line of the next chunk of code.
* `Weave.Chunk.BlocksMerged` — what merging makes of chunks, block by block.

## Main results

* `Weave.Chunk.getElem?_continueIndented` — which chunks of code go on.
* `Weave.Chunk.blocksMerged_iff` — merging makes exactly that of the chunks.
* `Weave.Chunk.normalize_merges_blocks` — both for chunks in normal form.
-/

namespace Weave.Chunk

/-! ## Blocks -/

/-- The lines of code of a chunk. -/
def codeLines : Chunk → List Text
  | prose _ => []
  | code lines _ => lines

/-- The first line of the next chunk of code. -/
def nextLine? (cs : List Chunk) : Option Text :=
  (cs.find? isCode).bind fun c => c.codeLines.head?

/-- Whether a block of code ends with the chunk. -/
def endsBlock : Chunk → Bool
  | code _ .terminated => true
  | _ => false

/-- **What merging makes of chunks.** A chunk of code that goes on is merged with the chunks up to
the one that ends the block, or with all that are left if there is none; prose becomes comments.
Other chunks stay as they are. -/
inductive BlocksMerged : List Chunk → List Chunk → Prop
  | nil : BlocksMerged [] []
  | alone {c : Chunk} {cs ds : List Chunk} (hc : c.isContinued = false)
      (rest : BlocksMerged cs ds) : BlocksMerged (c :: cs) (c :: ds)
  | ended {lines more : List Text} {inner cs ds : List Chunk}
      (hinner : ∀ c ∈ inner, c.endsBlock = false) (rest : BlocksMerged cs ds) :
      BlocksMerged (code lines .continued :: (inner ++ code more .terminated :: cs))
        (code (lines ++ inner.flatMap sourceLines ++ more) .terminated :: ds)
  | unended {lines : List Text} {inner : List Chunk} (hinner : ∀ c ∈ inner, c.endsBlock = false) :
      BlocksMerged (code lines .continued :: inner)
        [code (lines ++ inner.flatMap sourceLines) .continued]

variable {cs ds : List Chunk}

/-- A chunk that ends a block is code that does not go on. -/
lemma exists_eq_of_endsBlock {c : Chunk} (h : c.endsBlock = true) :
    ∃ lines, c = code lines .terminated := by
  rcases c with lines | ⟨lines, _ | _⟩
  · cases h
  · exact ⟨lines, rfl⟩
  · cases h

/-- A chunk that goes on is code. -/
lemma exists_eq_of_isContinued {c : Chunk} (h : c.isContinued = true) :
    ∃ lines, c = code lines .continued := by
  rcases c with lines | ⟨lines, _ | _⟩
  · cases h
  · cases h
  · exact ⟨lines, rfl⟩

/-! ## Merging -/

/-- While no block is open, a chunk is put before the others, and opens a block if it goes on. -/
lemma add_of_closed (newest : List Chunk) (c : Chunk) :
    Merging.add { newest, isOpen := false } c =
      { newest := c :: newest, isOpen := c.isContinued } := by
  rcases c with lines | ⟨lines, _ | _⟩ <;> rfl

/-- **An open block** takes over the chunks that do not end it. -/
lemma foldl_add_of_open {inner : List Chunk} (h : ∀ c ∈ inner, c.endsBlock = false)
    (lines : List Text) (newest : List Chunk) :
    inner.foldl Merging.add { newest := code lines .continued :: newest, isOpen := true } =
      { newest := code (lines ++ inner.flatMap sourceLines) .continued :: newest,
        isOpen := true } := by
  induction inner generalizing lines with
  | nil => rw [List.foldl_nil, List.flatMap_nil, List.append_nil]
  | cons c inner ih =>
    rw [List.forall_mem_cons] at h
    have hadd : Merging.add { newest := code lines .continued :: newest, isOpen := true } c =
        { newest := code (lines ++ c.sourceLines) .continued :: newest, isOpen := true } := by
      rcases c with ls | ⟨ls, _ | _⟩
      · rfl
      · cases h.1
      · rfl
    rw [List.foldl_cons, hadd, ih h.2, List.flatMap_cons, List.append_assoc]

/-- The chunks are taken in block by block. -/
lemma BlocksMerged.newest_foldl_add (h : BlocksMerged cs ds) (newest : List Chunk) :
    (cs.foldl Merging.add { newest, isOpen := false }).newest = ds.reverse ++ newest := by
  induction h generalizing newest with
  | nil => rfl
  | alone hc rest ih =>
    rw [List.foldl_cons, add_of_closed, hc, ih, List.reverse_cons, List.append_assoc,
      List.singleton_append]
  | ended hinner rest ih =>
    rw [List.foldl_cons, add_of_closed, isContinued, List.foldl_append, foldl_add_of_open hinner,
      List.foldl_cons]
    refine (ih _).trans ?_
    rw [List.reverse_cons, List.append_assoc _ [_], List.singleton_append]
  | unended hinner =>
    rw [List.foldl_cons, add_of_closed, isContinued, foldl_add_of_open hinner]
    rfl

/-- Every list of chunks consists of blocks and other chunks.

**Proof sketch.** Strong induction on the number of chunks. A chunk that goes on begins a block,
which is cut at the first chunk that ends it, if there is one. -/
lemma exists_blocksMerged (cs : List Chunk) : ∃ ds, BlocksMerged cs ds := by
  induction hn : cs.length using Nat.strongRecOn generalizing cs with
  | ind n ih =>
    cases cs with
    | nil => exact ⟨[], .nil⟩
    | cons c cs =>
      rw [List.length_cons] at hn
      cases hc : c.isContinued with
      | false =>
        obtain ⟨ds, hds⟩ := ih cs.length (by omega) cs rfl
        exact ⟨c :: ds, .alone hc hds⟩
      | true =>
        obtain ⟨lines, rfl⟩ := exists_eq_of_isContinued hc
        cases hlast : cs.find? endsBlock with
        | none => exact ⟨_, .unended fun d hd => by simpa using List.find?_eq_none.1 hlast d hd⟩
        | some d =>
          obtain ⟨hd, inner, after, rfl, hinner⟩ := List.find?_eq_some_iff_append.1 hlast
          obtain ⟨more, rfl⟩ := exists_eq_of_endsBlock hd
          obtain ⟨ds, hds⟩ := ih after.length (by simp at hn; omega) after rfl
          exact ⟨_, .ended (fun e he => by simpa using hinner e he) hds⟩

/-- **Merging** makes of the chunks what is said of them, block by block, and nothing else can be
said. -/
theorem blocksMerged_iff : BlocksMerged cs ds ↔ mergeContinued cs = ds := by
  have hmerge {ds : List Chunk} (h : BlocksMerged cs ds) : mergeContinued cs = ds := by
    rw [mergeContinued, h.newest_foldl_add, List.append_nil, List.reverse_reverse]
  refine ⟨hmerge, ?_⟩
  rintro rfl
  obtain ⟨ds, hds⟩ := exists_blocksMerged cs
  exact hmerge hds ▸ hds

/-! ## Marks -/

/-- The next chunk of code begins with an indented line if its first line is indented. -/
lemma nextOpensIndented_iff (cs : List Chunk) :
    nextOpensIndented cs = true ↔ ∃ l, nextLine? cs = some l ∧ l.startsBlank = true := by
  induction cs with
  | nil => simp [nextOpensIndented, nextLine?]
  | cons c cs ih =>
    cases c with
    | prose lines => exact ih
    | code lines continuation =>
      have hnext : nextLine? (code lines continuation :: cs) = lines.head? := rfl
      rw [nextOpensIndented, opensIndented, hnext, Option.any_eq_true]

/-- Marking the code that is broken off does not change how the next chunk of code begins. -/
lemma nextOpensIndented_continueIndented (cs : List Chunk) :
    nextOpensIndented (continueIndented cs) = nextOpensIndented cs := by
  induction cs with
  | nil => rfl
  | cons c cs ih =>
    cases c with
    | prose lines => exact ih
    | code lines continuation => rfl

/-- Whether code is broken off is seen at the chunks that come after it. -/
lemma drop_continueIndented (n : Nat) (cs : List Chunk) :
    (continueIndented cs).drop n = continueIndented (cs.drop n) := by
  induction cs generalizing n with
  | nil => simp [continueIndented]
  | cons c cs ih =>
    cases n with
    | zero => rfl
    | succ n => cases c <;> exact ih n

/-- **Which chunks of code go on**: those that did, and those that an indented line ends or
follows.

**Proof sketch.** Induction on the chunks. The chunk at the index is marked by what comes after it,
and whether that begins with an indented line does not depend on marks. -/
lemma getElem?_continueIndented {i : Nat} {lines : List Text} {continuation : Continuation}
    (h : (continueIndented cs)[i]? = some (code lines continuation)) :
    ∃ before, cs[i]? = some (code lines before) ∧
      (continuation = .continued ↔ before = .continued ∨ endsIndented lines = true ∨
        nextOpensIndented ((continueIndented cs).drop (i + 1)) = true) := by
  induction cs generalizing i with
  | nil => simp [continueIndented] at h
  | cons c cs ih =>
    cases i with
    | succ i => cases c <;> exact ih h
    | zero =>
      cases c with
      | prose _ => simp [continueIndented] at h
      | code ls k =>
        simp only [continueIndented, List.getElem?_cons_zero, Option.some.injEq, code.injEq] at h
        obtain ⟨rfl, rfl⟩ := h
        refine ⟨k, rfl, ?_⟩
        rw [drop_continueIndented, nextOpensIndented_continueIndented, List.drop_succ_cons,
          List.drop_zero, ← Bool.or_eq_true]
        split
        next hgoesOn => simp [hgoesOn]
        next hends => simp [hends]

/-! ## Normal form -/

/-- **Blocks in normal form.** Without merging, a chunk of code goes on if it did among the chunks
that are not blank, or if its last line or the first line of the next chunk of code is indented.
With merging, the chunks are these, every block being merged into one.

**Proof sketch.** A chunk at an index comes from the one at this index that is not blank
(`getElem?_continueIndented`), trimmed and marked by its own last line and the next line of code.
That the blocks are merged is another way to say what merging makes (`blocksMerged_iff`). -/
theorem normalize_merges_blocks (cs : List Chunk) :
    (∀ (i : Nat) (lines : List Text) (continuation : Continuation),
      (normalize false cs)[i]? = some (code lines continuation) →
        ∃ untrimmed before,
          (cs.filter fun c => !c.isBlank)[i]? = some (code untrimmed before) ∧
          lines = trimList List.isEmpty untrimmed ∧
          (continuation = .continued ↔ before = .continued ∨
            (∃ l, lines.getLast? = some l ∧ l.startsBlank = true) ∨
            ∃ l, nextLine? ((normalize false cs).drop (i + 1)) = some l ∧
              l.startsBlank = true)) ∧
      ∀ ds, BlocksMerged (normalize false cs) ds ↔ normalize true cs = ds := by
  constructor
  · intro i lines continuation h
    obtain ⟨before, hbefore, hgoesOn⟩ := getElem?_continueIndented h
    rw [nextOpensIndented_iff, endsIndented, Option.any_eq_true] at hgoesOn
    rw [List.getElem?_map, Option.map_eq_some_iff] at hbefore
    obtain ⟨c, hc, htrim⟩ := hbefore
    cases c with
    | prose _ => cases htrim
    | code untrimmed _ =>
      cases htrim
      exact ⟨untrimmed, before, hc, rfl, hgoesOn⟩
  · intro ds
    exact blocksMerged_iff

/-- A loop whose body is broken off by prose. -/
theorem normalize_merges_blocks_brokenLoop :
    let cs := [code ["loop".toList, []] .terminated, prose [⟨[], "next".toList⟩],
      code [" body".toList] .terminated, code ["end".toList] .terminated]
    (∃ l, nextLine? ((normalize false cs).drop 1) = some l ∧ l.startsBlank = true) ∧
      normalize true cs =
        [code ["loop".toList, "# next".toList, " body".toList, "end".toList] .terminated] := by
  intro cs
  have hnormal : (normalize false cs)[0]? = some (code ["loop".toList] .continued) := by decide
  obtain ⟨hmarks, hmerged⟩ := normalize_merges_blocks cs
  constructor
  · obtain ⟨untrimmed, before, hcs, -, hgoesOn⟩ := hmarks 0 _ _ hnormal
    have hbefore : before = .terminated := by
      cases hcs
      rfl
    rcases hgoesOn.1 rfl with h | ⟨l, hl, hblank⟩ | h
    · exact absurd (hbefore.symm.trans h) (by decide)
    · cases hl
      exact absurd hblank (by decide)
    · exact h
  · have hinner : ∀ c ∈ [prose [⟨[], "next".toList⟩], code [" body".toList] .continued],
        c.endsBlock = false := by decide
    exact (hmerged _).1 (.ended hinner .nil)

end Weave.Chunk
