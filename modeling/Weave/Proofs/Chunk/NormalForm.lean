import Weave.Proofs.Chunk.Edges

set_option autoImplicit false
set_option relaxedAutoImplicit false

/-!
# Chunks that are in normal form

Chunks are in normal form if each of them is tidy, if no indented line stands where a block of code
ends or after that, and, when blocks are merged, if only the last chunk is one that goes on. These
are exactly the chunks that normalizing leaves as they are. What it makes of any chunks is of this
form, so it does nothing the second time: the comments that a merged block has taken over give no
new reason for it to go on, and no block is left that goes on into a later chunk.

## Main definitions

* `Weave.Chunk.IsNormal` — chunks are in normal form.

## Main results

* `Weave.Chunk.isNormal_normalize` — normalizing brings chunks into normal form.
* `Weave.Chunk.normalize_eq_self_iff` — it leaves exactly those in normal form as they are.
* `Weave.Chunk.normalize_normalize` — normalizing twice is normalizing once.
-/

namespace Weave.Chunk

/-- **Chunks are in normal form.** -/
structure IsNormal (merge : Bool) (cs : List Chunk) : Prop where
  /-- Every chunk has lines, and neither the first nor the last of them is blank. -/
  tidy : ∀ c ∈ cs, c.IsTidy
  /-- A block that does not go on has no indented last line. -/
  ended : ∀ c ∈ cs, c.IsWellEnded
  /-- The code after the end of a block begins with no indented line. -/
  margin : EndsAtMargin cs
  /-- If blocks are merged, one that goes on is the last chunk. -/
  merged : merge = true → ∀ c ∈ cs.dropLast, c.isContinued = false

variable {merge : Bool} {cs : List Chunk}

/-! ## Normalizing brings chunks into normal form -/

/-- The next chunk of code begins at the margin if all chunks of code do. -/
lemma nextOpensIndented_eq_false
    (h : ∀ c ∈ cs.filter isCode, opensIndented c.codeLines = false) :
    nextOpensIndented cs = false := by
  induction cs with
  | nil => rfl
  | cons c cs ih =>
    cases c with
    | prose lines => exact ih h
    | code lines continuation => exact h _ List.mem_cons_self

/-- Blocks end at the margin if only the first chunk of code begins with an indented line. -/
lemma endsAtMargin_of_tail
    (h : ∀ c ∈ (cs.filter isCode).tail, opensIndented c.codeLines = false) : EndsAtMargin cs := by
  rintro before lines after rfl
  refine nextOpensIndented_eq_false fun c hc => h c ?_
  rw [List.filter_append, List.filter_cons_of_pos rfl]
  cases before.filter isCode with
  | nil => exact hc
  | cons d ds => exact List.mem_append_right ds (List.mem_cons_of_mem _ hc)

/-- **Blocks in normal form end at the margin**, whether they are merged or not. -/
lemma endsAtMargin_normalize (merge : Bool) (cs : List Chunk) :
    EndsAtMargin (normalize merge cs) := by
  have hmarked : EndsAtMargin (normalize false cs) := endsAtMargin_continueIndented _
  cases merge with
  | false => exact hmarked
  | true =>
    have hblocks : BlocksMerged (normalize false cs) (normalize true cs) := blocksMerged_iff.2 rfl
    exact endsAtMargin_of_tail
      (opensIndented_of_blocksMerged hblocks isTidy_of_mem_normalize_false hmarked)

/-- **Normalizing brings chunks into normal form.** -/
theorem isNormal_normalize (merge : Bool) (cs : List Chunk) :
    IsNormal merge (normalize merge cs) where
  tidy := isTidy_of_mem_normalize merge
  ended := isWellEnded_of_mem_normalize
  margin := endsAtMargin_normalize merge cs
  merged := by
    rintro rfl
    exact isContinued_of_blocksMerged (blocksMerged_iff.2 rfl)

/-! ## Normal form is left as it is -/

/-- **Tidy chunks** lose nothing when they are trimmed. -/
lemma trimmed_eq_self (h : ∀ c ∈ cs, c.IsTidy) : trimmed cs = cs := by
  have hblank (c : Chunk) (hc : c.IsTidy) : c.isBlank = false := by
    cases c with
    | prose lines => exact VisibleEnds.all_eq_false hc
    | code lines continuation => exact VisibleEnds.all_eq_false hc
  have htrim (c : Chunk) (hc : c.IsTidy) : c.trimBlank = c := by
    cases c with
    | prose lines => exact congrArg prose (VisibleEnds.trimList_eq_self hc)
    | code lines continuation =>
      exact congrArg (code · continuation) (VisibleEnds.trimList_eq_self hc)
  have hkept : cs.filter (fun c => !c.isBlank) = cs :=
    List.filter_eq_self.2 fun c hc => by rw [hblank c (h c hc), Bool.not_false]
  rw [trimmed, hkept]
  calc cs.map trimBlank = cs.map id := List.map_congr_left fun c hc => htrim c (h c hc)
    _ = cs := List.map_id cs

/-- **Blocks that end at the margin** are not marked as going on. -/
lemma continueIndented_eq_self (hended : ∀ c ∈ cs, c.IsWellEnded) (hmargin : EndsAtMargin cs) :
    continueIndented cs = cs := by
  induction cs with
  | nil => rfl
  | cons c cs ih =>
    rw [List.forall_mem_cons] at hended
    have hrest : continueIndented cs = cs := ih hended.2 (hmargin.of_append [c])
    rcases c with lines | ⟨lines, _ | _⟩
    · rw [continueIndented, hrest]
    · have hends : endsIndented lines = false := (hended.1.2 rfl).endsIndented_eq
      have hnext : nextOpensIndented cs = false := hmargin [] lines cs rfl
      rw [continueIndented, hends, hnext, hrest]
      rfl
    · rw [continueIndented, ite_self, hrest]

/-- Merging takes nothing together if at most the last chunk goes on. -/
lemma blocksMerged_self (h : ∀ c ∈ cs.dropLast, c.isContinued = false) : BlocksMerged cs cs := by
  induction cs with
  | nil => exact .nil
  | cons c cs ih =>
    cases cs with
    | nil =>
      cases hc : c.isContinued with
      | false => exact .alone hc .nil
      | true =>
        obtain ⟨lines, rfl⟩ := exists_eq_of_isContinued hc
        simpa using @BlocksMerged.unended lines [] (List.forall_mem_nil _)
    | cons d cs =>
      rw [List.dropLast_cons_cons, List.forall_mem_cons] at h
      exact .alone h.1 (ih h.2)

/-- **Normal form is left as it is.** -/
lemma IsNormal.normalize_eq_self (h : IsNormal merge cs) : normalize merge cs = cs := by
  rw [normalize_eq, trimmed_eq_self h.tidy, continueIndented_eq_self h.ended h.margin]
  cases merge with
  | false => rfl
  | true => exact blocksMerged_iff.1 (blocksMerged_self (h.merged rfl))

/-- **Which chunks normalizing leaves as they are**: those in normal form. -/
theorem normalize_eq_self_iff : normalize merge cs = cs ↔ IsNormal merge cs := by
  constructor
  · intro h
    rw [← h]
    exact isNormal_normalize merge cs
  · exact IsNormal.normalize_eq_self

/-- **Normalizing twice is normalizing once**, whether or not blocks are merged. -/
theorem normalize_normalize (merge : Bool) (cs : List Chunk) :
    normalize merge (normalize merge cs) = normalize merge cs :=
  normalize_eq_self_iff.2 (isNormal_normalize merge cs)

end Weave.Chunk
