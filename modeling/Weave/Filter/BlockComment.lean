import Weave.Text.Lines

set_option autoImplicit false
set_option relaxedAutoImplicit false

/-!
# Block comments

A block comment stands between a line of a hash and equals signs and a line of equals signs and a
hash, with at least one line between them. It is expanded into lines of prose. Blocks are expanded
one at a time, the first one first, until there is none left.

## Main definitions

* `Weave.BlockComment.expandFirst?` — the rows of a text with the first block expanded.
* `Weave.BlockComment.expand` — a text with all blocks expanded.

## Main results

* `Weave.BlockComment.length_expandFirst?` — expanding a block makes the text two rows shorter.
-/

namespace Weave.BlockComment

/-- A row that opens a block: a hash and one or more equals signs. -/
def isOpener : Text → Bool
  | '#' :: '=' :: more => more.all (· == '=')
  | _ => false

/-- A row that closes a block: one or more equals signs and a hash. -/
def isCloser (row : Text) : Bool :=
  isOpener row.reverse

/-- A row of a block as a line of prose. -/
def asProse (row : Text) : Text :=
  "# ".toList ++ row

/-- The rows before the first closing row, and the rows after it. -/
def untilCloser? : List Text → Option (List Text × List Text)
  | [] => none
  | row :: rows =>
    if isCloser row then some ([], rows)
    else (untilCloser? rows).map fun (body, rest) => (row :: body, rest)

/-- The body of a block, which is never empty, and the rows after its closing row. -/
def body? : List Text → Option (List Text × List Text)
  | [] => none
  | row :: rows => (untilCloser? rows).map fun (body, rest) => (row :: body, rest)

/-- The rows of a text with the first block expanded, if there is a block. -/
def expandFirst? : List Text → Option (List Text)
  | [] => none
  | row :: rows =>
    match if isOpener row then body? rows else none with
    | some (body, rest) => some (body.map asProse ++ rest)
    | none => (expandFirst? rows).map (row :: ·)

/-- The rows before the first closer, the closer, and the rows after it are all of the rows. -/
theorem length_untilCloser? {rows body rest : List Text}
    (h : untilCloser? rows = some (body, rest)) : body.length + rest.length + 1 = rows.length := by
  induction rows generalizing body rest with
  | nil => simp [untilCloser?] at h
  | cons row rows ih =>
    rw [untilCloser?] at h
    split at h
    · simp only [Option.some.injEq, Prod.mk.injEq] at h
      simp [← h.1, ← h.2]
    · simp only [Option.map_eq_some_iff, Prod.mk.injEq] at h
      obtain ⟨⟨b, r⟩, hb, hbody, hrest⟩ := h
      have := ih hb
      simp only at hrest
      simp only [← hbody, ← hrest, List.length_cons]
      omega

/-- The body of a block, its closing row, and the rows after it are all of the rows. -/
theorem length_body? {rows body rest : List Text} (h : body? rows = some (body, rest)) :
    body.length + rest.length + 1 = rows.length := by
  cases rows with
  | nil => simp [body?] at h
  | cons row rows =>
    simp only [body?, Option.map_eq_some_iff, Prod.mk.injEq] at h
    obtain ⟨⟨b, r⟩, hb, hbody, hrest⟩ := h
    have := length_untilCloser? hb
    simp only at hrest
    simp only [← hbody, ← hrest, List.length_cons]
    omega

/-- **Expanding a block** makes the text two rows shorter. -/
theorem length_expandFirst? {rows rows' : List Text} (h : expandFirst? rows = some rows') :
    rows'.length + 2 = rows.length := by
  induction rows generalizing rows' with
  | nil => simp [expandFirst?] at h
  | cons row rows ih =>
    rw [expandFirst?] at h
    split at h
    next body rest hb =>
      split at hb
      · have := length_body? hb
        simp only [Option.some.injEq] at h
        subst h
        simp only [List.length_append, List.length_map, List.length_cons]
        omega
      · simp at hb
    next =>
      simp only [Option.map_eq_some_iff] at h
      obtain ⟨r, hr, rfl⟩ := h
      have := ih hr
      simp only [List.length_cons]
      omega

/-- The rows of a text with all blocks expanded. -/
def expandRows (rows : List Text) : List Text :=
  match _h : expandFirst? rows with
  | none => rows
  | some rows' => expandRows rows'
termination_by rows.length
decreasing_by
  have := length_expandFirst? _h
  omega

/-- **A text with all blocks expanded.** -/
def expand (t : Text) : Text :=
  Text.unrows (expandRows (Text.rows t))

end Weave.BlockComment
