import Mathlib.Data.List.Infix
import Weave.Filter.BlockComment
import Weave.Proofs.Text.Rows

set_option autoImplicit false
set_option relaxedAutoImplicit false

/-!
# Expanding block comments

Blocks are expanded one at a time until there is none left. What is left in the end follows from one
step: where the block is that is expanded, and what is lost with its two fences.

## Main definitions

* `Weave.BlockComment.HasBlock` — there is a block among rows.

## Main results

* `Weave.BlockComment.expandFirst?_eq_some` — what expanding one block does.
* `Weave.BlockComment.expand_eq_self` — a text without a block is left as it is.
* `Weave.BlockComment.count_expand_le`, `Weave.BlockComment.count_lineFeed_expand_lt` — expanding
  adds nothing but markers, and takes line feeds away.
-/

namespace Weave.BlockComment

/-- **There is a block** among rows: an opening row, at least one row, and a closing row. -/
def HasBlock (rows : List Text) : Prop :=
  ∃ before opener body closer after, rows = before ++ opener :: (body ++ closer :: after) ∧
    isOpener opener = true ∧ isCloser closer = true ∧ body ≠ []

/-! ## One step -/

/-- The first closing row is looked for. -/
lemma untilCloser?_eq_some {rows body rest : List Text}
    (h : untilCloser? rows = some (body, rest)) :
    ∃ closer, rows = body ++ closer :: rest ∧ isCloser closer = true := by
  induction rows generalizing body with
  | nil => simp [untilCloser?] at h
  | cons row rows ih =>
    rw [untilCloser?] at h
    split at h
    next hc =>
      simp only [Option.some.injEq, Prod.mk.injEq] at h
      obtain ⟨rfl, rfl⟩ := h
      exact ⟨row, rfl, hc⟩
    next =>
      simp only [Option.map_eq_some_iff, Prod.mk.injEq] at h
      obtain ⟨⟨b, r⟩, hb, rfl, rfl⟩ := h
      obtain ⟨closer, hrows, hc⟩ := ih hb
      exact ⟨closer, by rw [hrows, List.cons_append], hc⟩

/-- Rows with a closing row among them are cut at the first one. -/
lemma isSome_untilCloser? {rows : List Text} {closer : Text} (hmem : closer ∈ rows)
    (hc : isCloser closer = true) : (untilCloser? rows).isSome := by
  induction rows with
  | nil => cases hmem
  | cons row rows ih =>
    rw [untilCloser?]
    split
    next => rfl
    next hrow =>
      rw [Option.isSome_map]
      refine ih ((List.mem_cons.1 hmem).resolve_left ?_)
      rintro rfl
      exact hrow hc

/-- The body of a block ends at a closing row and is not empty. -/
lemma body?_eq_some {rows body rest : List Text} (h : body? rows = some (body, rest)) :
    ∃ closer, rows = body ++ closer :: rest ∧ isCloser closer = true ∧ body ≠ [] := by
  cases rows with
  | nil => simp [body?] at h
  | cons row rows =>
    simp only [body?, Option.map_eq_some_iff, Prod.mk.injEq] at h
    obtain ⟨⟨b, r⟩, hb, rfl, rfl⟩ := h
    obtain ⟨closer, hrows, hc⟩ := untilCloser?_eq_some hb
    exact ⟨closer, by rw [hrows, List.cons_append], hc, by simp⟩

/-- **What expanding one block does**: the body is left as prose, and its fences are lost. -/
theorem expandFirst?_eq_some {rows rows' : List Text} (h : expandFirst? rows = some rows') :
    ∃ before opener body closer after, rows = before ++ opener :: (body ++ closer :: after) ∧
      isOpener opener = true ∧ isCloser closer = true ∧ body ≠ [] ∧
      rows' = before ++ (body.map asProse ++ after) := by
  induction rows generalizing rows' with
  | nil => simp [expandFirst?] at h
  | cons row rows ih =>
    rw [expandFirst?] at h
    split at h
    next body after hb =>
      split at hb
      next ho =>
        obtain ⟨closer, hrows, hc, hne⟩ := body?_eq_some hb
        refine ⟨[], row, body, closer, after, ?_, ho, hc, hne, (Option.some.inj h).symm⟩
        rw [hrows, List.nil_append]
      next => cases hb
    next =>
      obtain ⟨rows'', hr, rfl⟩ := Option.map_eq_some_iff.1 h
      obtain ⟨before, opener, body, closer, after, hrows, ho, hc, hne, hrows'⟩ := ih hr
      exact ⟨row :: before, opener, body, closer, after, by rw [hrows, List.cons_append], ho, hc,
        hne, by rw [hrows', List.cons_append]⟩

/-- **A block is found** exactly if there is one. -/
theorem isSome_expandFirst?_iff {rows : List Text} :
    (expandFirst? rows).isSome ↔ HasBlock rows := by
  constructor
  · intro h
    obtain ⟨rows', hr⟩ := Option.isSome_iff_exists.1 h
    obtain ⟨before, opener, body, closer, after, hrows, ho, hc, hne, -⟩ := expandFirst?_eq_some hr
    exact ⟨before, opener, body, closer, after, hrows, ho, hc, hne⟩
  · rintro ⟨before, opener, body, closer, after, rfl, ho, hc, hne⟩
    induction before with
    | nil =>
      obtain ⟨row, body, rfl⟩ := List.exists_cons_of_ne_nil hne
      have hmem : closer ∈ body ++ closer :: after := by simp
      obtain ⟨cut, hcut⟩ := Option.isSome_iff_exists.1 (isSome_untilCloser? hmem hc)
      simp [expandFirst?, ho, body?, hcut]
    | cons row before ih =>
      rw [List.cons_append, expandFirst?]
      split
      next => rfl
      next => rwa [Option.isSome_map]

/-! ## All blocks -/

/-- Rows without a block are left as they are. -/
lemma expandRows_of_none {rows : List Text} (h : expandFirst? rows = none) :
    expandRows rows = rows := by
  rw [expandRows]
  split
  next => rfl
  next rows' hr => exact absurd (hr.symm.trans h) (Option.some_ne_none rows')

/-- After the first block the other ones are expanded. -/
lemma expandRows_of_some {rows rows' : List Text} (h : expandFirst? rows = some rows') :
    expandRows rows = expandRows rows' := by
  rw [expandRows]
  split
  next hr => exact absurd (h.symm.trans hr) (Option.some_ne_none rows')
  next rows'' hr => rw [Option.some.inj (hr.symm.trans h)]

/-- **A text without a block** is left as it is. -/
theorem expand_eq_self {t : Text} (h : ¬ HasBlock (Text.rows t)) : expand t = t := by
  rw [← isSome_expandFirst?_iff, Option.not_isSome_iff_eq_none] at h
  rw [expand, expandRows_of_none h, Text.unrows_rows]

/-- How often a character occurs in rows that are put together. -/
lemma count_unrows (c : Char) (rs : List Text) :
    (Text.unrows rs).count c = rs.flatten.count c + if c = '\n' then rs.length - 1 else 0 := by
  induction rs with
  | nil => simp [Text.unrows, List.intercalate]
  | cons r rs ih =>
    cases rs with
    | nil => simp [Text.unrows_singleton]
    | cons r' rs =>
      rw [Text.unrows_cons r (List.cons_ne_nil r' rs), List.count_append, List.count_cons, ih,
        List.flatten_cons, List.count_append]
      by_cases hc : c = '\n'
      · simp [hc]
        omega
      · simp [hc, Ne.symm hc]

/-- A row of prose has no more than the row of the block but the marker. -/
lemma count_flatten_asProse {c : Char} (hc : c ∉ ['#', ' ']) (body : List Text) :
    (body.map asProse).flatten.count c = body.flatten.count c := by
  simp only [List.mem_cons, List.not_mem_nil, or_false, not_or] at hc
  induction body with
  | nil => rfl
  | cons row body ih =>
    have hrow : (asProse row).count c = row.count c := by
      simp [asProse, Ne.symm hc.1, Ne.symm hc.2]
    rw [List.map_cons, List.flatten_cons, List.flatten_cons, List.count_append, List.count_append,
      hrow, ih]

/-- One step adds nothing but markers, and takes two line feeds away. -/
lemma count_unrows_expandFirst? {rows rows' : List Text} (h : expandFirst? rows = some rows')
    {c : Char} (hc : c ∉ ['#', ' ']) :
    (Text.unrows rows').count c + (if c = '\n' then 2 else 0) ≤ (Text.unrows rows).count c := by
  have hlength := length_expandFirst? h
  obtain ⟨before, opener, body, closer, after, rfl, -, -, hne, rfl⟩ := expandFirst?_eq_some h
  have hpos : 0 < body.length := List.length_pos_iff.2 hne
  simp only [List.length_append, List.length_map, List.length_cons] at hlength
  simp only [count_unrows, List.flatten_append, List.flatten_cons, List.count_append,
    count_flatten_asProse hc, List.length_append, List.length_map, List.length_cons]
  split <;> omega

/-- Expanding all blocks among rows adds nothing but markers. -/
lemma count_unrows_expandRows_le {c : Char} (hc : c ∉ ['#', ' ']) (rows : List Text) :
    (Text.unrows (expandRows rows)).count c ≤ (Text.unrows rows).count c := by
  induction rows using expandRows.induct with
  | case1 rows h => rw [expandRows_of_none h]
  | case2 rows rows' h ih =>
    have hstep := count_unrows_expandFirst? h hc
    rw [expandRows_of_some h]
    omega

/-- **Expanding adds nothing** but markers. -/
theorem count_expand_le {c : Char} (hc : c ∉ ['#', ' ']) (t : Text) :
    (expand t).count c ≤ t.count c := by
  have h := count_unrows_expandRows_le hc (Text.rows t)
  rwa [Text.unrows_rows] at h

/-- **Expanding takes line feeds away**, if there is a block. -/
theorem count_lineFeed_expand_lt {t : Text} (h : HasBlock (Text.rows t)) :
    (expand t).count '\n' < t.count '\n' := by
  obtain ⟨rows', hr⟩ := Option.isSome_iff_exists.1 (isSome_expandFirst?_iff.2 h)
  have hstep := count_unrows_expandFirst? hr (c := '\n') (by decide)
  have hrest := count_unrows_expandRows_le (c := '\n') (by decide) rows'
  rw [if_pos rfl, Text.unrows_rows] at hstep
  rw [expand, expandRows_of_some hr]
  omega

end Weave.BlockComment
