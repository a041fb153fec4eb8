import Weave.Proofs.Text.Trimming
import Weave.Text.Lines

set_option autoImplicit false
set_option relaxedAutoImplicit false

/-!
# Rows and lines

A line feed divides the rows of a text into those before it and those after it, and everything about
rows follows from this. The lines of a text are its rows without the carriage returns at their ends
and without an empty row in last place; what does not look at these sees the same in both.

## Main results

* `Weave.Text.row_induction` — a text is a row alone, or a row, a line feed and a text.
* `Weave.Text.rows_append` — the rows of two texts with a line feed between them.
* `Weave.Text.unrows_append_eq_writeLines`, `Weave.Text.unrows_append_eq_flatMap` — rows before and
  after other rows.
* `Weave.Text.filterMap_lines` — lines and rows hold the same for whoever overlooks line ends.
* `Weave.Text.rows_writeLines` — lines that are written one after another are read again.
-/

namespace Weave.Text

/-! ## Fields -/

/-- **A mark divides** the fields. -/
lemma fields_append (mark : Char) (a b : Text) :
    fields mark (a ++ mark :: b) = fields mark a ++ fields mark b := by
  induction a with
  | nil => simp [fields]
  | cons c a ih =>
    rw [List.cons_append, fields, fields, ih]
    by_cases h : c = mark
    · simp [h]
    · simp only [h, if_false]
      cases hf : fields mark a with
      | nil => exact absurd hf (fields_ne_nil mark a)
      | cons r rs => rfl

/-- A text without the mark is a single field. -/
lemma fields_eq_singleton {mark : Char} {a : Text} (h : mark ∉ a) : fields mark a = [a] := by
  induction a with
  | nil => rfl
  | cons c a ih =>
    simp only [List.mem_cons, not_or] at h
    rw [fields, if_neg (Ne.symm h.1), ih h.2]

/-- **Fields are read again** if the mark is put between them and in none of them. -/
lemma fields_intercalate {mark : Char} {fs : List Text} (h : ∀ f ∈ fs, mark ∉ f) (hne : fs ≠ []) :
    fields mark (List.intercalate [mark] fs) = fs := by
  induction fs with
  | nil => exact absurd rfl hne
  | cons f fs ih =>
    rw [List.forall_mem_cons] at h
    cases fs with
    | nil => simpa using fields_eq_singleton h.1
    | cons g fs =>
      have hcons : List.intercalate [mark] (f :: g :: fs) =
          f ++ mark :: List.intercalate [mark] (g :: fs) := by
        simp [List.intercalate]
      rw [hcons, fields_append, fields_eq_singleton h.1, ih h.2 (List.cons_ne_nil g fs),
        List.singleton_append]

/-- No field holds the mark. -/
lemma not_mem_of_mem_fields {mark : Char} {t f : Text} (h : f ∈ fields mark t) : mark ∉ f := by
  induction t generalizing f with
  | nil =>
    rw [fields, List.mem_singleton] at h
    exact h ▸ List.not_mem_nil
  | cons c t ih =>
    rw [fields] at h
    split at h
    next =>
      rcases List.mem_cons.1 h with rfl | h
      · exact List.not_mem_nil
      · exact ih h
    next hc =>
      split at h
      next heq => exact absurd heq (fields_ne_nil mark t)
      next r rs heq =>
        rw [heq] at ih
        rcases List.mem_cons.1 h with rfl | h
        · rw [List.mem_cons, not_or]
          exact ⟨Ne.symm hc, ih List.mem_cons_self⟩
        · exact ih (List.mem_cons_of_mem r h)

/-! ## Rows -/

/-- **A line feed divides** the rows. -/
lemma rows_append (a b : Text) : rows (a ++ '\n' :: b) = rows a ++ rows b :=
  fields_append '\n' a b

/-- A text without line feeds is a single row. -/
lemma rows_eq_singleton {a : Text} (h : '\n' ∉ a) : rows a = [a] :=
  fields_eq_singleton h

/-- A first row with its line feed, and the rows after it. -/
lemma rows_cons {a : Text} (h : '\n' ∉ a) (b : Text) : rows (a ++ '\n' :: b) = a :: rows b := by
  rw [rows_append, rows_eq_singleton h, List.singleton_append]

/-- Every text has a row at least. -/
lemma rows_ne_nil (t : Text) : rows t ≠ [] :=
  fields_ne_nil '\n' t

/-- **Rows are read again** from the text that they make up. -/
lemma rows_unrows {rs : List Text} (h : ∀ r ∈ rs, '\n' ∉ r) (hne : rs ≠ []) :
    rows (unrows rs) = rs :=
  fields_intercalate h hne

/-- **A text is a row** alone, or a row, a line feed and a text. -/
@[elab_as_elim]
theorem row_induction {motive : Text → Prop} (last : ∀ a, '\n' ∉ a → motive a)
    (row : ∀ a b, '\n' ∉ a → motive b → motive (a ++ '\n' :: b)) (t : Text) : motive t := by
  induction hn : t.length using Nat.strongRecOn generalizing t with
  | ind n ih =>
    by_cases h : '\n' ∈ t
    · obtain ⟨a, b, hab, ha⟩ := List.eq_append_cons_of_mem h
      subst hab
      refine row a b ha (ih b.length ?_ b rfl)
      rw [← hn, List.length_append, List.length_cons]
      omega
    · exact last t h

/-! ## Rows that are put together -/

/-- A single row is a text of its own. -/
lemma unrows_singleton (r : Text) : unrows [r] = r := by
  simp [unrows, List.intercalate]

/-- A first row is put in front of other rows. -/
lemma unrows_cons (r : Text) {rs : List Text} (h : rs ≠ []) :
    unrows (r :: rs) = r ++ '\n' :: unrows rs := by
  obtain ⟨r', rs, rfl⟩ := List.exists_cons_of_ne_nil h
  simp [unrows, List.intercalate]

/-- **Rows after a first row** have a line feed in front of each. -/
lemma unrows_cons_eq_flatMap (r : Text) (rs : List Text) :
    unrows (r :: rs) = r ++ rs.flatMap ('\n' :: ·) := by
  induction rs generalizing r with
  | nil => rw [unrows_singleton, List.flatMap_nil, List.append_nil]
  | cons r' rs ih =>
    rw [unrows_cons r (List.cons_ne_nil r' rs), ih, List.flatMap_cons, List.cons_append]

/-- Rows after other rows have a line feed in front of each. -/
lemma unrows_append_eq_flatMap {rs : List Text} (hrs : rs ≠ []) (fs : List Text) :
    unrows (rs ++ fs) = unrows rs ++ fs.flatMap ('\n' :: ·) := by
  obtain ⟨r, rs, rfl⟩ := List.exists_cons_of_ne_nil hrs
  rw [List.cons_append, unrows_cons_eq_flatMap, unrows_cons_eq_flatMap, List.flatMap_append,
    List.append_assoc]

/-- **Rows before other rows** are lines that are written in front of them. -/
lemma unrows_append_eq_writeLines (rs : List Text) {fs : List Text} (hfs : fs ≠ []) :
    unrows (rs ++ fs) = writeLines rs ++ unrows fs := by
  induction rs with
  | nil => rfl
  | cons r rs ih =>
    have hrest : rs ++ fs ≠ [] := List.append_ne_nil_of_right_ne_nil rs hfs
    rw [List.cons_append, unrows_cons r hrest, ih]
    simp [writeLines]

/-- More rows are no shorter. -/
lemma length_unrows_le {rs rs' : List Text} (h : rs <+: rs') (hne : rs ≠ []) :
    (unrows rs).length ≤ (unrows rs').length := by
  obtain ⟨more, rfl⟩ := h
  rw [unrows_append_eq_flatMap hne, List.length_append]
  exact Nat.le_add_right _ _

/-- More lines are longer. -/
lemma length_writeLines_lt {ls ls' : List Text} (h : ls <+: ls') (hlt : ls.length < ls'.length) :
    (writeLines ls).length < (writeLines ls').length := by
  obtain ⟨more, rfl⟩ := h
  cases more with
  | nil => simp at hlt
  | cons l more =>
    simp only [writeLines, List.flatMap_append, List.flatMap_cons, List.length_append,
      List.length_singleton]
    omega

/-! ## Lines -/

/-- A first row with its line feed is a piece. -/
lemma pieces_cons {a : Text} (h : '\n' ∉ a) (b : Text) :
    pieces (a ++ '\n' :: b) = (a ++ ['\n']) :: pieces b := by
  induction a with
  | nil => simp [pieces]
  | cons c a ih =>
    simp only [List.mem_cons, not_or] at h
    rw [List.cons_append, pieces, if_neg (Ne.symm h.1), ih h.2]
    rfl

/-- A text without line feeds is a single piece, unless it is empty. -/
lemma pieces_eq_singleton {a : Text} (h : '\n' ∉ a) (hne : a ≠ []) : pieces a = [a] := by
  induction a with
  | nil => exact absurd rfl hne
  | cons c a ih =>
    simp only [List.mem_cons, not_or] at h
    rw [pieces, if_neg (Ne.symm h.1)]
    by_cases ha : a = []
    · simp [ha, pieces]
    · rw [ih h.2 ha]

/-- A piece without line feed is its own line. -/
lemma dropLineEnd_of_not_mem {a : Text} (h : '\n' ∉ a) : dropLineEnd a = a := by
  unfold dropLineEnd
  split
  next => rfl
  next body hb =>
    rw [stripSuffix?_eq_some_iff] at hb
    exact absurd (by simp [hb]) h

/-- A row is its line, or its line with a carriage return. -/
lemma dropLineEnd_append (a : Text) :
    dropLineEnd (a ++ ['\n']) = a ∨ a = dropLineEnd (a ++ ['\n']) ++ ['\r'] := by
  have h : stripSuffix? ['\n'] (a ++ ['\n']) = some a := stripSuffix?_eq_some_iff.2 rfl
  unfold dropLineEnd
  simp only [h]
  cases hr : stripSuffix? ['\r'] a with
  | none => exact .inl rfl
  | some body => exact .inr (stripSuffix?_eq_some_iff.1 hr)

/-- A first row with its line feed gives a line. -/
lemma lines_cons {a : Text} (h : '\n' ∉ a) (b : Text) :
    lines (a ++ '\n' :: b) = dropLineEnd (a ++ ['\n']) :: lines b := by
  rw [lines, pieces_cons h, List.map_cons, lines]

/-- A text without line feeds is a single line, unless it is empty. -/
lemma lines_eq_singleton {a : Text} (h : '\n' ∉ a) (hne : a ≠ []) : lines a = [a] := by
  rw [lines, pieces_eq_singleton h hne, List.map_singleton, dropLineEnd_of_not_mem h]

/-- No line holds a line feed. -/
lemma not_mem_of_mem_lines {t l : Text} (h : l ∈ lines t) : '\n' ∉ l := by
  induction t using row_induction with
  | last a ha =>
    by_cases hne : a = []
    · simp [hne, lines, pieces] at h
    · rw [lines_eq_singleton ha hne, List.mem_singleton] at h
      exact h ▸ ha
  | row a b ha ih =>
    rw [lines_cons ha, List.mem_cons] at h
    rcases h with rfl | h
    · rcases dropLineEnd_append a with he | he
      · rwa [he]
      · rw [he, List.mem_append, not_or] at ha
        exact ha.1
    · exact ih h

/-- **Lines and rows hold the same** for whoever gets nothing from an empty row and overlooks a
carriage return at the end.

**Proof sketch.** By rows. A row that a line feed ends differs from its line by a carriage return at
most. The last row is a line too, unless it is empty. -/
theorem filterMap_lines {β : Type} {f : Text → Option β} (hnil : f [] = none)
    (hreturn : ∀ l, f (l ++ ['\r']) = f l) (t : Text) :
    (lines t).filterMap f = (rows t).filterMap f := by
  induction t using row_induction with
  | last a ha =>
    rw [rows_eq_singleton ha]
    by_cases hne : a = []
    · simp [hne, lines, pieces, hnil]
    · rw [lines_eq_singleton ha hne]
  | row a b ha ih =>
    have hf : f (dropLineEnd (a ++ ['\n'])) = f a := by
      rcases dropLineEnd_append a with he | he
      · rw [he]
      · conv_rhs => rw [he, hreturn]
    rw [rows_cons ha, lines_cons ha, List.filterMap_cons, List.filterMap_cons, hf, ih]

/-! ## Written lines -/

/-- **Lines that are written** one after another are the rows of what is written, and an empty row
comes last. -/
theorem rows_writeLines {ls : List Text} (h : ∀ l ∈ ls, '\n' ∉ l) :
    rows (writeLines ls) = ls ++ [[]] := by
  induction ls with
  | nil => rfl
  | cons l ls ih =>
    have hl : writeLines (l :: ls) = l ++ '\n' :: writeLines ls := by simp [writeLines]
    rw [hl, rows_cons (h l (by simp)), ih fun l hl => h l (by simp [hl]), List.cons_append]

/-- What the rows of a text hold does not depend on the line feeds at its end. -/
lemma filterMap_rows_append {β : Type} {f : Text → Option β} (hnil : f [] = none) {z : Text}
    (hz : ∀ c ∈ z, c = '\n') (t : Text) :
    (rows (t ++ z)).filterMap f = (rows t).filterMap f := by
  induction z using List.reverseRecOn with
  | nil => simp
  | append_singleton z c ih =>
    obtain rfl : c = '\n' := hz c (by simp)
    rw [← List.append_assoc, rows_append, List.filterMap_append,
      ih fun d hd => hz d (by simp [hd])]
    simp [rows, fields, hnil]

/-- What the rows of a text hold is not changed when it is made to end in one line feed. -/
theorem filterMap_rows_endInOneLineFeed {β : Type} {f : Text → Option β} (hnil : f [] = none)
    (t : Text) : (rows (endInOneLineFeed t)).filterMap f = (rows t).filterMap f := by
  obtain ⟨z, ht, hz⟩ := exists_eq_trimEndBy_append (p := (· == '\n')) t
  have hrows : (rows t).filterMap f = (rows (trimEndBy (· == '\n') t)).filterMap f := by
    conv_lhs => rw [ht]
    exact filterMap_rows_append hnil (fun c hc => by simpa using hz c hc) _
  rw [hrows]
  unfold endInOneLineFeed
  dsimp only
  split
  next h => rw [h]
  next => exact filterMap_rows_append hnil (by simp) _

end Weave.Text
