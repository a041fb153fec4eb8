import Weave.Proofs.Filter.Repetition
import Weave.Proofs.Text.Append

set_option autoImplicit false
set_option relaxedAutoImplicit false

/-!
# Text that is put after a source

The rules of the filter act on the text as a whole, so what is put after a source could be drawn
into something that is left unfinished at its end: an open block, formula or link. It is not if it
holds nothing that could finish it. Then the source is filtered as it would be alone, and what comes
after it is left as it is, if the source ends its last row.

## Main definitions

* `Weave.IsTail` — a text that finishes nothing.

## Main results

* `Weave.BlockComment.expand_append` — blocks are expanded in the source.
* `Weave.filter_append` — filtering a source and what is put after it.
* `Weave.filter_lineFeed` — filtering a source whose last row is ended.
-/

namespace Weave

/-! ## Block comments -/

namespace BlockComment

section NoCloser

variable {fs : List Text} (hfs : ∀ r ∈ fs, isCloser r = false)

include hfs

/-- Rows without a closing row end no block that is open before. -/
lemma untilCloser?_append (rs : List Text) :
    untilCloser? (rs ++ fs) = (untilCloser? rs).map fun (body, rest) => (body, rest ++ fs) := by
  induction rs with
  | nil =>
    rw [List.nil_append, untilCloser?, Option.map_none, ← Option.not_isSome_iff_eq_none]
    intro h
    obtain ⟨⟨body, rest⟩, h⟩ := Option.isSome_iff_exists.1 h
    obtain ⟨closer, rfl, hc⟩ := untilCloser?_eq_some h
    simp [hfs closer (by simp)] at hc
  | cons r rs ih =>
    rw [List.cons_append, untilCloser?, untilCloser?, ih]
    split
    next => rfl
    next =>
      rw [Option.map_map, Option.map_map]
      rfl

/-- The body of a block is looked for in the rows before. -/
lemma body?_append (rs : List Text) :
    body? (rs ++ fs) = (body? rs).map fun (body, rest) => (body, rest ++ fs) := by
  cases rs with
  | nil =>
    rw [List.nil_append, body?, Option.map_none, ← Option.not_isSome_iff_eq_none]
    intro h
    obtain ⟨⟨body, rest⟩, h⟩ := Option.isSome_iff_exists.1 h
    obtain ⟨closer, rfl, hc, -⟩ := body?_eq_some h
    simp [hfs closer (by simp)] at hc
  | cons r rs =>
    rw [List.cons_append, body?, body?, untilCloser?_append hfs, Option.map_map, Option.map_map]
    rfl

/-- The first block is looked for in the rows before. -/
lemma expandFirst?_append (rs : List Text) :
    expandFirst? (rs ++ fs) = (expandFirst? rs).map (· ++ fs) := by
  induction rs with
  | nil =>
    rw [List.nil_append, expandFirst?, Option.map_none, ← Option.not_isSome_iff_eq_none,
      isSome_expandFirst?_iff]
    rintro ⟨before, opener, body, closer, after, rfl, -, hc, -⟩
    simp [hfs closer (by simp)] at hc
  | cons r rs ih =>
    rw [List.cons_append, expandFirst?, expandFirst?, ih, body?_append hfs]
    by_cases ho : isOpener r = true
    · cases body? rs <;> simp [ho, Function.comp_def]
    · simp [ho, Function.comp_def]

/-- Rows that end no block are left as they are. -/
lemma expandRows_append (rs : List Text) : expandRows (rs ++ fs) = expandRows rs ++ fs := by
  induction rs using expandRows.induct with
  | case1 rs h =>
    have happend := expandFirst?_append hfs rs
    rw [h, Option.map_none] at happend
    rw [expandRows_of_none h, expandRows_of_none happend]
  | case2 rs rs' h ih =>
    have happend := expandFirst?_append hfs rs
    rw [h, Option.map_some] at happend
    rw [expandRows_of_some h, expandRows_of_some happend, ih]

end NoCloser

/-- Rows are left when blocks are expanded. -/
lemma expandRows_ne_nil {rs : List Text} (h : rs ≠ []) : expandRows rs ≠ [] := by
  induction rs using expandRows.induct with
  | case1 rs hr => rwa [expandRows_of_none hr]
  | case2 rs rs' hr ih =>
    rw [expandRows_of_some hr]
    refine ih ?_
    obtain ⟨before, opener, body, closer, after, -, -, -, hne, rfl⟩ := expandFirst?_eq_some hr
    simp [hne]

/-- The empty text has no blocks. -/
lemma expand_nil : expand [] = [] := by
  rw [expand, expandRows_of_none rfl]
  rfl

/-- After a line feed nothing belongs to a block that could not end one. -/
lemma expand_lineFeed {f : Text} (hf : ∀ r ∈ Text.rows f, isCloser r = false) (a : Text) :
    expand (a ++ '\n' :: f) = expand a ++ '\n' :: f := by
  have ha : expandRows (Text.rows a) ≠ [] := expandRows_ne_nil (Text.rows_ne_nil a)
  have hrows : Text.rows f ≠ [] := Text.rows_ne_nil f
  rw [expand, Text.rows_append, expandRows_append hf, Text.unrows_append ha hrows,
    Text.unrows_rows, expand]

/-- **Blocks are expanded row by row**: a text without a closing row finishes no block that is open
before it. -/
theorem expand_append {f : Text} (hf : ∀ r ∈ Text.rows f, isCloser r = false) {t : Text}
    (h : t.IsWhole) : expand (t ++ f) = expand t ++ f := by
  obtain rfl | ⟨a, rfl⟩ := h.cases
  · have hnil : expandRows [] = [] := expandRows_of_none rfl
    have hrows := expandRows_append hf []
    rw [List.nil_append, hnil, List.nil_append] at hrows
    rw [List.nil_append, expand, hrows, Text.unrows_rows, expand_nil, List.nil_append]
  · have ha : expand (a ++ ['\n']) = expand a ++ ['\n'] := expand_lineFeed (f := []) (by decide) a
    rw [List.append_assoc, List.singleton_append, expand_lineFeed hf, ha, List.append_assoc,
      List.singleton_append]

/-- The last row is still ended when blocks are expanded. -/
lemma isWhole_expand {t : Text} (h : t.IsWhole) : (expand t).IsWhole := by
  obtain rfl | ⟨a, rfl⟩ := h.cases
  · rw [expand_nil]
    exact Text.isWhole_nil
  · rw [expand_lineFeed (f := []) (by decide)]
    exact Text.isWhole_append_lineFeed _

end BlockComment

/-! ## Lines for some targets -/

namespace LineTag

/-- The lines of two texts are kept each by itself, if the first text ends its last row. -/
lemma keep_append {t : Text} (h : t.IsWhole) (target : Target) (f : Text) :
    keep target (t ++ f) = keep target t ++ keep target f := by
  rw [keep, Text.pieces_append h, List.flatMap_append, keep, keep]

/-- The last row that is kept is still ended. -/
lemma isWhole_keep {t : Text} (h : t.IsWhole) (target : Target) : (keep target t).IsWhole := by
  have hpiece (line : Text) :
      Text.IsWhole (((keepLine target line).map (· ++ ['\n'])).getD []) := by
    cases keepLine target line with
    | none => exact Text.isWhole_nil
    | some kept => exact Text.isWhole_append_lineFeed kept
  obtain rfl | ⟨a, rfl⟩ := h.cases
  · exact Text.isWhole_nil
  · induction a using Text.row_induction with
    | last a ha =>
      rw [keep_cons ha]
      exact Text.isWhole_nil.append fun _ => hpiece a
    | row a b ha ih =>
      rw [List.append_assoc, List.cons_append, keep_cons ha]
      exact (ih (Text.isWhole_append_lineFeed b)).append fun _ => hpiece a

/-- A line feed at the end is kept, or left out with the last row. -/
lemma keep_lineFeed (target : Target) (t : Text) :
    keep target (t ++ ['\n']) = keep target t ++ ['\n'] ∨
      keep target (t ++ ['\n']) = keep target t := by
  induction t using Text.row_induction with
  | last a ha =>
    rw [keep_cons ha, keep_of_not_mem ha]
    cases keepLine target a with
    | none => exact .inr rfl
    | some kept => exact .inl (List.append_nil _)
  | row a b ha ih =>
    rw [List.append_assoc, List.cons_append, keep_cons ha, keep_cons ha, List.append_assoc]
    exact ih.imp (congrArg (_ ++ ·)) (congrArg (_ ++ ·))

end LineTag

/-! ## Rules on the whole text -/

/-- What stands between two marks is read up to the last character of the second one. -/
lemma Formula.stopsAt_swapMarks (left right : Text) (c : Char) (newLeft newRight : Text) :
    Text.StopsAt (swapMarks left (right ++ [c]) newLeft newRight) c := by
  intro u n put h
  have hne : right ++ [c] ≠ [] := by simp
  simp only [swapMarks, Option.bind_eq_bind, Option.bind_eq_some_iff, Option.pure_def,
    Option.some.injEq, Prod.mk.injEq] at h
  obtain ⟨rest, hrest, ⟨body, after⟩, hcut, rfl, rfl⟩ := h
  rw [Text.stripPrefix?_eq_some_iff] at hrest
  refine ⟨left ++ body ++ right, after, ?_, ?_, fun more => ?_⟩
  · rw [hrest, Text.cutAt?_eq_some hcut]
    simp
  · simp only [List.length_append, List.length_singleton]
    omega
  · have hcut' := Text.cutAt?_append hne hcut more
    have hsplit : left ++ body ++ right ++ c :: more =
        left ++ (body ++ (right ++ [c]) ++ more) := by
      simp
    simp only [hsplit, swapMarks, Text.stripPrefix?_eq_some_iff.2 rfl, hcut', Option.bind_eq_bind,
      Option.bind_some, Option.pure_def]

/-- A link is read up to its closing parenthesis. -/
lemma CrossReference.stopsAt_link? : Text.StopsAt link? ')' := by
  intro u n put h
  obtain ⟨reference, after, hne, hlabel, href, rfl, rfl⟩ := link?_eq_some_iff.1 h
  have hsplit (more : Text) : written put reference ++ more =
      ('[' :: (put ++ (']' :: '(' :: '@' :: reference))) ++ ')' :: more := by
    simp [written]
  refine ⟨_, after, hsplit after, ?_, fun more => ?_⟩
  · simp only [written, List.length_cons, List.length_append, List.length_nil]
    omega
  · rw [← hsplit]
    exact link?_eq_some_iff.2 ⟨reference, more, hne, hlabel, href, rfl, rfl⟩

variable {target : Target} {s : Settings} {f : Text}

/-- Formulas are adapted in the text before. -/
lemma adaptFormulas_append (hfence : '`' ∉ f) (hdisplay : '$' ∉ f) (t : Text) :
    adaptFormulas target s (t ++ f) = adaptFormulas target s t ++ f := by
  cases target with
  | script => rfl
  | markdown =>
    rw [adaptFormulas, adaptFormulas]
    split
    next =>
      exact Text.replaceMatches_append
        (Formula.stopsAt_swapMarks Formula.display ['$'] '$' _ _) hdisplay t
    next => rfl
  | notebook =>
    exact Text.replaceMatches_append
      (Formula.stopsAt_swapMarks Formula.opening ['`', '`'] '`' _ _) hfence t

/-- Placeholders are replaced in the text before.

**Proof sketch.** Every placeholder ends in an underscore, which the text after does not have. So no
occurrence reaches over the seam (`Text.replaceMatches_append`), at any of the placeholders. -/
lemma substitute_append (hmark : '_' ∉ f) (t : Text) :
    Placeholder.substitute s (t ++ f) = Placeholder.substitute s t ++ f := by
  have hreplace (old : Text) (value : Text) (t : Text) :
      Text.replace (old ++ ['_']) value (t ++ f) = Text.replace (old ++ ['_']) value t ++ f := by
    have hne : old ++ ['_'] ≠ [] := by simp
    rw [Text.replace_eq_replaceMatches hne, Text.replace_eq_replaceMatches hne]
    exact Text.replaceMatches_append (Text.stopsAt_literal old '_' value) hmark t
  have heach (vs : List (Text × Option Text)) (hvs : ∀ p ∈ vs, ∃ old, p.1 = old ++ ['_'])
      (t : Text) : Placeholder.replaceEach vs (t ++ f) = Placeholder.replaceEach vs t ++ f := by
    induction vs generalizing t with
    | nil => rfl
    | cons p vs ih =>
      rw [List.forall_mem_cons] at hvs
      obtain ⟨⟨old, hold⟩, hvs⟩ := hvs
      have hfirst := hreplace old (p.2.getD unknownValue) t
      rw [← hold] at hfirst
      simp only [Placeholder.replaceEach, List.foldl_cons, hfirst]
      exact ih hvs _
  refine heach (Placeholder.values s) (fun p hp => ⟨p.1.dropLast, ?_⟩) t
  simp only [Placeholder.values, List.mem_cons, List.not_mem_nil, or_false] at hp
  rcases hp with rfl | rfl | rfl | rfl <;> rfl

/-- Links are reduced in the text before. -/
lemma reduceLinks_append (hlink : ')' ∉ f) (t : Text) :
    reduceLinks target s (t ++ f) = reduceLinks target s t ++ f := by
  rw [reduceLinks, reduceLinks]
  split
  next => exact Text.replaceMatches_append CrossReference.stopsAt_link? hlink t
  next => rfl

/-! ## The filter -/

/-- **A text finishes nothing** that is left unfinished before it, and no rule acts on it. -/
structure IsTail (target : Target) (f : Text) : Prop where
  /-- There is no line end of two characters. -/
  lineEnds : '\r' ∉ f
  /-- No row closes a block. -/
  blocks : ∀ r ∈ Text.rows f, BlockComment.isCloser r = false
  /-- Every line is kept whole. -/
  lines : LineTag.keep target f = f
  /-- There is no end of a formula. -/
  formulas : '`' ∉ f ∧ '$' ∉ f
  /-- There is no end of a placeholder. -/
  placeholders : '_' ∉ f
  /-- There is no end of a link. -/
  links : ')' ∉ f

/-- What finishes nothing is left by the rules that do not look at lines. -/
lemma IsTail.substitution (hf : IsTail target f) (t : Text) :
    reduceLinks target s (Placeholder.substitute s (adaptFormulas target s (t ++ f))) =
      reduceLinks target s (Placeholder.substitute s (adaptFormulas target s t)) ++ f := by
  rw [adaptFormulas_append hf.formulas.1 hf.formulas.2, substitute_append hf.placeholders,
    reduceLinks_append hf.links]

/-- A line feed finishes nothing. -/
lemma substitution_lineFeed (t : Text) :
    reduceLinks target s (Placeholder.substitute s (adaptFormulas target s (t ++ ['\n']))) =
      reduceLinks target s (Placeholder.substitute s (adaptFormulas target s t)) ++ ['\n'] := by
  rw [adaptFormulas_append (by decide) (by decide), substitute_append (by decide),
    reduceLinks_append (by decide)]

/-- There is nothing to substitute in an empty text. -/
lemma substitution_nil (target : Target) (s : Settings) :
    reduceLinks target s (Placeholder.substitute s (adaptFormulas target s [])) = [] := by
  have hadapt : adaptFormulas target s [] = [] := by
    cases target with
    | script => rfl
    | markdown =>
      rw [adaptFormulas]
      split <;> rfl
    | notebook => rfl
  have hsubstitute : Placeholder.substitute s [] = [] := rfl
  rw [hadapt, hsubstitute, reduceLinks]
  split <;> rfl

/-- The last row is still ended when a text is filtered. -/
lemma isWhole_filter {t : Text} (h : t.IsWhole) : (filter target s t).IsWhole := by
  have hkept := LineTag.isWhole_keep (BlockComment.isWhole_expand (Text.isWhole_unifyLineEnds h))
    target
  rw [filter]
  obtain hnil | ⟨a, ha⟩ := hkept.cases
  · rw [hnil, substitution_nil]
    exact Text.isWhole_nil
  · rw [ha, substitution_lineFeed]
    exact Text.isWhole_append_lineFeed _

/-- **A source and what is put after it**: if the source ends its last row, it is filtered as it
would be alone, and what comes after it is left as it is. -/
theorem filter_append {t : Text} (h : t.IsWhole) (hf : IsTail target f) :
    filter target s (t ++ f) = filter target s t ++ f := by
  have hreturn : t.getLast? ≠ some '\r' := fun hlast => absurd (h '\r' hlast) (by decide)
  have hunified := Text.isWhole_unifyLineEnds h
  rw [filter, Text.unifyLineEnds_append hreturn hf.lineEnds,
    BlockComment.expand_append hf.blocks hunified,
    LineTag.keep_append (BlockComment.isWhole_expand hunified), hf.lines, hf.substitution, filter]

/-- **A source whose last row is ended** is filtered as the source without the line feed at its end:
this is kept, or left out with the last row, unless it would make a line end with a carriage return
before it. -/
theorem filter_lineFeed {t : Text} (h : t.getLast? ≠ some '\r') :
    filter target s (t ++ ['\n']) = filter target s t ++ ['\n'] ∨
      filter target s (t ++ ['\n']) = filter target s t := by
  rw [filter, Text.unifyLineEnds_append h (by decide), BlockComment.expand_lineFeed (by decide),
    filter]
  have hkept := LineTag.keep_lineFeed target (BlockComment.expand (Text.unifyLineEnds t))
  rcases hkept with hkeep | hkeep
  · exact .inl (by rw [hkeep, substitution_lineFeed])
  · exact .inr (by rw [hkeep])

end Weave
