import Weave.Proofs.Filter.Scanning
import Weave.Proofs.Text.Append

set_option autoImplicit false
set_option relaxedAutoImplicit false

/-!
# Expanding block comments comes to an end

In a text, and not among its rows, a block comment is a match of a pattern: an opening fence on a
row of its own, any text, and a closing fence on a row of its own. As long as there is a match, the
first one is replaced by prose. The prose can be longer than the match, so it is not the length that
goes down. But with every replacement two line feeds are lost, and so there are at most half as many
replacements as line feeds.

## Main definitions

* `Weave.BlockComment.Match` — a text with a stretch that may be a block.
* `Weave.BlockComment.Match.IsBlock`, `Weave.BlockComment.Match.IsFirst` — the matches of the
  pattern, and the one that is replaced.
* `Weave.BlockComment.Replaces`, `Weave.BlockComment.Rewrites` — one replacement, and a number of
  them.

## Main results

* `Weave.BlockComment.Match.count_replaced` — what a replacement does to the line feeds.
* `Weave.BlockComment.exists_isFirst` — the first block among the rows is the first match.
* `Weave.BlockComment.expand_terminates` — how expanding comes to an end.
-/

namespace Weave.BlockComment

/-! ## Blocks among rows -/

/-- An opening row is a single row. -/
lemma Opens.lineFeed_not_mem {row : Text} (h : Opens row) : '\n' ∉ row := by
  obtain ⟨n, rfl⟩ := h
  simp [List.mem_replicate]

/-- A closing row is a single row. -/
lemma Closes.lineFeed_not_mem {row : Text} (h : Closes row) : '\n' ∉ row := by
  obtain ⟨n, rfl⟩ := h
  simp [List.mem_replicate]

/-- **A block among rows**, with the rows before it, those of its body and those after it. -/
structure IsBlockOf (rows before : List Text) (opener : Text) (body : List Text) (closer : Text)
    (after : List Text) : Prop where
  rows : rows = before ++ opener :: (body ++ closer :: after)
  opens : Opens opener
  closes : Closes closer
  body : body ≠ []

/-! ## Matches -/

/-- **A text with a stretch** that may be a block: two fences, and what stands between them without
the line feeds at its ends. -/
structure Match where
  before : Text
  opener : Text
  body : Text
  closer : Text
  after : Text

/-- **A text as prose**: every row gets the marker. -/
def prose (t : Text) : Text :=
  Text.unrows ((Text.rows t).map asProse)

/-- Prose has the line feeds of the text. -/
lemma count_prose (t : Text) : (prose t).count '\n' = t.count '\n' := by
  calc (prose t).count '\n'
      = ((Text.rows t).map asProse).flatten.count '\n' + ((Text.rows t).length - 1) := by
        rw [prose, count_unrows, if_pos rfl, List.length_map]
    _ = (Text.unrows (Text.rows t)).count '\n' := by
        rw [count_flatten_asProse (by decide), count_unrows, if_pos rfl]
    _ = t.count '\n' := by rw [Text.unrows_rows]

namespace Match

/-- The whole text. -/
def text (m : Match) : Text :=
  m.before ++ (m.opener ++ '\n' :: (m.body ++ '\n' :: (m.closer ++ m.after)))

/-- **The text after a replacement**: the body is left as prose, and the fences are lost. -/
def replaced (m : Match) : Text :=
  m.before ++ (prose m.body ++ m.after)

/-- **The stretch is a block**: each of its fences has a row of its own. Nothing is asked of the
body, which may be empty, or have several rows and further fences among them. -/
structure IsBlock (m : Match) : Prop where
  opens : Opens m.opener
  closes : Closes m.closer
  /-- The opening fence stands at the beginning of a row. -/
  before : m.before.IsWhole
  /-- The closing fence stands at the end of a row. -/
  after : ∀ c ∈ m.after.head?, c = '\n'

/-- **The block is the first match**: it begins leftmost, and of those that begin there it is the
shortest. -/
structure IsFirst (m : Match) : Prop extends m.IsBlock where
  first : ∀ m' : Match, m'.IsBlock → m'.text = m.text →
    m.before.length < m'.before.length ∨
      m.before = m'.before ∧ m.body.length ≤ m'.body.length

/-- **A replacement takes two line feeds away**: the one after the opening fence and the one before
the closing fence. -/
theorem count_replaced {m : Match} (h : m.IsBlock) :
    m.replaced.count '\n' + 2 = m.text.count '\n' := by
  have hopener := List.count_eq_zero_of_not_mem h.opens.lineFeed_not_mem
  have hcloser := List.count_eq_zero_of_not_mem h.closes.lineFeed_not_mem
  simp only [replaced, text, List.count_append, List.count_cons_self, count_prose, hopener, hcloser]
  omega

/-! ## Matches and rows -/

/-- The match that is a block among rows. -/
def ofRows (before : List Text) (opener : Text) (body : List Text) (closer : Text)
    (after : List Text) : Match where
  before := Text.writeLines before
  opener := opener
  body := Text.unrows body
  closer := closer
  after := after.flatMap ('\n' :: ·)

section Rows

variable {before body after : List Text} {opener closer : Text}

/-- The text of a match that is made of rows has these rows. -/
lemma text_ofRows (hne : body ≠ []) :
    (ofRows before opener body closer after).text =
      Text.unrows (before ++ opener :: (body ++ closer :: after)) := by
  rw [Text.unrows_append_eq_writeLines before (List.cons_ne_nil _ _),
    Text.unrows_cons opener (List.append_ne_nil_of_left_ne_nil hne _),
    Text.unrows_append hne (List.cons_ne_nil _ _), Text.unrows_cons_eq_flatMap closer]
  rfl

/-- What replaces a match that is made of rows is its body as prose, between the rows around it. -/
lemma replaced_ofRows (hne : body ≠ []) (hbody : ∀ row ∈ body, '\n' ∉ row) :
    (ofRows before opener body closer after).replaced =
      Text.unrows (before ++ (body.map asProse ++ after)) := by
  have hprose : body.map asProse ≠ [] := by simpa using hne
  rw [Text.unrows_append_eq_writeLines before (List.append_ne_nil_of_left_ne_nil hprose after),
    Text.unrows_append_eq_flatMap hprose]
  simp only [replaced, ofRows, prose, Text.rows_unrows hbody hne]

/-- Rows between an opening and a closing one are a block. -/
lemma isBlock_ofRows (hopen : Opens opener) (hclose : Closes closer) :
    (ofRows before opener body closer after).IsBlock := by
  refine ⟨hopen, hclose, Text.isWhole_writeLines before, ?_⟩
  cases after <;> simp [ofRows]

/-- **A block in a text** is a block among its rows.

**Proof sketch.** What comes before the block is made of whole lines, and what comes after it
begins with a line feed or is empty. So both are made of rows, and those of the block stand
between them. -/
lemma IsBlock.exists_eq_ofRows {m : Match} (h : m.IsBlock) :
    ∃ before body after, m = ofRows before m.opener body m.closer after ∧
      IsBlockOf (Text.rows m.text) before m.opener body m.closer after := by
  obtain ⟨before, hbefore, hlines⟩ := h.before.exists_eq_writeLines
  obtain ⟨after, hafter, hrows⟩ :
      ∃ after : List Text, m.after = after.flatMap ('\n' :: ·) ∧ ∀ row ∈ after, '\n' ∉ row := by
    cases heq : m.after with
    | nil => exact ⟨[], rfl, nofun⟩
    | cons c t =>
      obtain rfl : c = '\n' := h.after c (by rw [heq]; rfl)
      refine ⟨Text.rows t, ?_, fun row hrow => Text.not_mem_of_mem_fields hrow⟩
      rw [← List.nil_append (List.flatMap _ _), ← Text.unrows_cons_eq_flatMap,
        Text.unrows_cons [] (Text.rows_ne_nil t), Text.unrows_rows, List.nil_append]
  have hbody := Text.rows_ne_nil m.body
  have hm : m = ofRows before m.opener (Text.rows m.body) m.closer after := by
    rw [ofRows, ← hbefore, ← hafter, Text.unrows_rows]
  refine ⟨before, Text.rows m.body, after, hm, ?_, h.opens, h.closes, hbody⟩
  have htext := congrArg text hm
  rw [text_ofRows hbody] at htext
  rw [htext]
  refine Text.rows_unrows ?_ (by simp)
  have hfields : ∀ row ∈ Text.rows m.body, '\n' ∉ row := fun row hrow =>
    Text.not_mem_of_mem_fields hrow
  simp only [List.forall_mem_append, List.forall_mem_cons]
  exact ⟨hlines, h.opens.lineFeed_not_mem, hfields, h.closes.lineFeed_not_mem, hrows⟩

end Rows

end Match

/-! ## The first match -/

/-- No shorter body ends at a closing row. -/
lemma length_le_of_enclosed? {least : Nat} {rows body rest body' rest' : List Text} {closer' : Text}
    (h : enclosed? least rows = some (body, rest)) (hrows : rows = body' ++ closer' :: rest')
    (hclose : Closes closer') (hle : least ≤ body'.length) : body.length ≤ body'.length := by
  obtain ⟨closer, hrows', -, -, hbody⟩ := enclosed?_eq_some_iff.1 h
  rcases List.append_eq_append_iff.1 (hrows'.symm.trans hrows) with
    ⟨more, rfl, -⟩ | ⟨more, rfl, hmore⟩
  · rw [List.length_append]
    exact Nat.le_add_right _ _
  · cases more with
    | nil => simp
    | cons r more =>
      -- The closing row would stand inside of the body.
      obtain rfl : closer' = r := (List.cons.inj hmore).1
      refine absurd hclose (hbody closer' ?_)
      rw [List.drop_append_of_le_length hle]
      simp

/-- **The first block among rows**: its opening row comes first, and of the blocks that this row
opens it is the shortest.

**Proof sketch.** Induction on the rows. If the first row opens a block, its shortest block is taken
(`enclosed?_eq_some_iff`), and no block comes before it. If it opens none, every block begins later,
among the rows that follow. -/
lemma expandFirst?_eq_some_first {rows rows' : List Text} (h : expandFirst? rows = some rows') :
    ∃ before opener body closer after, IsBlockOf rows before opener body closer after ∧
      rows' = before ++ (body.map asProse ++ after) ∧
      ∀ before' opener' body' closer' after', IsBlockOf rows before' opener' body' closer' after' →
        before.length < before'.length ∨ before = before' ∧ body.length ≤ body'.length := by
  induction rows generalizing rows' with
  | nil => cases h
  | cons row rows ih =>
    rw [expandFirst?] at h
    split at h
    next body after hbody =>
      split at hbody
      next hopen =>
        rw [body?_eq_enclosed?] at hbody
        obtain ⟨closer, hrows, hclose, hlength, -⟩ := enclosed?_eq_some_iff.1 hbody
        refine ⟨[], row, body, closer, after, ⟨hrows ▸ rfl, isOpener_iff.1 hopen, hclose,
          List.ne_nil_of_length_pos hlength⟩, (Option.some.inj h).symm, ?_⟩
        intro before' opener' body' closer' after' hblock
        cases before' with
        | nil =>
          exact .inr ⟨rfl, length_le_of_enclosed? hbody (List.cons.inj hblock.rows).2 hblock.closes
            (List.length_pos_iff.2 hblock.body)⟩
        | cons row' before' => exact .inl (Nat.succ_pos _)
      next => cases hbody
    next hnone =>
      obtain ⟨rows'', hr, rfl⟩ := Option.map_eq_some_iff.1 h
      obtain ⟨before, opener, body, closer, after, hfound, rfl, hfirst⟩ := ih hr
      refine ⟨row :: before, opener, body, closer, after,
        ⟨hfound.rows ▸ rfl, hfound.opens, hfound.closes, hfound.body⟩, rfl, ?_⟩
      intro before' opener' body' closer' after' hblock
      cases before' with
      | nil =>
        -- The first row would open a block, which would have been found.
        obtain ⟨rfl, hrest⟩ := List.cons.inj hblock.rows
        obtain ⟨r, body', rfl⟩ := List.exists_cons_of_ne_nil hblock.body
        rw [if_pos (isOpener_iff.2 hblock.opens), body?_eq_enclosed?, enclosed?_eq_none_iff, hrest]
          at hnone
        exact absurd hblock.closes (hnone closer' (by simp))
      | cons row' before' =>
        obtain ⟨rfl, hrest⟩ := List.cons.inj hblock.rows
        rcases hfirst _ _ _ _ _ ⟨hrest, hblock.opens, hblock.closes, hblock.body⟩ with
          hlt | ⟨rfl, hle⟩
        · exact .inl (Nat.succ_lt_succ hlt)
        · exact .inr ⟨rfl, hle⟩

/-- **A block that is first** among the rows is the first match. -/
lemma isFirst_ofRows {t : Text} {before body after : List Text} {opener closer : Text}
    (h : IsBlockOf (Text.rows t) before opener body closer after)
    (hfirst : ∀ before' opener' body' closer' after',
      IsBlockOf (Text.rows t) before' opener' body' closer' after' →
        before.length < before'.length ∨ before = before' ∧ body.length ≤ body'.length) :
    (Match.ofRows before opener body closer after).IsFirst := by
  refine ⟨Match.isBlock_ofRows h.opens h.closes, fun m' hm' htext => ?_⟩
  rw [Match.text_ofRows h.body, ← h.rows, Text.unrows_rows] at htext
  obtain ⟨before', body', after', hm, hblock⟩ := hm'.exists_eq_ofRows
  rw [htext] at hblock
  have hsame := h.rows.symm.trans hblock.rows
  rw [hm]
  rcases hfirst _ _ _ _ _ hblock with hlt | ⟨rfl, hle⟩
  · have hbefore : before <+: before' :=
      List.prefix_of_prefix_length_le (List.prefix_append before _)
        (hsame ▸ List.prefix_append before' _) hlt.le
    exact .inl (Text.length_writeLines_lt hbefore hlt)
  · have hrest := (List.cons.inj (List.append_cancel_left hsame)).2
    have hbody : body <+: body' :=
      List.prefix_of_prefix_length_le (List.prefix_append body _)
        (hrest ▸ List.prefix_append body' _) hle
    exact .inr ⟨rfl, Text.length_unrows_le hbody h.body⟩

/-- **The first block among the rows** of a text is the first match in it. -/
theorem exists_isFirst {t : Text} {rows' : List Text}
    (h : expandFirst? (Text.rows t) = some rows') :
    ∃ m : Match, m.text = t ∧ m.IsFirst ∧ Text.rows m.replaced = rows' := by
  obtain ⟨before, opener, body, closer, after, hblock, rfl, hfirst⟩ := expandFirst?_eq_some_first h
  have htext : (Match.ofRows before opener body closer after).text = t := by
    rw [Match.text_ofRows hblock.body, ← hblock.rows, Text.unrows_rows]
  have hlines : ∀ row ∈ before ++ opener :: (body ++ closer :: after), '\n' ∉ row :=
    hblock.rows ▸ fun row hrow => Text.not_mem_of_mem_fields hrow
  simp only [List.forall_mem_append, List.forall_mem_cons] at hlines
  refine ⟨.ofRows before opener body closer after, htext, isFirst_ofRows hblock hfirst, ?_⟩
  rw [Match.replaced_ofRows hblock.body hlines.2.2.1]
  have hprose : ∀ row ∈ body.map asProse, '\n' ∉ row := by
    simpa [asProse] using hlines.2.2.1
  refine Text.rows_unrows ?_ (by simp [hblock.body])
  simp only [List.forall_mem_append]
  exact ⟨hlines.1, hprose, hlines.2.2.2.2⟩

/-! ## Replacements -/

/-- **One replacement**: the first match becomes prose. -/
def Replaces (t t' : Text) : Prop :=
  ∃ m : Match, m.IsFirst ∧ m.text = t ∧ m.replaced = t'

/-- **A number of replacements**, one after another. -/
inductive Rewrites : Nat → Text → Text → Prop where
  | refl (t : Text) : Rewrites 0 t t
  | step {n : Nat} {t t' t'' : Text} : Replaces t t' → Rewrites n t' t'' → Rewrites (n + 1) t t''

/-- One replacement takes two line feeds away. -/
lemma Replaces.count {t t' : Text} (h : Replaces t t') : t'.count '\n' + 2 = t.count '\n' := by
  obtain ⟨m, hm, rfl, rfl⟩ := h
  exact Match.count_replaced hm.toIsBlock

/-- Every one of several replacements takes two line feeds away. -/
lemma Rewrites.count {n : Nat} {t t' : Text} (h : Rewrites n t t') :
    t'.count '\n' + 2 * n = t.count '\n' := by
  induction h with
  | refl t => rfl
  | step hstep _ ih =>
    have := hstep.count
    omega

/-- **Where no block is found** there is no match. -/
lemma expandFirst?_ne_none {m : Match} (h : m.IsBlock) :
    expandFirst? (Text.rows m.text) ≠ none := by
  obtain ⟨before, body, after, -, hblock⟩ := h.exists_eq_ofRows
  refine Option.isSome_iff_ne_none.1 (isSome_expandFirst?_iff.2 ?_)
  exact ⟨before, m.opener, body, m.closer, after, hblock.rows, isOpener_iff.2 h.opens,
    isCloser_iff.2 h.closes, hblock.body⟩

/-- **Expanding replaces** the first match as long as there is one.

**Proof sketch.** Strong induction on the line feeds. If a block is found it is the first one
(`exists_isFirst`); replacing it costs two line feeds and does not change what comes out. If none is
found there is none (`expandFirst?_ne_none`). -/
theorem exists_rewrites_expand (t : Text) :
    ∃ n, Rewrites n t (expand t) ∧ ∀ m : Match, m.IsBlock → m.text ≠ expand t := by
  induction hn : t.count '\n' using Nat.strongRecOn generalizing t with
  | ind k ih =>
    cases hfirst : expandFirst? (Text.rows t) with
    | none =>
      have hself : expand t = t := by rw [expand, expandRows_of_none hfirst, Text.unrows_rows]
      refine ⟨0, hself.symm ▸ .refl t, fun m hm htext => expandFirst?_ne_none hm ?_⟩
      rw [htext, hself, hfirst]
    | some rows' =>
      obtain ⟨m, rfl, hm, hrows⟩ := exists_isFirst hfirst
      have hstep : Replaces m.text m.replaced := ⟨m, hm, rfl, rfl⟩
      have hexpand : expand m.text = expand m.replaced := by
        rw [expand, expand, expandRows_of_some hfirst, hrows]
      have hlt : m.replaced.count '\n' < k := by
        have := hstep.count
        omega
      obtain ⟨n, hrun, hnone⟩ := ih _ hlt m.replaced rfl
      rw [hexpand]
      exact ⟨n + 1, .step hstep hrun, hnone⟩

/-- **Expanding comes to an end.** With every replacement two line feeds are lost, even where the
text gets longer. So there are at most half as many replacements as the text has line feeds; they
lead to the expanded text, and in that there is no match.

**Proof sketch.** A replacement takes the two fences away with a line feed each (`Replaces.count`),
so a run is bounded by the line feeds (`Rewrites.count`). The pass that expands is such a run, and
its end has no block (`exists_rewrites_expand`). -/
theorem expand_terminates (t : Text) :
    (∀ t' t'', Replaces t' t'' → t''.count '\n' + 2 = t'.count '\n') ∧
    (∃ t' t'', Replaces t' t'' ∧ t'.length < t''.length) ∧
    (∀ n t', Rewrites n t t' → n ≤ t.count '\n' / 2) ∧
    (∃ n, Rewrites n t (expand t)) ∧
    ∀ m : Match, m.IsBlock → m.text ≠ expand t := by
  obtain ⟨n, hrun, hnone⟩ := exists_rewrites_expand t
  refine ⟨fun _ _ h => h.count, ?_, ?_, ⟨n, hrun⟩, hnone⟩
  · -- Four rows get eight characters, and with the fences six are lost.
    have hblock : expandFirst? (Text.rows "#=\na\nb\nc\nd\n=#".toList) =
        some ["# a".toList, "# b".toList, "# c".toList, "# d".toList] := by decide
    obtain ⟨m, hm, hfirst, hrows⟩ := exists_isFirst hblock
    refine ⟨_, _, ⟨m, hfirst, rfl, rfl⟩, ?_⟩
    rw [hm, ← Text.unrows_rows m.replaced, hrows]
    decide
  · intro n t' hrewrites
    have := hrewrites.count
    omega

end Weave.BlockComment
