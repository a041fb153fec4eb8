import Weave.Proofs.Text.Replacement
import Weave.Proofs.Text.Rows

set_option autoImplicit false
set_option relaxedAutoImplicit false

/-!
# Texts that are put together

What is put after a text does not change how the text is read, if nothing that is read goes over
from the one to the other. A pass that replaces matches never does so if every match ends with a
character that does not stand in the second text. What goes by rows never does so if the first text
ends its last row.

## Main definitions

* `Weave.Text.StopsAt` — a reader whose matches end with a character.
* `Weave.Text.IsWhole` — the last row of a text is ended.

## Main results

* `Weave.Text.replaceMatches_append` — one pass over two texts.
* `Weave.Text.lines_append` — the lines of two texts.
* `Weave.Text.unifyLineEnds_append` — the line ends of two texts.
-/

namespace Weave.Text

/-! ## Readers that stop at a character -/

/-- **A reader stops at a character**: its matches end with it, and what stands after that makes no
difference. -/
def StopsAt (reader : Text → Option (Nat × Text)) (c : Char) : Prop :=
  ∀ u n put, reader u = some (n, put) → ∃ w r, u = w ++ c :: r ∧ n = w.length + 1 ∧
    ∀ r', reader (w ++ c :: r') = some (n, put)

variable {reader : Text → Option (Nat × Text)} {c : Char}

/-- What does not hold the character makes no difference to a match before it. -/
lemma StopsAt.append (h : StopsAt reader c) {f : Text} (hf : c ∉ f) (u : Text) :
    reader (u ++ f) = reader u := by
  refine Option.ext fun ⟨n, put⟩ => ⟨fun hr => ?_, fun hr => ?_⟩
  · obtain ⟨w, r, hu, rfl, hlocal⟩ := h _ _ _ hr
    rcases List.append_eq_append_iff.1 hu with ⟨v, rfl, hv⟩ | ⟨v, rfl, hv⟩
    · exact absurd (hv ▸ List.mem_append_right v List.mem_cons_self) hf
    · cases v with
      | nil =>
        rw [List.nil_append] at hv
        exact absurd (hv ▸ List.mem_cons_self) hf
      | cons d v =>
        obtain ⟨rfl, -⟩ := List.cons.inj hv
        exact hlocal v
  · obtain ⟨w, r, rfl, rfl, hlocal⟩ := h _ _ _ hr
    rw [List.append_assoc, List.cons_append]
    exact hlocal (r ++ f)

/-- A text without the character is left as it is. -/
lemma StopsAt.replaceMatches_eq_self (h : StopsAt reader c) {f : Text} (hf : c ∉ f) :
    replaceMatches reader 0 f = f := by
  refine Text.replaceMatches_eq_self ?_
  rintro ⟨a, u, n, put, rfl, hr⟩
  obtain ⟨w, r, rfl, -⟩ := h _ _ _ hr
  exact hf (by simp)

/-- **One pass over two texts**, if no match goes beyond the end of the first one.

**Proof sketch.** By the length of the first text. -/
theorem replaceMatches_append_of {t f : Text}
    (hread : ∀ u, u ≠ [] → u <:+ t → reader (u ++ f) = reader u)
    (hwithin : ∀ u n put, reader u = some (n, put) → n ≤ u.length) :
    replaceMatches reader 0 (t ++ f) = replaceMatches reader 0 t ++ replaceMatches reader 0 f := by
  induction hn : t.length using Nat.strongRecOn generalizing t with
  | ind n ih =>
    cases t with
    | nil => rfl
    | cons d t =>
      have hd : reader (d :: (t ++ f)) = reader (d :: t) :=
        hread (d :: t) (List.cons_ne_nil d t) (List.suffix_refl _)
      rw [List.length_cons] at hn
      by_cases hmatch : ∃ n put, reader (d :: t) = some (n + 1, put)
      · obtain ⟨k, put, hr⟩ := hmatch
        have hk : k ≤ t.length := Nat.le_of_succ_le_succ (hwithin _ _ _ hr)
        have hsuffix : t.drop k <:+ d :: t := (List.drop_suffix k t).trans (List.suffix_cons d t)
        have hrest := ih (t.drop k).length (by rw [List.length_drop]; omega)
          (fun u hu hut => hread u hu (hut.trans hsuffix)) rfl
        rw [List.cons_append, replaceMatches_cons_of_match (hd.trans hr),
          replaceMatches_cons_of_match hr, List.drop_append_of_le_length hk, hrest,
          List.append_assoc]
      · have hnone : ∀ n put, reader (d :: t) ≠ some (n + 1, put) :=
          fun n put hr => hmatch ⟨n, put, hr⟩
        have hrest := ih t.length (by omega)
          (fun u hu hut => hread u hu (hut.trans (List.suffix_cons d t))) rfl
        rw [List.cons_append, replaceMatches_cons_of_no_match (hd ▸ hnone),
          replaceMatches_cons_of_no_match hnone, hrest, List.cons_append]

/-- What no match begins in is passed over. -/
lemma replaceMatches_append_of_no_match {t f : Text}
    (h : ∀ u, u ≠ [] → u <:+ t → ∀ n put, reader (u ++ f) ≠ some (n + 1, put)) :
    replaceMatches reader 0 (t ++ f) = t ++ replaceMatches reader 0 f := by
  induction t with
  | nil => rfl
  | cons d t ih =>
    have hd : ∀ n put, reader (d :: (t ++ f)) ≠ some (n + 1, put) :=
      h (d :: t) (List.cons_ne_nil d t) (List.suffix_refl _)
    rw [List.cons_append, replaceMatches_cons_of_no_match hd,
      ih fun u hu hut => h u hu (hut.trans (List.suffix_cons d t)), List.cons_append]

/-- A match that takes up the first of two texts is replaced. -/
lemma replaceMatches_append_of_match {m t put : Text} (hne : m ≠ [])
    (h : reader (m ++ t) = some (m.length, put)) :
    replaceMatches reader 0 (m ++ t) = put ++ replaceMatches reader 0 t := by
  obtain ⟨c, m, rfl⟩ := List.exists_cons_of_ne_nil hne
  rw [List.cons_append] at h ⊢
  rw [replaceMatches_cons_of_match h, List.drop_left]

/-- **One pass over two texts**, if the second one does not hold the character that every match ends
with. -/
theorem replaceMatches_append (h : StopsAt reader c) {f : Text} (hf : c ∉ f) (t : Text) :
    replaceMatches reader 0 (t ++ f) = replaceMatches reader 0 t ++ f := by
  conv_rhs => rw [← h.replaceMatches_eq_self hf]
  refine replaceMatches_append_of (fun u _ _ => h.append hf u) fun u n put hr => ?_
  obtain ⟨w, r, rfl, rfl, -⟩ := h _ _ _ hr
  simp

/-- A reader for a text stops at the last character of the text. -/
lemma stopsAt_literal (old : Text) (c : Char) (new : Text) :
    StopsAt (literal (old ++ [c]) new) c := by
  intro u n put h
  unfold literal at h
  split at h
  next hs =>
    obtain ⟨r, rfl⟩ := startsWith_iff.1 hs
    cases h
    refine ⟨old, r, by simp, by simp, fun r' => ?_⟩
    rw [literal, if_pos (startsWith_iff.2 ⟨r', by simp⟩)]
  next => cases h

/-- A reader for a text finds it within the text that it reads. -/
lemma length_le_of_literal {old new u put : Text} {n : Nat}
    (h : literal old new u = some (n, put)) : n ≤ u.length := by
  unfold literal at h
  split at h
  next hs =>
    obtain ⟨r, rfl⟩ := startsWith_iff.1 hs
    cases h
    simp
  next => cases h

/-- A cut depends only on what stands up to the end of the mark.

**Proof sketch.** Induction on the text. The mark does not stand in front of the part before it, and
does not if the text goes on otherwise after the cut, since it would end within the mark that was
found. -/
lemma cutAt?_append {mark t before after : Text} (hne : mark ≠ [])
    (h : cutAt? mark t = some (before, after)) (more : Text) :
    cutAt? mark (before ++ mark ++ more) = some (before, more) := by
  induction t generalizing before with
  | nil => simp [cutAt?, hne] at h
  | cons d t ih =>
    have hwhole := cutAt?_eq_some h
    rw [cutAt?] at h
    split at h
    next a hs =>
      cases h
      obtain ⟨e, mark', rfl⟩ := List.exists_cons_of_ne_nil hne
      have hstrip : stripPrefix? (e :: mark') (e :: (mark' ++ more)) = some more :=
        stripPrefix?_eq_some_iff.2 rfl
      rw [List.nil_append, List.cons_append, cutAt?, hstrip]
    next hs =>
      simp only [Option.map_eq_some_iff, Prod.mk.injEq] at h
      obtain ⟨⟨b, a⟩, hba, rfl, rfl⟩ := h
      have hnone : stripPrefix? mark (d :: (b ++ mark ++ more)) = none := by
        rw [stripPrefix?_eq_none_iff] at hs ⊢
        intro hprefix
        -- The mark would stand in front of the cut already.
        have hbefore : mark <+: d :: (b ++ mark) := by
          rw [← List.cons_append] at hprefix
          refine List.prefix_of_prefix_length_le hprefix (List.prefix_append _ _) ?_
          simp only [List.length_cons, List.length_append]
          omega
        rw [hwhole] at hs
        exact hs (hbefore.trans (List.prefix_append _ _))
      rw [List.cons_append, List.cons_append, cutAt?, hnone, ih hba]
      rfl

/-! ## Texts whose last row is ended -/

/-- **The last row of a text is ended** by a line feed, if there is one. -/
def IsWhole (t : Text) : Prop :=
  ∀ c ∈ t.getLast?, c = '\n'

/-- There is no row to be ended in an empty text. -/
lemma isWhole_nil : IsWhole [] := by
  simp [IsWhole]

/-- A line feed at the end of a text ends its last row. -/
lemma isWhole_append_lineFeed (a : Text) : IsWhole (a ++ ['\n']) := by
  simp [IsWhole]

/-- What ends with a row that is ended does not depend on what stands before it. -/
lemma IsWhole.append {b : Text} (h : IsWhole b) {a : Text} (ha : b = [] → IsWhole a) :
    IsWhole (a ++ b) := by
  rcases b.eq_nil_or_concat' with rfl | ⟨b, c, rfl⟩
  · simpa using ha rfl
  · simpa [IsWhole] using h

/-- A text whose last row is ended is empty, or it ends in a line feed. -/
lemma IsWhole.cases {t : Text} (h : IsWhole t) : t = [] ∨ ∃ a, t = a ++ ['\n'] := by
  rcases t.eq_nil_or_concat' with rfl | ⟨a, c, rfl⟩
  · exact .inl rfl
  · obtain rfl : c = '\n' := h c (by simp)
    exact .inr ⟨a, rfl⟩

/-- Lines that are written are all ended. -/
lemma isWhole_writeLines (ls : List Text) : IsWhole (writeLines ls) := by
  rcases ls.eq_nil_or_concat' with rfl | ⟨ls, l, rfl⟩
  · exact isWhole_nil
  · simp [writeLines, IsWhole]

/-- A text whose last row is ended is made of lines. -/
lemma IsWhole.exists_eq_writeLines {t : Text} (h : IsWhole t) :
    ∃ ls, t = writeLines ls ∧ ∀ l ∈ ls, '\n' ∉ l := by
  obtain rfl | ⟨a, rfl⟩ := h.cases
  · exact ⟨[], rfl, nofun⟩
  · refine ⟨rows a, ?_, fun l hl => not_mem_of_mem_fields hl⟩
    have hne := List.cons_ne_nil ([] : Text) []
    calc a ++ ['\n'] = unrows (rows a) ++ [[]].flatMap ('\n' :: ·) := by rw [unrows_rows]; rfl
      _ = unrows (rows a ++ [[]]) := (unrows_append_eq_flatMap (rows_ne_nil a) _).symm
      _ = writeLines (rows a) ++ unrows [[]] := unrows_append_eq_writeLines _ hne
      _ = writeLines (rows a) := by rw [unrows_singleton, List.append_nil]

/-- **The pieces of two texts**, the first of which ends its last row. -/
lemma pieces_append {t : Text} (h : IsWhole t) (f : Text) :
    pieces (t ++ f) = pieces t ++ pieces f := by
  obtain rfl | ⟨a, rfl⟩ := h.cases
  · rfl
  · rw [List.append_assoc, List.singleton_append]
    induction a using row_induction with
    | last a ha => rw [pieces_cons ha, pieces_cons ha, pieces, List.singleton_append]
    | row a b ha ih =>
      have hb := ih (isWhole_append_lineFeed b)
      rw [List.append_assoc, List.append_assoc, List.cons_append, List.cons_append, pieces_cons ha,
        pieces_cons ha, hb, List.cons_append]

/-- **The lines of two texts**, the first of which ends its last row. -/
lemma lines_append {t : Text} (h : IsWhole t) (f : Text) : lines (t ++ f) = lines t ++ lines f := by
  rw [lines, pieces_append h, List.map_append, lines, lines]

/-- **The lines of a text with a line feed** after it: there is another, empty line exactly if the
text ends its last row. The text must not end in a carriage return, which would be a part of the
line end.

**Proof sketch.** Induction on the rows. The line feed ends the last row if there is something in
it, and otherwise adds an empty one. -/
lemma lines_lineFeed {t : Text} (h : t.getLast? ≠ some '\r') :
    lines (t ++ ['\n']) = lines t ∨ lines (t ++ ['\n']) = lines t ++ [[]] := by
  induction t using row_induction with
  | last a ha =>
    have hline : dropLineEnd (a ++ ['\n']) = a := by
      rcases dropLineEnd_append a with he | he
      · exact he
      · rw [he] at h
        exact absurd (by simp) h
    rw [lines_cons ha, hline]
    by_cases hne : a = []
    · rw [hne]
      exact .inr rfl
    · rw [lines_eq_singleton ha hne]
      exact .inl rfl
  | row a b ha ih =>
    have hb : b.getLast? ≠ some '\r' := by
      intro hb
      rw [List.getLast?_append, List.getLast?_cons, hb] at h
      exact h rfl
    rw [List.append_assoc, List.cons_append, lines_cons ha, lines_cons ha, List.cons_append]
    exact (ih hb).imp (congrArg (_ :: ·)) (congrArg (_ :: ·))

/-- Rows are put together from two lists of rows. -/
lemma unrows_append {rs fs : List Text} (hrs : rs ≠ []) (hfs : fs ≠ []) :
    unrows (rs ++ fs) = unrows rs ++ '\n' :: unrows fs := by
  obtain ⟨f, fs, rfl⟩ := List.exists_cons_of_ne_nil hfs
  rw [unrows_append_eq_flatMap hrs, unrows_cons_eq_flatMap, List.flatMap_cons, List.cons_append]

/-! ## Line ends -/

/-- **Line ends are unified** in the text before, if no line end extends over both texts.

**Proof sketch.** A line end is two characters. Both stand in the text before or both after it, as
the text before does not end in the first of them; and after it there are none. -/
lemma unifyLineEnds_append {t : Text} (ht : t.getLast? ≠ some '\r') {f : Text} (hf : '\r' ∉ f) :
    unifyLineEnds (t ++ f) = unifyLineEnds t ++ f := by
  have hne : ['\r', '\n'] ≠ [] := by decide
  have hself : replaceMatches (literal ['\r', '\n'] ['\n']) 0 f = f :=
    replaceMatches_eq_self fun ho =>
      hf (((occurs_literal_iff hne).1 ho).subset List.mem_cons_self)
  rw [unifyLineEnds, unifyLineEnds, replace_eq_replaceMatches hne, replace_eq_replaceMatches hne]
  conv_rhs => rw [← hself]
  refine replaceMatches_append_of (fun u hu hsuffix => ?_) fun u n put => length_le_of_literal
  have hlast : u.getLast? = t.getLast? := by
    obtain ⟨a, rfl⟩ := hsuffix
    exact (List.getLast?_append_of_ne_nil a hu).symm
  obtain ⟨c, u, rfl⟩ := List.exists_cons_of_ne_nil hu
  cases u with
  | nil =>
    have hc : c ≠ '\r' := by
      rintro rfl
      exact ht hlast.symm
    simp [literal, startsWith, stripPrefix?, hc.symm]
  | cons d u =>
    -- The two characters of a line end stand in the text before.
    have hstarts : startsWith ['\r', '\n'] (c :: d :: (u ++ f)) =
        startsWith ['\r', '\n'] (c :: d :: u) := by
      rw [Bool.eq_iff_iff, startsWith_iff_prefix, startsWith_iff_prefix]
      simp [List.cons_prefix_cons]
    rw [literal, literal, List.cons_append, List.cons_append, hstarts]

/-- The last row is still ended when line ends are unified. -/
lemma isWhole_unifyLineEnds {t : Text} (h : IsWhole t) : IsWhole (unifyLineEnds t) := by
  rw [unifyLineEnds, replace_eq_replaceMatches (by decide)]
  refine (replaceMatches_rel (R := fun a b => (b = [] ↔ a = []) ∧ (IsWhole b → IsWhole a))
    ⟨.rfl, id⟩ (fun _ => ⟨by simp, id⟩) ?_ (fun u n put hr => ?_) t).2 h
  · rintro a b a' b' ⟨haNil, ha⟩ ⟨hbNil, hb⟩
    refine ⟨by rw [List.append_eq_nil_iff, List.append_eq_nil_iff, haNil, hbNil], fun hwhole => ?_⟩
    rcases b'.eq_nil_or_concat' with rfl | ⟨b', c, rfl⟩
    · rw [List.append_nil] at hwhole
      rw [hbNil.1 rfl, List.append_nil]
      exact ha hwhole
    · have hlast : IsWhole (b' ++ [c]) := by simpa [IsWhole] using hwhole
      exact (hb hlast).append fun hnil => absurd (hbNil.2 hnil) (by simp)
  · obtain ⟨rfl, htake⟩ := literal_eq_some hr
    simp [htake, IsWhole]

end Weave.Text
