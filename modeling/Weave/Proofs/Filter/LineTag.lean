import Mathlib.Data.List.Infix
import Weave.Filter.LineTag
import Weave.Proofs.Text.Rows

set_option autoImplicit false
set_option relaxedAutoImplicit false

/-!
# Keeping lines

For a target a line is kept whole, kept in part or left out. It is kept whole if there is no tag at
either end of it, and also if a tag that admits the target is not separated from the rest of it.

## Main definitions

* `Weave.LineTag.Stays` — a line is kept whole.

## Main results

* `Weave.LineTag.keepLine_eq_some_self_iff` — `Stays` says when a line is kept whole.
* `Weave.LineTag.keep_sublist` — keeping takes away and adds nothing.
* `Weave.LineTag.keep_eq_self_iff` — a text is left as it is if every line is kept whole.
-/

namespace Weave.LineTag

/-- **A line is kept whole.** It has no tag; or it begins or ends with a tag that admits the target
and that no blank separates from the rest. A tag that is not separated at the beginning hides all
tags at the end but the one for no target. -/
inductive Stays (target : Target) (line : Text) : Prop where
  | untagged (none_ : ∀ p ∈ Marker.lineTags, ¬ p.1 <+: line ∧ ¬ p.1 <:+ line)
  | gluedFirst (tag : Text) (marker : Marker) (c : Char) (rest : Text)
      (mem : (tag, marker) ∈ Marker.lineTags) (admits : marker.admits target = true)
      (eq : line = tag ++ c :: rest) (glued : c ≠ ' ') (last : ¬ neverTag <:+ line)
  | gluedLast (tag : Text) (marker : Marker) (c : Char) (rest : Text)
      (mem : (tag, marker) ∈ Marker.lineTags) (admits : marker.admits target = true)
      (eq : line = rest ++ c :: tag) (glued : c ≠ ' ')
      (first : ∀ p ∈ Marker.lineTags, ¬ p.1 <+: line)

/-! ## The tags of a line -/

/-- No tag begins with another one. -/
lemma eq_of_prefix {line : Text} {p q : Text × Marker} (hp : p ∈ Marker.lineTags)
    (hq : q ∈ Marker.lineTags) (hpl : p.1 <+: line) (hql : q.1 <+: line) : p = q := by
  have hnone : ∀ p ∈ Marker.lineTags, ∀ q ∈ Marker.lineTags, p.1 <+: q.1 → p = q := by decide
  rcases List.prefix_or_prefix_of_prefix hpl hql with h | h
  · exact hnone p hp q hq h
  · exact (hnone q hq p hp h).symm

/-- No tag ends with another one. -/
lemma eq_of_suffix {line : Text} {p q : Text × Marker} (hp : p ∈ Marker.lineTags)
    (hq : q ∈ Marker.lineTags) (hpl : p.1 <:+ line) (hql : q.1 <:+ line) : p = q := by
  have hnone : ∀ p ∈ Marker.lineTags, ∀ q ∈ Marker.lineTags, p.1 <:+ q.1 → p = q := by decide
  rcases List.suffix_or_suffix_of_suffix hpl hql with h | h
  · exact hnone p hp q hq h
  · exact (hnone q hq p hp h).symm

/-- A line has one tag at the most, so the tag that is found is any tag that it has.

**Proof sketch.** `strip` reads a tag at one end of a line. Some tag is found, as there is one; and
it is the same one, as only one tag can be read. -/
lemma findSome?_eq_some_iff (strip : Text → Option Text) (peeled : Text → Option Text)
    (hunique : ∀ p ∈ Marker.lineTags, ∀ q ∈ Marker.lineTags,
      (strip p.1).isSome → (strip q.1).isSome → p = q) {marker : Marker} {rest? : Option Text} :
    (Marker.lineTags.findSome? fun (tag, marker) =>
        (strip tag).map fun rest => (marker, peeled rest)) = some (marker, rest?) ↔
      ∃ tag rest, (tag, marker) ∈ Marker.lineTags ∧ strip tag = some rest ∧
        rest? = peeled rest := by
  constructor
  · intro h
    obtain ⟨⟨tag, m⟩, hmem, h⟩ := List.exists_of_findSome?_eq_some h
    simp only [Option.map_eq_some_iff, Prod.mk.injEq] at h
    obtain ⟨rest, hrest, rfl, rfl⟩ := h
    exact ⟨tag, rest, hmem, hrest, rfl⟩
  · rintro ⟨tag, rest, hmem, hrest, rfl⟩
    have hfound : (Marker.lineTags.findSome? fun (tag, marker) =>
        (strip tag).map fun rest => (marker, peeled rest)).isSome := by
      rw [List.isSome_findSome?, List.any_eq_true]
      exact ⟨(tag, marker), hmem, by simp [hrest]⟩
    obtain ⟨found, hfound⟩ := Option.isSome_iff_exists.1 hfound
    obtain ⟨⟨tag', m⟩, hmem', h⟩ := List.exists_of_findSome?_eq_some hfound
    simp only [Option.map_eq_some_iff] at h
    obtain ⟨rest', hrest', rfl⟩ := h
    cases hunique _ hmem _ hmem' (by simp [hrest]) (by simp [hrest'])
    cases hrest.symm.trans hrest'
    exact hfound

/-- **The tag at the beginning** of a line. -/
lemma leading?_eq_some_iff {line : Text} {marker : Marker} {rest? : Option Text} :
    leading? line = some (marker, rest?) ↔
      ∃ tag rest, (tag, marker) ∈ Marker.lineTags ∧ line = tag ++ rest ∧ rest? = afterTag rest := by
  simp only [← Text.stripPrefix?_eq_some_iff]
  refine findSome?_eq_some_iff (Text.stripPrefix? · line) afterTag fun p hp q hq hpl hql => ?_
  exact eq_of_prefix hp hq (Text.startsWith_iff_prefix.1 hpl) (Text.startsWith_iff_prefix.1 hql)

/-- **The tag at the end** of a line. -/
lemma trailing?_eq_some_iff {line : Text} {marker : Marker} {rest? : Option Text} :
    trailing? line = some (marker, rest?) ↔
      ∃ tag rest, (tag, marker) ∈ Marker.lineTags ∧ line = rest ++ tag ∧
        rest? = beforeTag rest := by
  simp only [← Text.stripSuffix?_eq_some_iff]
  refine findSome?_eq_some_iff (Text.stripSuffix? · line) beforeTag fun p hp q hq hpl hql => ?_
  exact eq_of_suffix hp hq (Text.endsWith_iff_suffix.1 hpl) (Text.endsWith_iff_suffix.1 hql)

/-- There is no tag at the beginning. -/
lemma leading?_eq_none_iff {line : Text} :
    leading? line = none ↔ ∀ p ∈ Marker.lineTags, ¬ p.1 <+: line := by
  rw [leading?, List.findSome?_eq_none_iff]
  refine forall₂_congr fun p _ => ?_
  rw [Option.map_eq_none_iff, Text.stripPrefix?_eq_none_iff]

/-- There is no tag at the end. -/
lemma trailing?_eq_none_iff {line : Text} :
    trailing? line = none ↔ ∀ p ∈ Marker.lineTags, ¬ p.1 <:+ line := by
  rw [trailing?, List.findSome?_eq_none_iff]
  refine forall₂_congr fun p _ => ?_
  rw [Option.map_eq_none_iff, Text.stripSuffix?_eq_none_iff]

/-- **The tag to be peeled off next** is the one at the beginning, or, if there is none, the one at
the end. -/
lemma outermost?_eq_some_iff {line : Text} {marker : Marker} {rest? : Option Text} :
    outermost? line = some (marker, rest?) ↔
      (∃ tag rest, (tag, marker) ∈ Marker.lineTags ∧ line = tag ++ rest ∧
        rest? = afterTag rest) ∨
      leading? line = none ∧ ∃ tag rest, (tag, marker) ∈ Marker.lineTags ∧ line = rest ++ tag ∧
        rest? = beforeTag rest := by
  rw [outermost?, Option.or_eq_some_iff, leading?_eq_some_iff, trailing?_eq_some_iff]

/-- A tag at the beginning is the next one. -/
lemma outermost?_tag_append {tag : Text} {marker : Marker} (h : (tag, marker) ∈ Marker.lineTags)
    (rest : Text) : outermost? (tag ++ rest) = some (marker, afterTag rest) :=
  outermost?_eq_some_iff.2 (.inl ⟨tag, rest, h, rfl, rfl⟩)

/-- A tag at the end is the next one if there is none at the beginning. -/
lemma outermost?_append_tag {tag rest : Text} {marker : Marker}
    (h : (tag, marker) ∈ Marker.lineTags) (hnone : leading? (rest ++ tag) = none) :
    outermost? (rest ++ tag) = some (marker, beforeTag rest) :=
  outermost?_eq_some_iff.2 (.inr ⟨hnone, tag, rest, h, rfl, rfl⟩)

/-- There is no tag at either end. -/
lemma outermost?_eq_none_iff {line : Text} :
    outermost? line = none ↔ ∀ p ∈ Marker.lineTags, ¬ p.1 <+: line ∧ ¬ p.1 <:+ line := by
  rw [outermost?, Option.or_eq_none_iff, leading?_eq_none_iff, trailing?_eq_none_iff]
  exact forall₂_and.symm

/-- A tag at the beginning cannot be peeled off if another character than a blank follows it. -/
lemma afterTag_eq_none_iff {rest : Text} :
    afterTag rest = none ↔ ∃ c more, rest = c :: more ∧ c ≠ ' ' := by
  unfold afterTag
  split
  next => simp
  next => simp
  next hnil hblank =>
    cases rest with
    | nil => exact absurd rfl hnil
    | cons c more =>
      refine iff_of_true rfl ⟨c, more, rfl, ?_⟩
      rintro rfl
      exact hblank more rfl

/-- A tag at the end cannot be peeled off if another character than a blank precedes it. -/
lemma beforeTag_eq_none_iff {rest : Text} :
    beforeTag rest = none ↔ ∃ c more, rest = more ++ [c] ∧ c ≠ ' ' := by
  unfold beforeTag
  split
  next h => simp [h]
  next h =>
    rw [Option.eq_none_iff_forall_ne_some]
    constructor
    · intro hnone
      refine ⟨rest.getLast h, rest.dropLast, (List.dropLast_append_getLast h).symm, fun hc => ?_⟩
      refine hnone rest.dropLast (Text.stripSuffix?_eq_some_iff.2 ?_)
      rw [← hc, List.dropLast_append_getLast h]
    · rintro ⟨c, more, rfl, hc⟩ body hbody
      rw [Text.stripSuffix?_eq_some_iff] at hbody
      exact hc (by simpa using (List.append_inj' hbody rfl).2)

/-! ## One line -/

/-- Peeling goes on as long as the next tag admits the target and can be peeled off. -/
lemma peel_eq (target : Target) (line : Text) :
    peel target line =
      match outermost? line with
      | none => some line
      | some (marker, none) => if marker.admits target then some line else none
      | some (marker, some rest) => if marker.admits target then peel target rest else none := by
  rw [peel]
  split <;> simp_all

/-- What is left when a tag is peeled off is one end of the line: the end if there is a tag at the
beginning, and else the beginning. -/
lemma suffix_or_prefix_of_outermost? {line rest : Text} {marker : Marker}
    (h : outermost? line = some (marker, some rest)) :
    leading? line ≠ none ∧ rest <:+ line ∨ leading? line = none ∧ rest <+: line := by
  rcases outermost?_eq_some_iff.1 h with
    ⟨tag, body, hmem, rfl, hpeeled⟩ | ⟨hnone, tag, body, -, rfl, hpeeled⟩
  · refine .inl ⟨fun hnone => ?_, List.IsSuffix.trans ?_ (List.suffix_append tag body)⟩
    · exact leading?_eq_none_iff.1 hnone _ hmem (List.prefix_append tag body)
    · unfold afterTag at hpeeled
      split at hpeeled <;> simp_all
  · refine .inr ⟨hnone, List.IsPrefix.trans ?_ (List.prefix_append body tag)⟩
    unfold beforeTag at hpeeled
    split at hpeeled
    next h => simp_all
    next => exact ⟨[' '], (Text.stripSuffix?_eq_some_iff.1 hpeeled.symm).symm⟩

/-- What is left when a tag is peeled off is a part of the line. -/
lemma sublist_of_outermost? {line rest : Text} {marker : Marker}
    (h : outermost? line = some (marker, some rest)) : rest.Sublist line := by
  rcases suffix_or_prefix_of_outermost? h with ⟨-, h⟩ | ⟨-, h⟩
  · exact h.sublist
  · exact h.sublist

/-- **Peeling takes away** and adds nothing.

**Proof sketch.** By the recursion of `peel`: each round takes a tag away, or gives up, or leaves
the line as it is. -/
lemma peel_sublist {target : Target} {line kept : Text} (h : peel target line = some kept) :
    kept.Sublist line := by
  induction line using peel.induct target with
  | case1 line hnone =>
    rw [peel_eq, hnone] at h
    exact Option.some.inj h ▸ .refl line
  | case2 line marker hglued hadmits =>
    rw [peel_eq, hglued] at h
    simp only [hadmits, if_true, Option.some.injEq] at h
    exact h ▸ .refl line
  | case3 line marker hglued hadmits =>
    rw [peel_eq, hglued] at h
    simp [hadmits] at h
  | case4 line marker rest hpeeled hadmits ih =>
    rw [peel_eq, hpeeled] at h
    simp only [hadmits, if_true] at h
    exact (ih h).trans (sublist_of_outermost? hpeeled)
  | case5 line marker rest hpeeled hadmits =>
    rw [peel_eq, hpeeled] at h
    simp [hadmits] at h

/-- Nothing is peeled off exactly if there is no tag, or one that admits the target and cannot be
peeled off. -/
lemma peel_eq_some_self_iff {target : Target} {line : Text} :
    peel target line = some line ↔
      outermost? line = none ∨
        ∃ marker, outermost? line = some (marker, none) ∧ marker.admits target = true := by
  rw [peel_eq]
  cases h : outermost? line with
  | none => simp
  | some found =>
    obtain ⟨marker, rest?⟩ := found
    cases rest? with
    | none => simp
    | some rest =>
      have hpeel : peel target rest ≠ some line := fun hrest => by
        have hle := (peel_sublist hrest).length_le
        have hlt := outermost?_length h
        omega
      simp [hpeel]

/-- **What is kept of a line** is what peeling leaves of it, unless the line begins or ends with the
tag for no target. -/
lemma keepLine_eq_some_iff {target : Target} {line kept : Text} :
    keepLine target line = some kept ↔
      (¬ neverTag <+: line ∧ ¬ neverTag <:+ line) ∧ peel target line = some kept := by
  rw [keepLine, ← Text.startsWith_iff_prefix, ← Text.endsWith_iff_suffix]
  cases Text.startsWith neverTag line <;> cases Text.endsWith neverTag line <;> simp

/-- **A line is kept whole** exactly if it stays.

**Proof sketch.** A line that stays is not left out at once: a tag at its beginning or end that
admits the target is not the one for no target. Otherwise the two say the same of the tag that is to
be peeled off next. -/
theorem keepLine_eq_some_self_iff {target : Target} {line : Text} :
    keepLine target line = some line ↔ Stays target line := by
  have hnever : (neverTag, Marker.never) ∈ Marker.lineTags := by decide
  rw [keepLine_eq_some_iff, peel_eq_some_self_iff]
  constructor
  · rintro ⟨⟨-, hlast⟩, hnone | ⟨marker, hglued, hadmits⟩⟩
    · exact .untagged (outermost?_eq_none_iff.1 hnone)
    · rcases outermost?_eq_some_iff.1 hglued with
        ⟨tag, rest, hmem, hline, hrest⟩ | ⟨hnone, tag, rest, hmem, hline, hrest⟩
      · obtain ⟨c, more, rfl, hc⟩ := afterTag_eq_none_iff.1 hrest.symm
        exact .gluedFirst tag marker c more hmem hadmits hline hc hlast
      · obtain ⟨c, more, rfl, hc⟩ := beforeTag_eq_none_iff.1 hrest.symm
        exact .gluedLast tag marker c more hmem hadmits (by simp [hline]) hc
          (leading?_eq_none_iff.1 hnone)
  · intro h
    cases h with
    | untagged hnone => exact ⟨hnone _ hnever, .inl (outermost?_eq_none_iff.2 hnone)⟩
    | gluedFirst tag marker c rest hmem hadmits hline hc hlast =>
      refine ⟨⟨fun hfirst => ?_, hlast⟩, .inr ⟨marker, ?_, hadmits⟩⟩
      · cases eq_of_prefix hnever hmem hfirst ⟨c :: rest, hline.symm⟩
        cases hadmits
      · rw [hline, outermost?_tag_append hmem, afterTag_eq_none_iff.2 ⟨c, rest, rfl, hc⟩]
    | gluedLast tag marker c rest hmem hadmits hline hc hfirst =>
      have hline' : line = (rest ++ [c]) ++ tag := by simp [hline]
      refine ⟨⟨hfirst _ hnever, fun hlast => ?_⟩, .inr ⟨marker, ?_, hadmits⟩⟩
      · cases eq_of_suffix hnever hmem hlast ⟨rest ++ [c], hline'.symm⟩
        cases hadmits
      · have hnone : leading? line = none := leading?_eq_none_iff.2 hfirst
        rw [hline'] at hnone ⊢
        rw [outermost?_append_tag hmem hnone, beforeTag_eq_none_iff.2 ⟨c, rest, rfl, hc⟩]

/-! ## A whole text -/

/-- What is kept of a line is a part of it. -/
lemma keepLine_sublist {target : Target} {line kept : Text} (h : keepLine target line = some kept) :
    kept.Sublist line :=
  peel_sublist (keepLine_eq_some_iff.1 h).2

/-- An empty line is kept. -/
lemma keepLine_nil (target : Target) : keepLine target [] = some [] :=
  keepLine_eq_some_self_iff.2 (.untagged (by decide))

/-- A line with its line feed is kept as the line is. -/
lemma keepPiece_append (target : Target) (line : Text) :
    keepPiece target (line ++ ['\n']) = ((keepLine target line).map (· ++ ['\n'])).getD [] := by
  have h : Text.stripSuffix? ['\n'] (line ++ ['\n']) = some line :=
    Text.stripSuffix?_eq_some_iff.2 rfl
  rw [keepPiece, h]

/-- A line without a line feed is kept as the line is. -/
lemma keepPiece_of_not_mem {line : Text} (h : '\n' ∉ line) (target : Target) :
    keepPiece target line = (keepLine target line).getD [] := by
  unfold keepPiece
  split
  next body hb =>
    rw [Text.stripSuffix?_eq_some_iff] at hb
    exact absurd (by simp [hb]) h
  next => rfl

/-- A last line is kept as it is. -/
lemma keep_of_not_mem {line : Text} (h : '\n' ∉ line) (target : Target) :
    keep target line = (keepLine target line).getD [] := by
  by_cases hne : line = []
  · rw [hne, keepLine_nil]
    rfl
  · rw [keep, Text.pieces_eq_singleton h hne, List.flatMap_singleton, keepPiece_of_not_mem h]

/-- A first line is kept on its own. -/
lemma keep_cons {line : Text} (h : '\n' ∉ line) (target : Target) (t : Text) :
    keep target (line ++ '\n' :: t) =
      ((keepLine target line).map (· ++ ['\n'])).getD [] ++ keep target t := by
  rw [keep, Text.pieces_cons h, List.flatMap_cons, keepPiece_append, keep]

/-- **Keeping takes away** and adds nothing. -/
theorem keep_sublist (target : Target) (t : Text) : (keep target t).Sublist t := by
  induction t using Text.row_induction with
  | last a ha =>
    rw [keep_of_not_mem ha]
    cases h : keepLine target a with
    | none => exact List.nil_sublist a
    | some kept => exact keepLine_sublist h
  | row a b ha ih =>
    rw [keep_cons ha, List.append_cons]
    refine List.Sublist.append ?_ ih
    cases h : keepLine target a with
    | none => exact List.nil_sublist _
    | some kept => exact (keepLine_sublist h).append (.refl _)

/-- **A text is left as it is** exactly if every line is kept whole.

**Proof sketch.** By lines. No line gets longer, so if the text is left as it is, then no line gets
shorter. -/
theorem keep_eq_self_iff {target : Target} {t : Text} :
    keep target t = t ↔ ∀ r ∈ Text.rows t, Stays target r := by
  simp only [← keepLine_eq_some_self_iff]
  induction t using Text.row_induction with
  | last a ha =>
    rw [keep_of_not_mem ha, Text.rows_eq_singleton ha, List.forall_mem_singleton]
    cases h : keepLine target a with
    | none =>
      refine iff_of_false (fun hnil => ?_) (Option.some_ne_none a ∘ Eq.symm)
      rw [← show [] = a from hnil, keepLine_nil] at h
      cases h
    | some kept => simp
  | row a b ha ih =>
    rw [keep_cons ha, Text.rows_cons ha, List.forall_mem_cons, ← ih, List.append_cons]
    constructor
    · intro h
      have hfirst : (((keepLine target a).map (· ++ ['\n'])).getD []).length ≤
          (a ++ ['\n']).length := by
        cases hkept : keepLine target a with
        | none => simp
        | some kept => simpa using (keepLine_sublist hkept).length_le
      have hrest := (keep_sublist target b).length_le
      have hlength := congrArg List.length h
      rw [List.length_append, List.length_append] at hlength
      obtain ⟨hline, hkeep⟩ := List.append_inj h (by omega)
      refine ⟨?_, hkeep⟩
      cases hkept : keepLine target a with
      | none => simp [hkept] at hline
      | some kept => simpa [hkept] using hline
    · rintro ⟨hline, hkeep⟩
      simp [hline, hkeep]

end Weave.LineTag
