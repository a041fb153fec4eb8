import Weave.Proofs.Filter.LineTag

set_option autoImplicit false
set_option relaxedAutoImplicit false

/-!
# Tags and targets

Which tags are peeled off a line, and what is left of it, does not depend on the target: the target
only says whether the line is kept. So all targets that keep a line keep the same of it, and what
they keep is kept whole the second time.

A tag that excludes the target leaves the line out if it stands at the beginning. At the end it does
so only if peeling gets there: tags at the beginning are peeled off first, and one that no blank
separates from the rest of the line ends the peeling and hides what stands at the end.

## Main definitions

* `Weave.LineTag.Unwraps` — the tags of a line and what is left of it without them.
* `Weave.LineTag.HidesEnd` — the beginning of a line hides its end.

## Main results

* `Weave.LineTag.Unwraps.peel_eq` — a line is kept if the target is admitted by all of its tags.
* `Weave.LineTag.keepLine_keepLine` — what is kept of a line is kept whole.
* `Weave.LineTag.keep_keep` — keeping the lines of a text twice is keeping them once.
* `Weave.LineTag.targets_keep_alike` — all of this for all targets.
* `Weave.LineTag.keepLine_eq_none_of_excluding` — when a line that a tag excludes is left out.
* `Weave.LineTag.keepLine_ne_none_hiddenTag` — that it need not be left out.
-/

namespace Weave.LineTag

variable {target : Target} {line residue : Text} {marker : Marker} {markers : List Marker}

/-! ## What the target does not change -/

/-- **How a line is unwrapped**: the tags that have their say, from the outside, and what is left of
the line in the end. A tag that cannot be peeled off is the last one. -/
inductive Unwraps : Text → List Marker → Text → Prop
  | bare {line : Text} (next : outermost? line = none) : Unwraps line [] line
  | stuck {line : Text} {marker : Marker} (next : outermost? line = some (marker, none)) :
      Unwraps line [marker] line
  | peeled {line rest residue : Text} {marker : Marker} {markers : List Marker}
      (next : outermost? line = some (marker, some rest)) (inner : Unwraps rest markers residue) :
      Unwraps line (marker :: markers) residue

/-- Every line can be unwrapped. -/
lemma exists_unwraps (line : Text) : ∃ markers residue, Unwraps line markers residue := by
  induction hn : line.length using Nat.strongRecOn generalizing line with
  | ind n ih =>
    cases hnext : outermost? line with
    | none => exact ⟨[], line, .bare hnext⟩
    | some found =>
      obtain ⟨marker, rest?⟩ := found
      cases rest? with
      | none => exact ⟨[marker], line, .stuck hnext⟩
      | some rest =>
        obtain ⟨markers, residue, hinner⟩ := ih rest.length (hn ▸ outermost?_length hnext) rest rfl
        exact ⟨marker :: markers, residue, .peeled hnext hinner⟩

/-- **A line is kept** if the target is admitted by all of its tags, and what is left without them
is kept of it. -/
theorem Unwraps.peel_eq (h : Unwraps line markers residue) (target : Target) :
    peel target line = if markers.all (Marker.admits target) then some residue else none := by
  induction h with
  | bare hnext =>
    rw [LineTag.peel_eq, hnext]
    rfl
  | @stuck line marker hnext =>
    rw [LineTag.peel_eq, hnext]
    simp
  | @peeled line rest residue marker markers hnext hinner ih =>
    rw [LineTag.peel_eq, hnext]
    cases hadmits : marker.admits target <;> simp [hadmits, ih]

/-- No tag can be peeled off what is left in the end. -/
lemma Unwraps.outermost?_residue (h : Unwraps line markers residue) :
    outermost? residue = none ∨ ∃ marker ∈ markers, outermost? residue = some (marker, none) := by
  induction h with
  | bare hnext => exact .inl hnext
  | @stuck line marker hnext => exact .inr ⟨marker, List.mem_cons_self, hnext⟩
  | peeled hnext hinner ih =>
    refine ih.imp_right ?_
    rintro ⟨marker, hmem, hresidue⟩
    exact ⟨marker, List.mem_cons_of_mem _ hmem, hresidue⟩

/-- **Peeling uncovers no tag for no target** at the end of a line that begins with a tag: tags at
the beginning leave the end as it is, and those at the end are peeled off only if there is none at
the beginning. -/
lemma Unwraps.not_neverTag_suffix (h : Unwraps line markers residue)
    (hline : leading? line ≠ none → ¬ neverTag <:+ line) :
    leading? residue ≠ none → ¬ neverTag <:+ residue := by
  induction h with
  | bare hnext => exact hline
  | stuck hnext => exact hline
  | @peeled line rest residue marker markers hnext hinner ih =>
    refine ih fun hrest => ?_
    rcases suffix_or_prefix_of_outermost? hnext with ⟨hsome, hsuffix⟩ | ⟨hnone, hprefix⟩
    · exact fun hlast => hline hsome (hlast.trans hsuffix)
    · refine absurd (leading?_eq_none_iff.2 fun p hp hfirst => ?_) hrest
      exact leading?_eq_none_iff.1 hnone p hp (hfirst.trans hprefix)

/-- The tag for no target has its say at the beginning of a line, and at the end of one that begins
with no tag. -/
lemma exists_outermost?_never
    (h : neverTag <+: line ∨ leading? line = none ∧ neverTag <:+ line) :
    ∃ rest?, outermost? line = some (.never, rest?) := by
  have hmem : (neverTag, Marker.never) ∈ Marker.lineTags := by decide
  rcases h with ⟨rest, rfl⟩ | ⟨hnone, rest, rfl⟩
  · exact ⟨afterTag rest, outermost?_tag_append hmem rest⟩
  · exact ⟨beforeTag rest, outermost?_append_tag hmem hnone⟩

/-- **What is left of a line is kept whole** for every target that its tags admit.

**Proof sketch.** What is left has no tag that can be peeled off, and a tag that has its say admits
the target. So this is not the tag for no target; and that one cannot be hidden at the end either,
as it has not been there before. -/
lemma Unwraps.keepLine_residue (h : Unwraps line markers residue) (hlast : ¬ neverTag <:+ line)
    (hadmits : markers.all (Marker.admits target) = true) :
    keepLine target residue = some residue := by
  rw [List.all_eq_true] at hadmits
  have hnever (rest? : Option Text) : outermost? residue ≠ some (.never, rest?) := by
    intro hnext
    rcases h.outermost?_residue with hnone | ⟨marker, hmem, hstuck⟩
    · rw [hnone] at hnext
      cases hnext
    · rw [hstuck] at hnext
      cases hnext
      exact absurd (hadmits .never hmem) (by simp [Marker.admits])
  have hends : ¬ neverTag <+: residue ∧ ¬ neverTag <:+ residue := by
    constructor
    · intro hfirst
      obtain ⟨rest?, hnext⟩ := exists_outermost?_never (.inl hfirst)
      exact hnever rest? hnext
    · by_cases hnone : leading? residue = none
      · intro hresidue
        obtain ⟨rest?, hnext⟩ := exists_outermost?_never (.inr ⟨hnone, hresidue⟩)
        exact hnever rest? hnext
      · exact h.not_neverTag_suffix (fun _ => hlast) hnone
  refine keepLine_eq_some_iff.2 ⟨hends, peel_eq_some_self_iff.2 ?_⟩
  refine h.outermost?_residue.imp_right ?_
  rintro ⟨marker, hmem, hstuck⟩
  exact ⟨marker, hstuck, hadmits marker hmem⟩

/-- What is kept of a line is what is left without its tags. -/
lemma Unwraps.eq_residue (h : Unwraps line markers residue) {kept : Text}
    (hkept : keepLine target line = some kept) :
    markers.all (Marker.admits target) = true ∧ kept = residue := by
  have hpeel := (keepLine_eq_some_iff.1 hkept).2
  rw [h.peel_eq] at hpeel
  split at hpeel
  next hadmits => exact ⟨hadmits, (Option.some.inj hpeel).symm⟩
  next => cases hpeel

/-- **What is kept of a line is kept whole** the second time. -/
theorem keepLine_keepLine {kept : Text} (h : keepLine target line = some kept) :
    keepLine target kept = some kept := by
  obtain ⟨markers, residue, hunwraps⟩ := exists_unwraps line
  obtain ⟨hadmits, rfl⟩ := hunwraps.eq_residue h
  exact hunwraps.keepLine_residue (keepLine_eq_some_iff.1 h).1.2 hadmits

/-- All targets that keep a line keep the same of it. -/
lemma eq_of_keepLine {target' : Target} {kept kept' : Text} (h : keepLine target line = some kept)
    (h' : keepLine target' line = some kept') : kept = kept' := by
  obtain ⟨markers, residue, hunwraps⟩ := exists_unwraps line
  exact (hunwraps.eq_residue h).2.trans (hunwraps.eq_residue h').2.symm

/-- **Keeping the lines of a text twice** is keeping them once.

**Proof sketch.** Induction on the rows. A row that is kept stays a row, as it loses characters
only, and is kept whole (`keepLine_keepLine`). -/
theorem keep_keep (target : Target) (t : Text) : keep target (keep target t) = keep target t := by
  have hmem {a kept : Text} (ha : '\n' ∉ a) (hkept : keepLine target a = some kept) : '\n' ∉ kept :=
    fun h => ha ((keepLine_sublist hkept).subset h)
  induction t using Text.row_induction with
  | last a ha =>
    rw [keep_of_not_mem ha]
    cases hkept : keepLine target a with
    | none => rfl
    | some kept =>
      rw [Option.getD_some, keep_of_not_mem (hmem ha hkept), keepLine_keepLine hkept,
        Option.getD_some]
  | row a b ha ih =>
    rw [keep_cons ha]
    cases hkept : keepLine target a with
    | none => exact ih
    | some kept =>
      have hline : ((some kept).map (· ++ ['\n'])).getD [] ++ keep target b =
          kept ++ '\n' :: keep target b := by simp
      rw [hline, keep_cons (hmem ha hkept), keepLine_keepLine hkept, ih, hline]

/-- **The target only says whether a line is kept.** A line that neither begins nor ends with the
tag for no target has tags and a rest; a target keeps the rest if all the tags admit it, and keeps
nothing else, and the rest is kept whole. So all targets that keep a line keep the same of it, and
keeping the lines of a text twice is keeping them once.

**Proof sketch.** The tags of a line are peeled off from the outside whatever the target is
(`exists_unwraps`), and the target only says whether each of them admits it (`Unwraps.peel_eq`). The
rest has no tag, so it is kept whole (`keepLine_keepLine`). -/
theorem targets_keep_alike :
    (∀ line, ¬ neverTag <+: line → ¬ neverTag <:+ line →
      ∃ markers residue, Unwraps line markers residue ∧
        (∀ target, keepLine target line =
          if markers.all (Marker.admits target) then some residue else none) ∧
        ∀ target, keepLine target line = some residue →
          keepLine target residue = some residue) ∧
      (∀ line target target' kept kept', keepLine target line = some kept →
        keepLine target' line = some kept' → kept = kept') ∧
      ∀ target t, keep target (keep target t) = keep target t := by
  refine ⟨fun line hfirst hlast => ?_, fun _ _ _ _ _ => eq_of_keepLine, keep_keep⟩
  obtain ⟨markers, residue, hunwraps⟩ := exists_unwraps line
  refine ⟨markers, residue, hunwraps, fun target => ?_, fun target => keepLine_keepLine⟩
  rw [← hunwraps.peel_eq]
  refine Option.ext fun kept => ?_
  rw [keepLine_eq_some_iff]
  exact and_iff_right ⟨hfirst, hlast⟩

/-- A line with a tag at either end, which two targets keep. -/
theorem targets_keep_alike_bothEnds :
    let line := "#!md x = 1 #!md".toList
    (¬ neverTag <+: line ∧ ¬ neverTag <:+ line) ∧
      ∃ markers residue, Unwraps line markers residue ∧
        (∀ target, keepLine target line =
          if markers.all (Marker.admits target) then some residue else none) ∧
        (keepLine .script line = some residue ∧ keepLine .script residue = some residue) ∧
        keepLine .notebook line = some residue := by
  intro line
  have hends : ¬ neverTag <+: line ∧ ¬ neverTag <:+ line := by decide
  have hscript : keepLine .script line = some "x = 1".toList := by decide +kernel
  have hnotebook : keepLine .notebook line = some "x = 1".toList := by decide +kernel
  obtain ⟨hlines, hsame, -⟩ := targets_keep_alike
  obtain ⟨markers, residue, hunwraps, hkeep, hagain⟩ := hlines line hends.1 hends.2
  have hresidue : "x = 1".toList = residue := (hunwraps.eq_residue hscript).2
  rw [hresidue] at hscript
  obtain rfl := hsame line .script .notebook residue "x = 1".toList hscript hnotebook
  exact ⟨hends, markers, _, hunwraps, hkeep, ⟨hscript, hagain .script hscript⟩, hnotebook⟩

/-! ## Tags that exclude the target -/

/-- **The beginning of a line hides its end** from a target: the line begins with tags that admit
the target, and no blank separates the last of them from the rest. -/
inductive HidesEnd (target : Target) : Text → Prop
  | glued {tag : Text} {marker : Marker} {c : Char} {rest : Text}
      (mem : (tag, marker) ∈ Marker.lineTags) (admits : marker.admits target = true)
      (glued : c ≠ ' ') : HidesEnd target (tag ++ c :: rest)
  | behind {tag : Text} {marker : Marker} {rest : Text} (mem : (tag, marker) ∈ Marker.lineTags)
      (admits : marker.admits target = true) (hides : HidesEnd target rest) :
      HidesEnd target (tag ++ ' ' :: rest)

/-- **A line ends with a tag** that is all of it or that a blank separates from the rest. -/
def EndsWithTag (tag line : Text) : Prop :=
  line = tag ∨ ' ' :: tag <:+ line

variable {tag : Text}

/-- A line that ends with a tag has it as a suffix. -/
lemma EndsWithTag.suffix (h : EndsWithTag tag line) : tag <:+ line := by
  rcases h with rfl | h
  · exact List.suffix_refl line
  · exact (List.suffix_cons ' ' tag).trans h

/-- A tag at the end is still there when another one is peeled off at the beginning. -/
lemma EndsWithTag.of_peeled {p q : Text × Marker} {rest : Text} (hp : p ∈ Marker.lineTags)
    (hq : q ∈ Marker.lineTags) (hne : p ≠ q) (h : EndsWithTag p.1 (q.1 ++ ' ' :: rest)) :
    EndsWithTag p.1 rest := by
  rcases h with hall | hlast
  · have heq : p = q := eq_of_prefix hp hq (by rw [hall]) (List.prefix_append q.1 _)
    exact absurd heq hne
  · rcases List.suffix_or_suffix_of_suffix hlast (List.suffix_append q.1 (' ' :: rest)) with h | h
    · exact (List.suffix_cons_iff.1 h).imp_left fun heq => (List.cons.inj heq).2.symm
    · rcases List.suffix_cons_iff.1 h with heq | hblank
      · exact .inl (List.cons.inj heq).2
      · have hnone : ∀ p ∈ Marker.lineTags, ' ' ∉ p.1 := by decide
        exact absurd (hblank.subset List.mem_cons_self) (hnone p hp)

/-- If the next tag excludes the target, then the line is left out. -/
lemma peel_eq_none_of_outermost? {rest? : Option Text}
    (h : outermost? line = some (marker, rest?)) (hexcludes : marker.admits target = false) :
    peel target line = none := by
  rw [peel_eq, h]
  cases rest? <;> simp [hexcludes]

/-- **What the beginning hides** is not looked at, so the line is kept. -/
lemma HidesEnd.peel_ne_none (h : HidesEnd target line) : peel target line ≠ none := by
  induction h with
  | @glued tag marker c rest hmem hadmits hglued =>
    rw [peel_eq, outermost?_tag_append hmem, afterTag_eq_none_iff.2 ⟨c, rest, rfl, hglued⟩]
    simp [hadmits]
  | @behind tag marker rest hmem hadmits hides ih =>
    rw [peel_eq, outermost?_tag_append hmem]
    simpa [afterTag, hadmits] using ih

/-- **A tag at the end that excludes the target** leaves the line out, if the beginning does not
hide it.

**Proof sketch.** Along the peeling. A tag at the beginning leaves the line out, or admits the
target and is peeled off, as it would hide the end otherwise. When none is left at the beginning the
tag at the end has its say. -/
lemma peel_eq_none_of_endsWithTag (hmem : (tag, marker) ∈ Marker.lineTags)
    (hexcludes : marker.admits target = false) (hends : EndsWithTag tag line)
    (hhides : ¬ HidesEnd target line) : peel target line = none := by
  induction hn : line.length using Nat.strongRecOn generalizing line with
  | ind n ih =>
    cases hfirst : leading? line with
    | none =>
      obtain ⟨rest, rfl⟩ := hends.suffix
      exact peel_eq_none_of_outermost? (outermost?_append_tag hmem hfirst) hexcludes
    | some found =>
      obtain ⟨marker', rest?⟩ := found
      obtain ⟨tag', body, hmem', rfl, -⟩ := leading?_eq_some_iff.1 hfirst
      have hnext : outermost? (tag' ++ body) = some (marker', afterTag body) :=
        outermost?_tag_append hmem' body
      cases hadmits : marker'.admits target with
      | false => exact peel_eq_none_of_outermost? hnext hadmits
      | true =>
        have hne : (tag, marker) ≠ (tag', marker') := by
          rintro heq
          cases heq
          rw [hadmits] at hexcludes
          cases hexcludes
        cases body with
        | nil =>
          -- The tag at the beginning is all of the line, so it is the one at the end too.
          rw [List.append_nil] at hends
          exact absurd (eq_of_suffix hmem hmem' hends.suffix (List.suffix_refl tag')) hne
        | cons c rest =>
          by_cases hc : c = ' '
          · subst hc
            have hinner : peel target rest = none := by
              refine ih rest.length ?_ (hends.of_peeled hmem hmem' hne)
                (fun hides => hhides (.behind hmem' hadmits hides)) rfl
              simp at hn
              omega
            rw [peel_eq, hnext]
            simpa [afterTag, hadmits] using hinner
          · -- Nothing is peeled off here, and this is how the beginning hides the end.
            exact absurd (.glued hmem' hadmits hc) hhides

/-- A line is left out if it has the tag for no target at an end, or if peeling leaves it out. -/
lemma keepLine_eq_none_iff :
    keepLine target line = none ↔
      (neverTag <+: line ∨ neverTag <:+ line) ∨ peel target line = none := by
  simp only [Option.eq_none_iff_forall_ne_some, ne_eq, keepLine_eq_some_iff, ← not_or]
  by_cases hnever : neverTag <+: line ∨ neverTag <:+ line <;> simp [hnever]

/-- **When a line that a tag excludes is left out.** If the tag stands at the beginning, the line is
left out. If it stands at the end, where it is all of the line or a blank separates it from the
rest, then the line is left out unless the beginning of the line hides it; and the tag for no target
is never hidden.

**Proof sketch.** A tag at the beginning is the outermost one (`outermost?_tag_append`), so it
decides. One at the end is reached unless tags that are admitted stand at the beginning and no blank
separates the last of them from the rest, for there peeling ends. The tag for no target is looked
for at both ends before anything is peeled off. -/
theorem keepLine_eq_none_of_excluding (hmem : (tag, marker) ∈ Marker.lineTags)
    (hexcludes : marker.admits target = false) :
    (tag <+: line → keepLine target line = none) ∧
      (EndsWithTag tag line →
        (keepLine target line = none ↔ marker = .never ∨ ¬ HidesEnd target line)) := by
  constructor
  · rintro ⟨rest, rfl⟩
    have hnext := outermost?_tag_append hmem rest
    exact keepLine_eq_none_iff.2 (.inr (peel_eq_none_of_outermost? hnext hexcludes))
  · intro hends
    have hnever : (neverTag, Marker.never) ∈ Marker.lineTags := by decide
    rw [keepLine_eq_none_iff]
    constructor
    · rintro ((hfirst | hlast) | hpeel)
      · refine .inr fun hhides => hhides.peel_ne_none ?_
        obtain ⟨rest?, hnext⟩ := exists_outermost?_never (.inl hfirst)
        exact peel_eq_none_of_outermost? hnext rfl
      · left
        cases eq_of_suffix hmem hnever hends.suffix hlast
        rfl
      · exact .inr fun hhides => hhides.peel_ne_none hpeel
    · rintro (rfl | hhides)
      · have htag : ∀ p ∈ Marker.lineTags, p.2 = .never → p.1 = neverTag := by decide
        rw [← htag _ hmem rfl]
        exact .inl (.inr hends.suffix)
      · exact .inr (peel_eq_none_of_endsWithTag hmem hexcludes hends hhides)

/-- A tag that leaves a line out at its beginning, and one that is hidden at its end. -/
theorem keepLine_eq_none_of_excluding_bothEnds :
    let line := "#!jl #mdash #!md".toList
    ("#!jl".toList <+: line ∧ keepLine .script line = none) ∧
      (EndsWithTag "#!md".toList line ∧ HidesEnd .markdown line) ∧
      keepLine .markdown line ≠ none := by
  intro line
  have hscriptTag : ("#!jl".toList, Marker.except .script) ∈ Marker.lineTags := by decide
  have hpageTag : ("#md".toList, Marker.only .markdown) ∈ Marker.lineTags := by decide
  have hfirst : "#!jl".toList <+: line := by decide
  have hlast : EndsWithTag "#!md".toList line := .inr (by decide)
  have hhides : HidesEnd .markdown line := by
    have hglued : HidesEnd .markdown ("#md".toList ++ 'a' :: "sh #!md".toList) :=
      .glued hpageTag rfl (by decide)
    exact .behind hscriptTag rfl hglued
  have hscript : keepLine .script line = none :=
    (keepLine_eq_none_of_excluding hscriptTag rfl).1 hfirst
  have hmarkdown : keepLine .markdown line = none ↔
      Marker.except .markdown = .never ∨ ¬ HidesEnd .markdown line :=
    (keepLine_eq_none_of_excluding (by decide) rfl).2 hlast
  refine ⟨⟨hfirst, hscript⟩, ⟨hlast, hhides⟩, fun hnone => ?_⟩
  rcases hmarkdown.1 hnone with hnever | hshown
  · cases hnever
  · exact hshown hhides

/-- **A line that a tag excludes need not be left out**: a comment begins with a word that happens
to begin like a tag, and the tag after it is not looked at. -/
theorem keepLine_ne_none_hiddenTag :
    ¬ ∀ (target : Target) (line tag : Text) (marker : Marker),
      (tag, marker) ∈ Marker.lineTags → marker.admits target = false →
        (tag <+: line ∨ line = tag ∨ ' ' :: tag <:+ line) → keepLine target line = none := by
  intro h
  let line := "#nbconvert options #!nb".toList
  have hkept : keepLine .notebook line = some line :=
    keepLine_eq_some_self_iff.2 (.gluedFirst "#nb".toList (.only .notebook) 'c'
      "onvert options #!nb".toList (by decide) rfl rfl (by decide) (by decide))
  have hnone : keepLine .notebook line = none :=
    h .notebook line "#!nb".toList (.except .notebook) (by decide) rfl (.inr (.inr (by decide)))
  rw [hnone] at hkept
  cases hkept

end Weave.LineTag
