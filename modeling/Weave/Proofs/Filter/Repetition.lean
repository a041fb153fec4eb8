import Weave.Filter
import Weave.Proofs.Filter.BlockComment
import Weave.Proofs.Filter.LineTag
import Weave.Proofs.Filter.Substitution

set_option autoImplicit false
set_option relaxedAutoImplicit false

/-!
# Filtering twice

The rules of the filter are applied once each, in a fixed order, and a later rule can leave a text
on which an earlier one would act again: the row that opens a block is hidden behind a tag, a link
stands between the parts of a placeholder, the carriage returns before a line feed are two. So
filtering twice is filtering once for some texts only.

## Main definitions

* `Weave.Settled` — a text holds nothing that a rule acts on.
* `Weave.Restored` — a placeholder brings back what the other rules have taken away.

## Main results

* `Weave.filter_eq_self_iff` — which texts the filter leaves as they are.
* `Weave.filter_filter_eq_iff` — for which texts filtering twice is filtering once.
* `Weave.filter_filter_ne` — that it is not so for all texts.

## Design

No rule can undo what another one has done, save the one for placeholders, whose values are free.
Each time a quantity tells why: what the rule has lowered no other rule raises. The quantities are
commercial ats for links and placeholders, line feeds for blocks, dollar signs for displayed
formulas, and in the end the length of the text.
-/

namespace Weave

/-- A text holds a formula that the target shows in another way. -/
def HasFormula (target : Target) (s : Settings) (t : Text) : Prop :=
  match target with
  | .notebook => Formula.Encloses Formula.opening Formula.closing t
  | .markdown => s.documenter = true ∧ Formula.Encloses Formula.display Formula.display t
  | .script => False

/-- **A text is settled**: it holds nothing that a rule of the filter acts on. -/
structure Settled (target : Target) (s : Settings) (t : Text) : Prop where
  /-- There is no line end of two characters. -/
  lineEnds : ¬ ['\r', '\n'] <:+: t
  /-- There is no block comment. -/
  blocks : ¬ BlockComment.HasBlock (Text.rows t)
  /-- Every line is kept whole. -/
  lines : ∀ r ∈ Text.rows t, LineTag.Stays target r
  /-- There is no formula in another form. -/
  formulas : ¬ HasFormula target s t
  /-- There is no placeholder. -/
  placeholders : ¬ Placeholder.Mentions s t
  /-- There is no link to a reference, where these are reduced. -/
  links : s.documenter = true → target ≠ .markdown → ¬ CrossReference.Links t

/-- A text as it is before the placeholders are replaced. -/
def beforeValues (target : Target) (s : Settings) (t : Text) : Text :=
  adaptFormulas target s <| LineTag.keep target <| BlockComment.expand <| Text.unifyLineEnds t

/-- **A placeholder brings back** what the other rules have taken away. -/
def Restored (target : Target) (s : Settings) (t : Text) : Prop :=
  Placeholder.Mentions s (beforeValues target s t) ∧
    reduceLinks target s (Placeholder.substitute s (beforeValues target s t)) = t

/-! ## Rules on the whole text -/

/-- Line ends that are unified lose carriage returns only. -/
lemma unifyLineEnds_sublist (t : Text) : (Text.unifyLineEnds t).Sublist t :=
  Text.replace_sublist (by decide) (by decide) t

/-- Line ends are left as they are exactly if each is a single character. -/
lemma unifyLineEnds_eq_self_iff {t : Text} :
    Text.unifyLineEnds t = t ↔ ¬ ['\r', '\n'] <:+: t := by
  constructor
  · intro h hin
    have hlt : (Text.unifyLineEnds t).count '\r' < t.count '\r' :=
      Text.count_replace_lt (by decide) (by decide) hin
    rw [h] at hlt
    exact lt_irrefl _ hlt
  · exact fun h => Text.replace_eq_self (by decide) h _

/-- Formulas gain nothing but dollar signs and what their fences are made of. -/
lemma count_adaptFormulas_le {c : Char} (hc : c ∉ '$' :: Formula.opening) (target : Target)
    (s : Settings) (t : Text) : (adaptFormulas target s t).count c ≤ t.count c := by
  rw [List.mem_cons, not_or] at hc
  cases target with
  | script => exact le_rfl
  | markdown =>
    rw [adaptFormulas]
    split
    next => exact Formula.count_forDocumenter_le hc.2 t
    next => exact le_rfl
  | notebook => exact Formula.count_forNotebook_le hc.1 t

/-- Reducing links takes away and adds nothing. -/
lemma reduceLinks_sublist (target : Target) (s : Settings) (t : Text) :
    (reduceLinks target s t).Sublist t := by
  rw [reduceLinks]
  split
  next => exact CrossReference.strip_sublist t
  next => exact .refl t

/-- Before the placeholders are replaced no commercial at is added. -/
lemma count_beforeValues_le (target : Target) (s : Settings) (t : Text) :
    (beforeValues target s t).count '@' ≤ t.count '@' := by
  calc (beforeValues target s t).count '@'
      ≤ (LineTag.keep target (BlockComment.expand (Text.unifyLineEnds t))).count '@' :=
        count_adaptFormulas_le (by decide) target s _
    _ ≤ (BlockComment.expand (Text.unifyLineEnds t)).count '@' :=
        (LineTag.keep_sublist target _).count_le '@'
    _ ≤ (Text.unifyLineEnds t).count '@' := BlockComment.count_expand_le (by decide) _
    _ ≤ t.count '@' := (unifyLineEnds_sublist t).count_le '@'

variable {target : Target} {s : Settings}

/-- A text without a formula in another form is left as it is. -/
lemma adaptFormulas_eq_self {t : Text} (h : ¬ HasFormula target s t) :
    adaptFormulas target s t = t := by
  cases target with
  | script => rfl
  | markdown =>
    rw [adaptFormulas]
    split
    next hs => exact Formula.forDocumenter_eq_self fun he => h ⟨hs, he⟩
    next => rfl
  | notebook => exact Formula.forNotebook_eq_self h

/-- **A formula is not adapted in vain**: after that the text cannot become what it has been a part
of. -/
lemma adaptFormulas_ne {t y : Text} (h : HasFormula target s t) (hsub : t.Sublist y) :
    adaptFormulas target s t ≠ y := by
  rintro rfl
  cases target with
  | script => exact h
  | markdown =>
    have hlt := Formula.count_forDocumenter_lt h.2
    have hle := hsub.count_le '$'
    rw [adaptFormulas, if_pos h.1] at hle
    omega
  | notebook =>
    have hlt : (adaptFormulas .notebook s t).length < t.length := Formula.length_forNotebook_lt h
    have hle := hsub.length_le
    omega

/-- A text without links is left as it is, and so is any text where links are kept. -/
lemma reduceLinks_eq_self {t : Text}
    (h : s.documenter = true → target ≠ .markdown → ¬ CrossReference.Links t) :
    reduceLinks target s t = t := by
  rw [reduceLinks]
  split
  next hs =>
    rw [Bool.and_eq_true, bne_iff_ne] at hs
    exact CrossReference.strip_eq_self (h hs.1 hs.2)
  next => rfl

/-- A link that is reduced takes its commercial at with it. -/
lemma count_reduceLinks_lt {t : Text} (hs : s.documenter = true) (ht : target ≠ .markdown)
    (h : CrossReference.Links t) : (reduceLinks target s t).count '@' < t.count '@' := by
  rw [reduceLinks, if_pos (by simp [hs, ht])]
  exact CrossReference.count_strip_lt h

/-! ## The filter -/

/-- The last two rules act on the text as it is before the placeholders are replaced. -/
lemma filter_eq (t : Text) :
    filter target s t =
      reduceLinks target s (Placeholder.substitute s (beforeValues target s t)) :=
  rfl

/-- **The filter leaves a settled text** as it is. -/
lemma filter_eq_self_of_settled {t : Text} (h : Settled target s t) : filter target s t = t := by
  have hbefore : beforeValues target s t = t := by
    rw [beforeValues, unifyLineEnds_eq_self_iff.2 h.lineEnds, BlockComment.expand_eq_self h.blocks,
      LineTag.keep_eq_self_iff.2 h.lines, adaptFormulas_eq_self h.formulas]
  rw [filter_eq, hbefore, Placeholder.substitute_eq_self h.placeholders,
    reduceLinks_eq_self h.links]

/-- **A text that comes back before the placeholders are replaced** is settled, as far as the rules
until then go.

**Proof sketch.** A block that is expanded costs line feeds, and none come back. So no block is
expanded, and what is left of the text before its formulas are adapted is a part of it. Then no
formula is adapted either, and nothing is taken away. -/
lemma settled_of_beforeValues_eq_self {t : Text} (h : beforeValues target s t = t)
    (hplaceholders : ¬ Placeholder.Mentions s t)
    (hlinks : s.documenter = true → target ≠ .markdown → ¬ CrossReference.Links t) :
    Settled target s t := by
  have hends := unifyLineEnds_sublist t
  have hblocks : ¬ BlockComment.HasBlock (Text.rows (Text.unifyLineEnds t)) := by
    intro hblock
    have hexpand := BlockComment.count_lineFeed_expand_lt hblock
    have hkeep := (LineTag.keep_sublist target
      (BlockComment.expand (Text.unifyLineEnds t))).count_le '\n'
    have hlineFeed : '\n' ∉ '$' :: Formula.opening := by decide
    have hadapt := count_adaptFormulas_le hlineFeed target s
      (LineTag.keep target (BlockComment.expand (Text.unifyLineEnds t)))
    have hle := hends.count_le '\n'
    rw [← beforeValues, h] at hadapt
    omega
  rw [beforeValues, BlockComment.expand_eq_self hblocks] at h
  have hkeep := LineTag.keep_sublist target (Text.unifyLineEnds t)
  have hformulas : ¬ HasFormula target s (LineTag.keep target (Text.unifyLineEnds t)) :=
    fun hformula => adaptFormulas_ne hformula (hkeep.trans hends) h
  rw [adaptFormulas_eq_self hformulas] at h
  have hunified : Text.unifyLineEnds t = t := by
    refine hends.eq_of_length (le_antisymm hends.length_le ?_)
    have hle := hkeep.length_le
    rwa [h] at hle
  rw [hunified] at hblocks h hformulas
  rw [h] at hformulas
  exact ⟨unifyLineEnds_eq_self_iff.1 hunified, hblocks, LineTag.keep_eq_self_iff.1 h, hformulas,
    hplaceholders, hlinks⟩

/-- A text that the filter leaves as it is has no link that is reduced, before or after, unless a
placeholder is replaced. -/
lemma beforeValues_eq_self {t : Text} (h : filter target s t = t)
    (hnone : ¬ Placeholder.Mentions s (beforeValues target s t)) :
    beforeValues target s t = t ∧
      (s.documenter = true → target ≠ .markdown → ¬ CrossReference.Links t) := by
  rw [filter_eq, Placeholder.substitute_eq_self hnone] at h
  have hlinks : s.documenter = true → target ≠ .markdown →
      ¬ CrossReference.Links (beforeValues target s t) := by
    intro hs ht hlink
    have hlt := count_reduceLinks_lt hs ht hlink
    have hle := count_beforeValues_le target s t
    rw [h] at hlt
    omega
  rw [reduceLinks_eq_self hlinks] at h
  rw [h] at hlinks
  exact ⟨h, hlinks⟩

/-- **Which texts the filter leaves as they are**: those that are settled, and those that a
placeholder brings back. -/
theorem filter_eq_self_iff {t : Text} :
    filter target s t = t ↔ Settled target s t ∨ Restored target s t := by
  constructor
  · intro h
    by_cases hmentions : Placeholder.Mentions s (beforeValues target s t)
    · exact .inr ⟨hmentions, h⟩
    · obtain ⟨hbefore, hlinks⟩ := beforeValues_eq_self h hmentions
      rw [hbefore] at hmentions
      exact .inl (settled_of_beforeValues_eq_self hbefore hmentions hlinks)
  · rintro (h | h)
    · exact filter_eq_self_of_settled h
    · exact h.2

/-- **A placeholder brings nothing back** if no value holds a commercial at. -/
lemma not_restored (hplain : ∀ p ∈ Placeholder.values s, '@' ∉ p.2.getD unknownValue) (t : Text) :
    ¬ Restored target s t := by
  rintro ⟨hmentions, h⟩
  have hbefore := count_beforeValues_le target s t
  have hvalues := Placeholder.count_substitute_lt hplain hmentions
  have hreduce := (reduceLinks_sublist target s
    (Placeholder.substitute s (beforeValues target s t))).count_le '@'
  rw [h] at hreduce
  omega

/-- **Filtering twice is filtering once** exactly if what is left after the first time is settled,
or a placeholder brings it back; and none does if no value holds a commercial at.

**Proof sketch.** If a text stays as it is, either a placeholder is replaced on the way and what
this puts in brings the text back, or none is, and then no other rule changes anything
(`filter_eq_self_iff`). Without a commercial at in the values, each placeholder that is replaced
loses one for good (`not_restored`). -/
theorem filter_filter_eq_iff (target : Target) (s : Settings) (t : Text) :
    (filter target s (filter target s t) = filter target s t ↔
      Settled target s (filter target s t) ∨ Restored target s (filter target s t)) ∧
    ((∀ p ∈ Placeholder.values s, '@' ∉ p.2.getD unknownValue) →
      ¬ Restored target s (filter target s t)) :=
  ⟨filter_eq_self_iff, fun hplain => not_restored hplain _⟩

/-- A block whose opening row stands behind a tag is expanded the second time only. -/
theorem filter_filter_ne :
    filter .markdown {} (filter .markdown {} "#md #=\na\n=#".toList) ≠
      filter .markdown {} "#md #=\na\n=#".toList := by
  decide +kernel

end Weave
