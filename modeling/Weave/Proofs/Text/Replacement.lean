import Mathlib.Data.List.Infix
import Weave.Text.Lines

set_option autoImplicit false
set_option relaxedAutoImplicit false

/-!
# Replacement

One pass over a text replaces the leftmost matches of a reader. What the pass does to a text as a
whole follows from what it does at each match: a text without a match is left as it is, and what is
true of each match and what is put in its place is true of the text and the result.

## Main definitions

* `Weave.Text.Occurs` — a reader finds a match somewhere in a text.

## Main results

* `Weave.Text.prefix_induction` — induction along the matches in a text.
* `Weave.Text.replaceMatches_eq_self` — a text without a match is left as it is.
* `Weave.Text.replaceMatches_rel` — a relation that holds at each match holds of the whole.
* `Weave.Text.measure_replaceMatches_lt` — a measure that each match lowers is lowered.
* `Weave.Text.cutAt?_isSome_iff`, `Weave.Text.cutAt?_singleton` — where a text is cut.
-/

namespace Weave.Text

/-! ## Going through a text -/

/-- **A text is empty**, or begins with one of certain texts, or with a character that begins none
of them. -/
@[elab_as_elim]
theorem prefix_induction {p : Text → Prop} (hne : ∀ m, p m → m ≠ []) {motive : Text → Prop}
    (nil : motive []) (mark : ∀ m, p m → ∀ t, motive t → motive (m ++ t))
    (char : ∀ c t, (∀ m, p m → ¬ m <+: c :: t) → motive t → motive (c :: t)) (t : Text) :
    motive t := by
  induction hn : t.length using Nat.strongRecOn generalizing t with
  | ind n ih =>
    by_cases hany : ∃ m, p m ∧ m <+: t
    · obtain ⟨m, hm, rest, rfl⟩ := hany
      refine mark m hm rest (ih rest.length ?_ rest rfl)
      have := List.length_pos_iff.2 (hne m hm)
      rw [List.length_append] at hn
      omega
    · cases t with
      | nil => exact nil
      | cons c t =>
        refine char c t (fun m hm hpre => hany ⟨m, hm, hpre⟩) (ih t.length ?_ t rfl)
        rw [← hn, List.length_cons]
        exact Nat.lt_succ_self _

/-! ## Cutting -/

/-- **A text can be cut** exactly where the mark occurs. -/
lemma cutAt?_isSome_iff {mark t : Text} (hne : mark ≠ []) :
    (cutAt? mark t).isSome ↔ mark <:+: t := by
  induction t with
  | nil => simp [cutAt?, hne]
  | cons c t ih =>
    rw [List.infix_cons_iff, ← ih, cutAt?]
    split
    next after h =>
      rw [stripPrefix?_eq_some_iff] at h
      simp only [Option.isSome_some, true_iff]
      exact .inl ⟨after, h.symm⟩
    next h =>
      rw [Option.isSome_map]
      refine ⟨.inr, ?_⟩
      rintro (⟨after, hafter⟩ | hin)
      · rw [stripPrefix?_eq_some_iff.2 hafter.symm] at h
        cases h
      · exact hin

/-- A text is cut at a character where the character stands first. -/
lemma cutAt?_singleton {c : Char} {before : Text} (h : c ∉ before) (after : Text) :
    cutAt? [c] (before ++ c :: after) = some (before, after) := by
  induction before with
  | nil => simp [cutAt?, stripPrefix?]
  | cons d before ih =>
    simp only [List.mem_cons, not_or] at h
    simp [cutAt?, stripPrefix?, h.1, ih h.2]

/-- The side before the first occurrence of a mark does not hold it.

**Proof sketch.** Induction on the text. The mark does not begin at the first character, or the cut
would be there, and by induction not later. -/
lemma not_infix_of_cutAt? {mark t before after : Text} (hne : mark ≠ [])
    (h : cutAt? mark t = some (before, after)) : ¬ mark <:+: before := by
  induction t generalizing before with
  | nil => simp [cutAt?, hne] at h
  | cons d t ih =>
    have hwhole := cutAt?_eq_some h
    rw [cutAt?] at h
    split at h
    next =>
      simp only [Option.some.injEq, Prod.mk.injEq] at h
      rw [← h.1, List.infix_nil]
      exact hne
    next hs =>
      simp only [Option.map_eq_some_iff, Prod.mk.injEq] at h
      obtain ⟨⟨b, a⟩, hba, rfl, rfl⟩ := h
      rw [List.infix_cons_iff, not_or]
      refine ⟨fun hpre => stripPrefix?_eq_none_iff.1 hs ?_, ih hba⟩
      rw [hwhole, List.append_assoc]
      exact hpre.trans (List.prefix_append _ _)

/-- The side before the first occurrence of a character does not hold it. -/
lemma not_mem_of_cutAt?_singleton {c : Char} {t before after : Text}
    (h : cutAt? [c] t = some (before, after)) : c ∉ before := by
  intro hmem
  obtain ⟨u, v, rfl⟩ := List.append_of_mem hmem
  exact not_infix_of_cutAt? (List.cons_ne_nil c []) h ⟨u, v, by simp⟩

/-! ## One pass -/

variable {reader : Text → Option (Nat × Text)}

/-- Two readers that find the same in every end of a text do the same to it. -/
lemma replaceMatches_congr {reader' : Text → Option (Nat × Text)} {t : Text}
    (h : ∀ u, u <:+ t → reader u = reader' u) (k : Nat) :
    replaceMatches reader k t = replaceMatches reader' k t := by
  induction t generalizing k with
  | nil => cases k <;> rfl
  | cons c t ih =>
    have hrest := ih fun u hu => h u (hu.trans (List.suffix_cons c t))
    cases k with
    | zero =>
      rw [replaceMatches, replaceMatches, h (c :: t) (List.suffix_refl _), hrest]
      split
      next n put _ => rw [hrest]
      next => rfl
    | succ k => exact hrest k

/-- **A reader finds a match** somewhere in a text. -/
def Occurs (reader : Text → Option (Nat × Text)) (t : Text) : Prop :=
  ∃ a u n put, t = a ++ u ∧ reader u = some (n + 1, put)

/-- Characters that are passed over leave no trace. -/
lemma replaceMatches_skip (k : Nat) (t : Text) :
    replaceMatches reader k t = replaceMatches reader 0 (t.drop k) := by
  induction k generalizing t with
  | zero => rfl
  | succ k ih =>
    cases t with
    | nil => rfl
    | cons c t => rw [replaceMatches, ih, List.drop_succ_cons]

/-- A match at the beginning is replaced. -/
lemma replaceMatches_cons_of_match {c : Char} {t put : Text} {n : Nat}
    (h : reader (c :: t) = some (n + 1, put)) :
    replaceMatches reader 0 (c :: t) = put ++ replaceMatches reader 0 (t.drop n) := by
  rw [replaceMatches, h]
  exact congrArg (put ++ ·) (replaceMatches_skip n t)

/-- A character at which no match begins is kept. -/
lemma replaceMatches_cons_of_no_match {c : Char} {t : Text}
    (h : ∀ n put, reader (c :: t) ≠ some (n + 1, put)) :
    replaceMatches reader 0 (c :: t) = c :: replaceMatches reader 0 t := by
  rw [replaceMatches]
  split
  next n put hr => exact absurd hr (h n put)
  next => rfl

/-- A match begins at a character, or the matches are those of the text after it. -/
lemma occurs_cons_iff {c : Char} {t : Text} :
    Occurs reader (c :: t) ↔
      (∃ n put, reader (c :: t) = some (n + 1, put)) ∨ Occurs reader t := by
  constructor
  · rintro ⟨a, u, n, put, hu, hr⟩
    cases a with
    | nil => exact .inl ⟨n, put, hu ▸ hr⟩
    | cons d a => exact .inr ⟨a, u, n, put, (List.cons.inj hu).2, hr⟩
  · rintro (⟨n, put, hr⟩ | ⟨a, u, n, put, rfl, hr⟩)
    · exact ⟨[], c :: t, n, put, rfl, hr⟩
    · exact ⟨c :: a, u, n, put, rfl, hr⟩

/-- **A text without a match** is left as it is. -/
theorem replaceMatches_eq_self {t : Text} (h : ¬ Occurs reader t) :
    replaceMatches reader 0 t = t := by
  induction t with
  | nil => rfl
  | cons c t ih =>
    rw [occurs_cons_iff, not_or] at h
    rw [replaceMatches_cons_of_no_match fun n put hr => h.1 ⟨n, put, hr⟩, ih h.2]

/-- **A relation that holds at each match** holds of the whole text, if texts that are put together
keep it.

**Proof sketch.** By the length of the text: a match takes at least one character. -/
theorem replaceMatches_rel {R : Text → Text → Prop} (hnil : R [] []) (hchar : ∀ c, R [c] [c])
    (happend : ∀ a b a' b', R a a' → R b b' → R (a ++ b) (a' ++ b'))
    (hmatch : ∀ u n put, reader u = some (n + 1, put) → R put (u.take (n + 1))) (t : Text) :
    R (replaceMatches reader 0 t) t := by
  induction hn : t.length using Nat.strongRecOn generalizing t with
  | ind n ih =>
    cases t with
    | nil => exact hnil
    | cons c t =>
      by_cases h : ∃ n put, reader (c :: t) = some (n + 1, put)
      · obtain ⟨n, put, hr⟩ := h
        have hrest : R (replaceMatches reader 0 (t.drop n)) (t.drop n) := by
          refine ih (t.drop n).length ?_ (t.drop n) rfl
          rw [← hn, List.length_drop, List.length_cons]
          omega
        have hwhole := happend _ _ _ _ (hmatch _ n put hr) hrest
        rw [List.take_succ_cons, List.cons_append, List.take_append_drop] at hwhole
        rwa [replaceMatches_cons_of_match hr]
      · have hrest : R (replaceMatches reader 0 t) t := by
          refine ih t.length ?_ t rfl
          rw [← hn, List.length_cons]
          omega
        rw [replaceMatches_cons_of_no_match fun n put hr => h ⟨n, put, hr⟩]
        exact happend [c] _ [c] _ (hchar c) hrest

/-- What each match leaves of its own characters makes up a sublist of the text. -/
lemma replaceMatches_sublist
    (h : ∀ u n put, reader u = some (n + 1, put) → put.Sublist (u.take (n + 1))) (t : Text) :
    (replaceMatches reader 0 t).Sublist t :=
  replaceMatches_rel (.refl _) (fun _ => .refl _) (fun _ _ _ _ => .append) h t

section Measure

variable {μ : Text → Nat} (hμ : ∀ a b, μ (a ++ b) = μ a + μ b)

include hμ

/-- A measure that no match raises is not raised. -/
lemma measure_replaceMatches_le
    (h : ∀ u n put, reader u = some (n + 1, put) → μ put ≤ μ (u.take (n + 1))) (t : Text) :
    μ (replaceMatches reader 0 t) ≤ μ t := by
  refine replaceMatches_rel (R := fun a b => μ a ≤ μ b) le_rfl (fun _ => le_rfl) ?_ h t
  intro a b a' b' ha hb
  rw [hμ, hμ]
  exact Nat.add_le_add ha hb

/-- **A measure that each match lowers** is lowered, if there is a match.

**Proof sketch.** Induction on the text. At a match the measure of what is put is lower, and that
of the rest is not greater (`measure_replaceMatches_le`). At any other character a match comes
later. -/
theorem measure_replaceMatches_lt
    (h : ∀ u n put, reader u = some (n + 1, put) → μ put < μ (u.take (n + 1))) {t : Text}
    (ht : Occurs reader t) : μ (replaceMatches reader 0 t) < μ t := by
  induction t with
  | nil =>
    obtain ⟨a, u, n, put, hu, hr⟩ := ht
    obtain ⟨rfl, rfl⟩ := List.append_eq_nil_iff.1 hu.symm
    have hempty : μ [] = μ [] + μ [] := hμ [] []
    have hlt := h [] n put hr
    rw [List.take_nil] at hlt
    omega
  | cons c t ih =>
    by_cases hc : ∃ n put, reader (c :: t) = some (n + 1, put)
    · obtain ⟨n, put, hr⟩ := hc
      have hput := h _ n put hr
      have hrest := measure_replaceMatches_le hμ (fun u n put hr => (h u n put hr).le) (t.drop n)
      have hwhole : μ (c :: t) = μ ((c :: t).take (n + 1)) + μ (t.drop n) := by
        rw [← hμ, List.take_succ_cons, List.cons_append, List.take_append_drop]
      rw [replaceMatches_cons_of_match hr, hμ, hwhole]
      exact Nat.add_lt_add_of_lt_of_le hput hrest
    · have hrest := ih ((occurs_cons_iff.1 ht).resolve_left hc)
      rw [replaceMatches_cons_of_no_match fun n put hr => hc ⟨n, put, hr⟩]
      have hhead (b : Text) : μ (c :: b) = μ [c] + μ b := hμ [c] b
      rw [hhead (replaceMatches reader 0 t), hhead t]
      omega

end Measure

/-! ## One text by another -/

/-- The reader that finds `old` and puts `new` in its place. -/
def literal (old new : Text) (s : Text) : Option (Nat × Text) :=
  if startsWith old s then some (old.length, new) else none

/-- Replacing a text is a pass with the reader for it. -/
lemma replace_eq_replaceMatches {old : Text} (hne : old ≠ []) (new t : Text) :
    replace old new t = replaceMatches (literal old new) 0 t :=
  if_neg hne

/-- What the reader for a text finds is the text. -/
lemma literal_eq_some {old new u put : Text} {n : Nat}
    (h : literal old new u = some (n + 1, put)) : put = new ∧ u.take (n + 1) = old := by
  unfold literal at h
  split at h
  next hs =>
    obtain ⟨r, rfl⟩ := startsWith_iff.1 hs
    simp only [Option.some.injEq, Prod.mk.injEq] at h
    exact ⟨h.2.symm, by rw [← h.1, List.take_left]⟩
  next => cases h

/-- The reader for a text finds it wherever it occurs. -/
lemma occurs_literal_iff {old : Text} (hne : old ≠ []) {new t : Text} :
    Occurs (literal old new) t ↔ old <:+: t := by
  constructor
  · rintro ⟨a, u, n, put, rfl, hr⟩
    refine ⟨a, u.drop (n + 1), ?_⟩
    rw [List.append_assoc, ← (literal_eq_some hr).2, List.take_append_drop]
  · rintro ⟨a, b, rfl⟩
    obtain ⟨n, hn⟩ := Nat.exists_eq_succ_of_ne_zero (List.length_pos_iff.2 hne).ne'
    refine ⟨a, old ++ b, n, new, List.append_assoc a old b, ?_⟩
    rw [literal, if_pos (startsWith_iff.2 ⟨b, rfl⟩), hn]

/-- A text without `old` is left as it is. -/
lemma replace_eq_self {old t : Text} (hne : old ≠ []) (h : ¬ old <:+: t) (new : Text) :
    replace old new t = t := by
  rw [replace_eq_replaceMatches hne]
  exact replaceMatches_eq_self fun ho => h ((occurs_literal_iff hne).1 ho)

/-- Replacing a text by a part of it leaves a part. -/
lemma replace_sublist {old new : Text} (hne : old ≠ []) (h : new.Sublist old) (t : Text) :
    (replace old new t).Sublist t := by
  rw [replace_eq_replaceMatches hne]
  refine replaceMatches_sublist (fun u n put hr => ?_) t
  obtain ⟨rfl, hold⟩ := literal_eq_some hr
  rwa [hold]

/-- Replacing a text by one with less of a character lowers how often the character occurs. -/
lemma count_replace_lt {old new : Text} (hne : old ≠ []) {c : Char}
    (h : new.count c < old.count c) {t : Text} (ht : old <:+: t) :
    (replace old new t).count c < t.count c := by
  rw [replace_eq_replaceMatches hne]
  refine measure_replaceMatches_lt (fun a b => List.count_append) (fun u n put hr => ?_)
    ((occurs_literal_iff hne).2 ht)
  obtain ⟨rfl, hold⟩ := literal_eq_some hr
  rwa [hold]

end Weave.Text
