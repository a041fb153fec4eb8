import Weave.Filter.Substitution
import Weave.Proofs.Text.Replacement

set_option autoImplicit false
set_option relaxedAutoImplicit false

/-!
# What the substitutions leave

A text that holds nothing to be substituted is left as it is. A text that holds something to be
substituted loses by it, each time something else: a formula loses its dollar signs or gets shorter,
and with a placeholder or a link goes a commercial at.

## Main definitions

* `Weave.Formula.Encloses` — a text holds something between two marks.
* `Weave.Placeholder.Mentions` — a text holds a placeholder.
* `Weave.CrossReference.Links` — a text holds a link to a reference.

## Main results

* `Weave.Formula.forNotebook_eq_self`, `Weave.Formula.length_forNotebook_lt`.
* `Weave.Formula.forDocumenter_eq_self`, `Weave.Formula.count_forDocumenter_lt`.
* `Weave.Placeholder.substitute_eq_self`, `Weave.Placeholder.count_substitute_lt`.
* `Weave.CrossReference.strip_eq_self`, `Weave.CrossReference.count_strip_lt`.
-/

namespace Weave

namespace Formula

/-- **A text holds something between two marks.** -/
def Encloses (left right t : Text) : Prop :=
  ∃ before body after, t = before ++ (left ++ (body ++ (right ++ after)))

/-- What is read between two marks, and what is put in its place. -/
lemma swapMarks_eq_some {left right newLeft newRight u put : Text} {n : Nat}
    (h : swapMarks left right newLeft newRight u = some (n, put)) :
    ∃ body after, u = left ++ (body ++ (right ++ after)) ∧
      n = left.length + body.length + right.length ∧ put = newLeft ++ body ++ newRight := by
  simp only [swapMarks, Option.bind_eq_bind, Option.bind_eq_some_iff, Option.pure_def,
    Option.some.injEq, Prod.mk.injEq] at h
  obtain ⟨rest, hrest, ⟨body, after⟩, hcut, rfl, rfl⟩ := h
  rw [Text.stripPrefix?_eq_some_iff] at hrest
  refine ⟨body, after, ?_, rfl, rfl⟩
  rw [hrest, Text.cutAt?_eq_some hcut, List.append_assoc]

/-- What is read between two marks takes the marks too. -/
lemma take_of_swapMarks {left right newLeft newRight u put : Text} {n : Nat}
    (h : swapMarks left right newLeft newRight u = some (n, put)) :
    ∃ body, u.take n = left ++ body ++ right ∧ put = newLeft ++ body ++ newRight := by
  obtain ⟨body, after, rfl, rfl, hput⟩ := swapMarks_eq_some h
  refine ⟨body, ?_, hput⟩
  have hlength : left.length + body.length + right.length = (left ++ body ++ right).length := by
    rw [List.length_append, List.length_append]
  rw [hlength, ← List.append_assoc, ← List.append_assoc, List.take_left]

/-- **Marks are found** exactly if something stands between them. -/
lemma occurs_swapMarks_iff {left right newLeft newRight t : Text} (hleft : left ≠ [])
    (hright : right ≠ []) :
    Text.Occurs (swapMarks left right newLeft newRight) t ↔ Encloses left right t := by
  constructor
  · rintro ⟨before, u, n, put, rfl, h⟩
    obtain ⟨body, after, rfl, -, -⟩ := swapMarks_eq_some h
    exact ⟨before, body, after, rfl⟩
  · rintro ⟨before, body, after, rfl⟩
    have hin : right <:+: body ++ (right ++ after) := ⟨body, after, List.append_assoc _ _ _⟩
    obtain ⟨⟨first, rest⟩, hcut⟩ :=
      Option.isSome_iff_exists.1 ((Text.cutAt?_isSome_iff hright).2 hin)
    obtain ⟨n, hn⟩ := Nat.exists_eq_succ_of_ne_zero (List.length_pos_iff.2 hleft).ne'
    refine ⟨before, _, n + first.length + right.length, newLeft ++ first ++ newRight, rfl, ?_⟩
    rw [swapMarks, Text.stripPrefix?_eq_some_iff.2 rfl]
    simp only [Option.bind_eq_bind, Option.bind_some, hcut, hn, Option.pure_def]
    congr 2
    omega

/-- A text without a formula in fences is left as it is. -/
lemma forNotebook_eq_self {t : Text} (h : ¬ Encloses opening closing t) : forNotebook t = t :=
  Text.replaceMatches_eq_self fun ho => h ((occurs_swapMarks_iff (by decide) (by decide)).1 ho)

/-- A text without a displayed formula is left as it is. -/
lemma forDocumenter_eq_self {t : Text} (h : ¬ Encloses display display t) : forDocumenter t = t :=
  Text.replaceMatches_eq_self fun ho => h ((occurs_swapMarks_iff (by decide) (by decide)).1 ho)

/-- **A formula in fences gets shorter.** -/
lemma length_forNotebook_lt {t : Text} (h : Encloses opening closing t) :
    (forNotebook t).length < t.length := by
  refine Text.measure_replaceMatches_lt (fun a b => List.length_append) (fun u n put hr => ?_)
    ((occurs_swapMarks_iff (by decide) (by decide)).2 h)
  obtain ⟨body, htake, rfl⟩ := take_of_swapMarks hr
  have hdisplay : display.length = 2 := by decide
  have hopening : opening.length = 7 := by decide
  have hclosing : closing.length = 3 := by decide
  simp only [htake, List.length_append, hdisplay, hopening, hclosing]
  omega

/-- **A displayed formula loses its dollar signs.** -/
lemma count_forDocumenter_lt {t : Text} (h : Encloses display display t) :
    (forDocumenter t).count '$' < t.count '$' := by
  refine Text.measure_replaceMatches_lt (fun a b => List.count_append) (fun u n put hr => ?_)
    ((occurs_swapMarks_iff (by decide) (by decide)).2 h)
  obtain ⟨body, htake, rfl⟩ := take_of_swapMarks hr
  have hdisplay : display.count '$' = 2 := by decide
  have hopening : opening.count '$' = 0 := by decide
  have hclosing : closing.count '$' = 0 := by decide
  simp only [htake, List.count_append, hdisplay, hopening, hclosing]
  omega

/-- A formula in fences gains nothing but dollar signs. -/
lemma count_forNotebook_le {c : Char} (hc : c ≠ '$') (t : Text) :
    (forNotebook t).count c ≤ t.count c := by
  refine Text.measure_replaceMatches_le (fun a b => List.count_append) (fun u n put hr => ?_) t
  obtain ⟨body, htake, rfl⟩ := take_of_swapMarks hr
  have hdisplay : display.count c = 0 := by simp [display, Ne.symm hc]
  simp only [htake, List.count_append, hdisplay]
  omega

/-- A displayed formula gains nothing but what its fences are made of. -/
lemma count_forDocumenter_le {c : Char} (hc : c ∉ opening) (t : Text) :
    (forDocumenter t).count c ≤ t.count c := by
  refine Text.measure_replaceMatches_le (fun a b => List.count_append) (fun u n put hr => ?_) t
  obtain ⟨body, htake, rfl⟩ := take_of_swapMarks hr
  have hopening : opening.count c = 0 := List.count_eq_zero.2 hc
  have hclosing : closing.count c = 0 :=
    List.count_eq_zero.2 fun h => hc (List.mem_of_mem_take (i := 3) h)
  simp only [htake, List.count_append, hopening, hclosing]
  omega

end Formula

namespace Placeholder

/-- **A text holds a placeholder.** -/
def Mentions (s : Settings) (t : Text) : Prop :=
  ∃ p ∈ values s, p.1 <:+: t

/-- Every placeholder holds one commercial at. -/
lemma count_at_of_mem_values {s : Settings} {p : Text × Option Text} (hp : p ∈ values s) :
    p.1.count '@' = 1 := by
  simp only [values, List.mem_cons, List.not_mem_nil, or_false] at hp
  rcases hp with rfl | rfl | rfl | rfl <;> rfl

/-- Replaces some texts by their values, one after another. -/
def replaceEach (vs : List (Text × Option Text)) (t : Text) : Text :=
  vs.foldl (fun t p => Text.replace p.1 (p.2.getD unknownValue) t) t

/-- A text without any of the texts to be replaced is left as it is. -/
lemma replaceEach_eq_self {vs : List (Text × Option Text)} {t : Text} (hne : ∀ p ∈ vs, p.1 ≠ [])
    (h : ∀ p ∈ vs, ¬ p.1 <:+: t) : replaceEach vs t = t := by
  induction vs with
  | nil => rfl
  | cons p vs ih =>
    rw [List.forall_mem_cons] at hne h
    rw [replaceEach, List.foldl_cons, Text.replace_eq_self hne.1 h.1]
    exact ih hne.2 h.2

/-- If every value has less of a character than the text that it replaces, then there is not more of
the character afterwards, and less if anything is replaced.

**Proof sketch.** The first text to be replaced occurs, or it does not and nothing has changed when
the other ones are replaced. -/
lemma count_replaceEach {c : Char} {vs : List (Text × Option Text)}
    (h : ∀ p ∈ vs, (p.2.getD unknownValue).count c < p.1.count c) (t : Text) :
    (replaceEach vs t).count c ≤ t.count c ∧
      ((∃ p ∈ vs, p.1 <:+: t) → (replaceEach vs t).count c < t.count c) := by
  induction vs generalizing t with
  | nil => simp [replaceEach]
  | cons p vs ih =>
    rw [List.forall_mem_cons] at h
    have hne : p.1 ≠ [] := by
      intro hnil
      rw [hnil] at h
      exact absurd h.1 (Nat.not_lt_zero _)
    have hcons : replaceEach (p :: vs) t =
        replaceEach vs (Text.replace p.1 (p.2.getD unknownValue) t) := rfl
    rw [hcons]
    obtain ⟨hle, hlt⟩ := ih h.2 (Text.replace p.1 (p.2.getD unknownValue) t)
    by_cases hin : p.1 <:+: t
    · have hfirst := Text.count_replace_lt hne h.1 hin
      exact ⟨hle.trans hfirst.le, fun _ => hle.trans_lt hfirst⟩
    · rw [Text.replace_eq_self hne hin] at hle hlt ⊢
      refine ⟨hle, fun hany => hlt ?_⟩
      rw [List.exists_mem_cons_iff] at hany
      exact hany.resolve_left hin

/-- Replacing the placeholders is replacing each of them. -/
lemma substitute_eq (s : Settings) (t : Text) : substitute s t = replaceEach (values s) t :=
  rfl

/-- **A text without a placeholder** is left as it is. -/
theorem substitute_eq_self {s : Settings} {t : Text} (h : ¬ Mentions s t) :
    substitute s t = t := by
  refine replaceEach_eq_self (fun p hp hnil => ?_) fun p hp hin => h ⟨p, hp, hin⟩
  have hcount := count_at_of_mem_values hp
  rw [hnil] at hcount
  cases hcount

/-- **A placeholder takes its commercial at with it**, if no value brings in another one. -/
theorem count_substitute_lt {s : Settings}
    (hplain : ∀ p ∈ values s, '@' ∉ p.2.getD unknownValue) {t : Text} (h : Mentions s t) :
    (substitute s t).count '@' < t.count '@' := by
  rw [substitute_eq]
  refine (count_replaceEach (fun p hp => ?_) t).2 h
  rw [count_at_of_mem_values hp, List.count_eq_zero.2 (hplain p hp)]
  exact Nat.one_pos

end Placeholder

namespace CrossReference

/-- What stands between `(@` and `)` in a link to a reference. -/
def IsReference (reference : Text) : Prop :=
  reference = "ref".toList ∨ ∃ name, ')' ∉ name ∧
    (reference = "ref ".toList ++ name ∨ reference = "id ".toList ++ name)

/-- A link to a reference, as it is written. -/
def written (label reference : Text) : Text :=
  '[' :: (label ++ (']' :: '(' :: '@' :: (reference ++ [')'])))

/-- **A text holds a link to a reference.** -/
def Links (t : Text) : Prop :=
  ∃ label reference, label ≠ [] ∧ ']' ∉ label ∧ IsReference reference ∧
    written label reference <:+: t

/-- **A reference is read** up to its closing parenthesis.

**Proof sketch.** By the three forms of a reference. The name in one of them is cut at the first
closing parenthesis, which is the one of the reference as the name has none. -/
lemma targetLength?_eq_some_iff {t : Text} {n : Nat} :
    targetLength? t = some n ↔ ∃ reference after, IsReference reference ∧
      t = reference ++ ')' :: after ∧ n = reference.length + 1 := by
  constructor
  · intro h
    unfold targetLength? at h
    split at h
    next hs =>
      obtain ⟨after, rfl⟩ := Text.startsWith_iff.1 hs
      exact ⟨"ref".toList, after, .inl rfl, rfl, (Option.some.inj h).symm⟩
    next =>
      simp only [Option.bind_eq_bind, Option.bind_eq_some_iff, Option.pure_def, Option.some.injEq,
        Option.or_eq_some_iff, Option.map_eq_some_iff, Text.stripPrefix?_eq_some_iff] at h
      obtain ⟨⟨word, rest⟩, hword, ⟨name, after⟩, hcut, rfl⟩ := h
      have hrest := Text.cutAt?_eq_some hcut
      have hname := Text.not_mem_of_cutAt?_singleton hcut
      rcases hword with ⟨_, rfl, hw⟩ | ⟨-, _, rfl, hw⟩
      · cases hw
        refine ⟨"ref ".toList ++ name, after, .inr ⟨name, hname, .inl rfl⟩, ?_, ?_⟩
        · simpa using hrest
        · simp
          omega
      · cases hw
        refine ⟨"id ".toList ++ name, after, .inr ⟨name, hname, .inr rfl⟩, ?_, ?_⟩
        · simpa using hrest
        · simp
          omega
  · rintro ⟨reference, after, rfl | ⟨name, hname, rfl | rfl⟩, rfl, rfl⟩
    · rfl
    · have hcut := Text.cutAt?_singleton hname after
      simp [targetLength?, Text.startsWith, Text.stripPrefix?, hcut]
      omega
    · have hcut := Text.cutAt?_singleton hname after
      simp [targetLength?, Text.startsWith, Text.stripPrefix?, hcut]
      omega

/-- **A link is read** as it is written, and its label is put in its place.

**Proof sketch.** The label is cut at the first closing bracket, which is the one of the link as the
label has none. After it stands a reference (`targetLength?_eq_some_iff`). -/
lemma link?_eq_some_iff {u put : Text} {n : Nat} :
    link? u = some (n, put) ↔ ∃ reference after, put ≠ [] ∧ ']' ∉ put ∧ IsReference reference ∧
      u = written put reference ++ after ∧ n = (written put reference).length := by
  constructor
  · intro h
    unfold link? at h
    split at h
    next rest =>
      simp only [Option.bind_eq_bind, Option.bind_eq_some_iff] at h
      obtain ⟨⟨label, more⟩, hcut, h⟩ := h
      split at h
      next => cases h
      next hlabel =>
        simp only [Option.bind_eq_some_iff, Option.pure_def, Option.some.injEq, Prod.mk.injEq,
          Text.stripPrefix?_eq_some_iff, targetLength?_eq_some_iff] at h
        obtain ⟨t, rfl, m, ⟨reference, after, href, rfl, rfl⟩, rfl, rfl⟩ := h
        refine ⟨reference, after, hlabel, Text.not_mem_of_cutAt?_singleton hcut, href, ?_, ?_⟩
        · simp [Text.cutAt?_eq_some hcut, written]
        · simp [written]
          omega
    next => cases h
  · rintro ⟨reference, after, hne, hlabel, href, rfl, rfl⟩
    have hcut := Text.cutAt?_singleton hlabel ('(' :: '@' :: (reference ++ ')' :: after))
    have htarget := targetLength?_eq_some_iff.2 ⟨reference, after, href, rfl, rfl⟩
    simp [written, link?, hcut, hne, Text.stripPrefix?, htarget]
    omega

/-- **A link is found** exactly if there is one. -/
lemma occurs_link?_iff {t : Text} : Text.Occurs link? t ↔ Links t := by
  constructor
  · rintro ⟨a, u, n, put, rfl, h⟩
    obtain ⟨reference, after, hne, hlabel, href, rfl, -⟩ := link?_eq_some_iff.1 h
    exact ⟨put, reference, hne, hlabel, href, a, after, List.append_assoc _ _ _⟩
  · rintro ⟨label, reference, hne, hlabel, href, a, b, rfl⟩
    refine ⟨a, written label reference ++ b, _, label, List.append_assoc _ _ _,
      link?_eq_some_iff.2 ⟨reference, b, hne, hlabel, href, rfl, rfl⟩⟩

/-- A text without a link is left as it is. -/
lemma strip_eq_self {t : Text} (h : ¬ Links t) : strip t = t :=
  Text.replaceMatches_eq_self fun ho => h (occurs_link?_iff.1 ho)

/-- **Reducing links takes away** and adds nothing. -/
lemma strip_sublist (t : Text) : (strip t).Sublist t := by
  refine Text.replaceMatches_sublist (fun u n put h => ?_) t
  obtain ⟨reference, after, -, -, -, rfl, hn⟩ := link?_eq_some_iff.1 h
  rw [hn, List.take_left, written]
  exact (List.sublist_append_left put _).cons '['

/-- **A link takes its commercial at with it.** -/
lemma count_strip_lt {t : Text} (h : Links t) : (strip t).count '@' < t.count '@' := by
  refine Text.measure_replaceMatches_lt (fun a b => List.count_append) (fun u n put hr => ?_)
    (occurs_link?_iff.2 h)
  obtain ⟨reference, after, -, -, -, rfl, hn⟩ := link?_eq_some_iff.1 hr
  rw [hn, List.take_left, written]
  simp

end CrossReference

end Weave
