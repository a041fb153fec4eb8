import Weave.Proofs.Filter.Substitution
import Weave.Proofs.Text.Append

set_option autoImplicit false
set_option relaxedAutoImplicit false

/-!
# Labels with brackets

The label of a link goes from an opening bracket to the first closing one, and it may hold further
opening brackets: of several opening brackets in front of a closing one the first one is taken for
the beginning of the link. The link proper begins with the last one. What is lost is a bracket
before the link, and what is left in its place is the bracket of the link.

## Main definitions

* `Weave.CrossReference.labels` — the labels of the links that are reduced.
* `Weave.CrossReference.reduceInnermost` — only links without a bracket in the label are reduced.

## Main results

* `Weave.CrossReference.strip_append_of_link`, `Weave.CrossReference.strip_cons_of_not_link` — what
  the reduction of links does.
* `Weave.CrossReference.strip_eq_reduceInnermost_iff` — when brackets in labels make no difference.
-/

namespace Weave.CrossReference

/-! ## Links at the beginning of a text -/

/-- **A link begins** a text. -/
def Begins (t : Text) : Prop :=
  ∃ label reference, label ≠ [] ∧ ']' ∉ label ∧ IsReference reference ∧
    written label reference <+: t

/-- A link is read at the beginning of a text exactly if one stands there. -/
lemma begins_iff {t : Text} : Begins t ↔ ∃ n label, link? t = some (n + 1, label) := by
  constructor
  · rintro ⟨label, reference, hne, hlabel, href, after, rfl⟩
    exact ⟨_, label, link?_eq_some_iff.2 ⟨reference, after, hne, hlabel, href, rfl, rfl⟩⟩
  · rintro ⟨n, label, h⟩
    obtain ⟨reference, after, hne, hlabel, href, rfl, -⟩ := link?_eq_some_iff.1 h
    exact ⟨label, reference, hne, hlabel, href, after, rfl⟩

/-- **A text is empty**, or begins with a link, or with a character that begins none. -/
@[elab_as_elim]
theorem link_induction {motive : Text → Prop} (nil : motive [])
    (link : ∀ label reference t, label ≠ [] → ']' ∉ label → IsReference reference → motive t →
      motive (written label reference ++ t))
    (char : ∀ c t, ¬ Begins (c :: t) → motive t → motive (c :: t)) (t : Text) : motive t := by
  refine Text.prefix_induction (p := fun m => ∃ label reference, label ≠ [] ∧ ']' ∉ label ∧
    IsReference reference ∧ m = written label reference) ?_ nil ?_ ?_ t
  · rintro m ⟨label, reference, -, -, -, rfl⟩
    exact List.cons_ne_nil _ _
  · rintro m ⟨label, reference, hne, hlabel, href, rfl⟩ t
    exact link label reference t hne hlabel href
  · refine fun c t hnone => char c t ?_
    rintro ⟨label, reference, hne, hlabel, href, hpre⟩
    exact hnone _ ⟨label, reference, hne, hlabel, href, rfl⟩ hpre

/-- **The labels of the links** that are reduced, in their order; the first argument counts the
characters of the last link still to be passed over. -/
def labels : Nat → Text → List Text
  | _, [] => []
  | skip + 1, _ :: t => labels skip t
  | 0, c :: t =>
    match link? (c :: t) with
    | some (n + 1, label) => label :: labels n t
    | _ => labels 0 t

section Reduction

variable {label reference : Text}

/-- **A link at the beginning** is replaced by its label. -/
theorem strip_append_of_link (hne : label ≠ []) (hlabel : ']' ∉ label)
    (href : IsReference reference) (t : Text) :
    strip (written label reference ++ t) = label ++ strip t :=
  Text.replaceMatches_append_of_match (List.cons_ne_nil _ _)
    (link?_eq_some_iff.2 ⟨reference, t, hne, hlabel, href, rfl, rfl⟩)

/-- **A character** that begins no link is kept. -/
theorem strip_cons_of_not_link {c : Char} {t : Text} (h : ¬ Begins (c :: t)) :
    strip (c :: t) = c :: strip t :=
  Text.replaceMatches_cons_of_no_match fun n label hr => h (begins_iff.2 ⟨n, label, hr⟩)

/-- The labels of a text that begins with a link are that of the link and those after it. -/
lemma labels_append_of_link (hne : label ≠ []) (hlabel : ']' ∉ label) (href : IsReference reference)
    (t : Text) : labels 0 (written label reference ++ t) = label :: labels 0 t := by
  have hskip (m : Text) : labels m.length (m ++ t) = labels 0 t := by
    induction m with
    | nil => rfl
    | cons c m ih => exact ih
  have hlink := link?_eq_some_iff.2 ⟨reference, t, hne, hlabel, href, rfl, rfl⟩
  rw [written, List.cons_append, List.length_cons] at hlink
  rw [written, List.cons_append, labels, hlink]
  exact congrArg (label :: ·) (hskip _)

/-- A character at which no link begins has no label. -/
lemma labels_cons_of_not_link {c : Char} {t : Text} (h : ¬ Begins (c :: t)) :
    labels 0 (c :: t) = labels 0 t := by
  rw [labels]
  split
  next n label hr => exact absurd (begins_iff.2 ⟨n, label, hr⟩) h
  next => rfl

end Reduction

/-! ## Innermost links -/

/-- Reads a link without an opening bracket in its label. -/
def innermost? (t : Text) : Option (Nat × Text) :=
  (link? t).filter fun (_, label) => '[' ∉ label

/-- **Reduces the links** without an opening bracket in their labels. -/
def reduceInnermost (t : Text) : Text :=
  Text.replaceMatches innermost? 0 t

/-- **An innermost link** is read as it is written, and its label is put in its place. -/
lemma innermost?_eq_some_iff {u put : Text} {n : Nat} :
    innermost? u = some (n, put) ↔ ∃ reference after, put ≠ [] ∧ '[' ∉ put ∧ ']' ∉ put ∧
      IsReference reference ∧ u = written put reference ++ after ∧
      n = (written put reference).length := by
  rw [innermost?, Option.filter_eq_some_iff, link?_eq_some_iff]
  constructor
  · rintro ⟨⟨reference, after, hne, hclose, href, rfl, rfl⟩, hopen⟩
    exact ⟨reference, after, hne, by simpa using hopen, hclose, href, rfl, rfl⟩
  · rintro ⟨reference, after, hne, hopen, hclose, href, rfl, rfl⟩
    exact ⟨⟨reference, after, hne, hclose, href, rfl, rfl⟩, by simpa using hopen⟩

/-- An innermost link at the beginning is replaced by its label. -/
lemma reduceInnermost_append_of_link {label reference : Text} (hne : label ≠ [])
    (hopen : '[' ∉ label) (hclose : ']' ∉ label) (href : IsReference reference) (t : Text) :
    reduceInnermost (written label reference ++ t) = label ++ reduceInnermost t :=
  Text.replaceMatches_append_of_match (List.cons_ne_nil _ _)
    (innermost?_eq_some_iff.2 ⟨reference, t, hne, hopen, hclose, href, rfl, rfl⟩)

/-- No innermost link begins before an opening bracket that comes before the first closing one. -/
lemma innermost?_append_bracket {u : Text} (hne : u ≠ []) (hclose : ']' ∉ u) (t : Text) (n : Nat)
    (put : Text) : innermost? (u ++ '[' :: t) ≠ some (n, put) := by
  intro h
  obtain ⟨reference, after, -, hopen, -, -, heq, -⟩ := innermost?_eq_some_iff.1 h
  obtain ⟨c, u, rfl⟩ := List.exists_cons_of_ne_nil hne
  rw [written, List.cons_append, List.cons_append, List.append_assoc] at heq
  rcases List.append_eq_append_iff.1 (List.cons.inj heq).2 with ⟨v, hput, -⟩ | ⟨v, hput, -⟩
  · cases v with
    | nil => simp_all
    | cons d v => simp_all
  · cases v with
    | nil => simp_all
    | cons d v => simp_all

/-- **Of several opening brackets** before a closing one only the last one can begin an innermost
link. -/
lemma reduceInnermost_append_bracket {u : Text} (hclose : ']' ∉ u) (t : Text) :
    reduceInnermost (u ++ '[' :: t) = u ++ reduceInnermost ('[' :: t) :=
  Text.replaceMatches_append_of_no_match fun _ hne hv _ _ =>
    innermost?_append_bracket hne (fun h => hclose (hv.subset h)) t _ _

/-- A link in whose label the last opening bracket stands after `u`. -/
lemma written_append_bracket (u v reference : Text) :
    written (u ++ '[' :: v) reference = ('[' :: u) ++ written v reference := by
  simp [written]

/-- A text is the same with a character before it and after it exactly if it is made of it. -/
lemma concat_eq_cons_iff {c : Char} {u : Text} : u ++ [c] = c :: u ↔ ∀ d ∈ u, d = c := by
  induction u with
  | nil => simp
  | cons d u ih =>
    rw [List.cons_append, List.cons.injEq, List.forall_mem_cons]
    refine and_congr_right fun hd => ?_
    rw [hd, ih]

/-- A text that holds a character holds it in one place last. -/
lemma exists_eq_append_cons_of_mem_last {c : Char} {t : Text} (h : c ∈ t) :
    ∃ u v, t = u ++ c :: v ∧ c ∉ v := by
  obtain ⟨v, u, hvu, hv⟩ := List.eq_append_cons_of_mem (List.mem_reverse.2 h)
  refine ⟨u.reverse, v.reverse, ?_, by simpa using hv⟩
  rw [← List.reverse_reverse t, hvu]
  simp

/-- **The brackets of a label** stand at its beginning. -/
def OpensFirst (label : Text) : Prop :=
  '[' ∉ label.dropWhile (· = '[')

/-- The brackets of a label stand at its beginning if nothing else comes before the last one. -/
lemma opensFirst_iff {u v : Text} (hv : '[' ∉ v) :
    OpensFirst (u ++ '[' :: v) ↔ ∀ d ∈ u, d = '[' := by
  rw [OpensFirst, List.dropWhile_append]
  split
  next h =>
    have hall : ∀ d ∈ u, d = '[' := by simpa [List.dropWhile_eq_nil_iff] using h
    have hrest : '[' ∉ v.dropWhile (· = '[') := fun hmem =>
      hv ((List.dropWhile_sublist _).subset hmem)
    simpa [hrest] using hall
  next h =>
    have hsome : ¬ ∀ d ∈ u, d = '[' := by simpa [List.dropWhile_eq_nil_iff] using h
    exact iff_of_false (by simp) hsome

/-- **Brackets in labels** make no difference exactly if they stand at the beginnings of the labels,
where the bracket that is lost and the one that is left stand side by side.

Texts with a label of opening brackets alone, as in `[[](@ref)`, are left out: the innermost
brackets have no label and are no link, so all of it stays, while `strip` reduces it to the bracket
of the label.

**Proof sketch.** By links. The innermost link of a label with brackets begins at the last of them:
`strip` drops the first one and leaves the last, the other way about for innermost links. The two
agree if all that comes before the last one are brackets too. -/
theorem strip_eq_reduceInnermost_iff {t : Text} (h : ∀ label ∈ labels 0 t, ∃ c ∈ label, c ≠ '[') :
    strip t = reduceInnermost t ↔ ∀ label ∈ labels 0 t, OpensFirst label := by
  induction t using link_induction with
  | nil => simp [strip, reduceInnermost, Text.replaceMatches, labels]
  | link label reference t hne hclose href ih =>
    rw [labels_append_of_link hne hclose href, List.forall_mem_cons] at h ⊢
    rw [strip_append_of_link hne hclose href, ← ih h.2]
    by_cases hopen : '[' ∈ label
    · obtain ⟨u, v, rfl, hv⟩ := exists_eq_append_cons_of_mem_last hopen
      have hu : ']' ∉ u := fun hmem => hclose (List.mem_append_left _ hmem)
      have hinnermost : reduceInnermost (written (u ++ '[' :: v) reference ++ t) =
          ('[' :: u) ++ reduceInnermost (written v reference ++ t) := by
        rw [written_append_bracket, List.append_assoc]
        exact reduceInnermost_append_bracket (by simpa using hu) _
      have hstrip : (u ++ '[' :: v) ++ strip t = (u ++ ['[']) ++ (v ++ strip t) := by simp
      have hlength : (u ++ ['[']).length = ('[' :: u).length := by simp
      rw [hinnermost, hstrip, opensFirst_iff hv, ← concat_eq_cons_iff]
      by_cases hempty : v = []
      · -- The last bracket has no label, so it is kept, and what comes first tells the texts apart.
        have hother : ¬ u ++ ['['] = '[' :: u := by
          rw [concat_eq_cons_iff, not_forall]
          obtain ⟨c, hc, hne⟩ := h.1
          exact ⟨c, by simpa [hempty, hne] using hc⟩
        exact iff_of_false (fun heq => hother (List.append_inj_left heq hlength))
          fun hand => hother hand.1
      · have hclosed : ']' ∉ v := fun hmem => hclose (by simp [hmem])
        rw [reduceInnermost_append_of_link hempty hv hclosed href]
        constructor
        · intro heq
          obtain ⟨hfirst, hrest⟩ := List.append_inj heq hlength
          exact ⟨hfirst, List.append_cancel_left hrest⟩
        · rintro ⟨hfirst, hrest⟩
          rw [hfirst, hrest]
    · have hfirst : OpensFirst label := fun hmem => hopen ((List.dropWhile_sublist _).subset hmem)
      rw [reduceInnermost_append_of_link hne hopen hclose href, List.append_cancel_left_eq]
      simp [hfirst]
  | char c t hlink ih =>
    have hinnermost : reduceInnermost (c :: t) = c :: reduceInnermost t := by
      refine Text.replaceMatches_cons_of_no_match fun n put hr => hlink ?_
      obtain ⟨reference, after, hput, -, hclose, href, heq, -⟩ := innermost?_eq_some_iff.1 hr
      exact ⟨put, reference, hput, hclose, href, after, heq.symm⟩
    rw [labels_cons_of_not_link hlink] at h ⊢
    rw [strip_cons_of_not_link hlink, hinnermost, List.cons.injEq, ih h]
    simp

/-- Brackets that stand at the beginning of a label make no difference. -/
theorem strip_eq_reduceInnermost_iff_nested :
    (∀ label ∈ labels 0 "see [[this](@ref) and [that](@id c)]".toList, ∃ c ∈ label, c ≠ '[') ∧
      (strip "see [[this](@ref) and [that](@id c)]".toList =
          reduceInnermost "see [[this](@ref) and [that](@id c)]".toList ↔
        ∀ label ∈ labels 0 "see [[this](@ref) and [that](@id c)]".toList, OpensFirst label) :=
  have hlabels : labels 0 "see [[this](@ref) and [that](@id c)]".toList =
      ["[this".toList, "that".toList] := by decide
  have h : ∀ label ∈ labels 0 "see [[this](@ref) and [that](@id c)]".toList,
      ∃ c ∈ label, c ≠ '[' := by
    rw [hlabels, List.forall_mem_cons, List.forall_mem_singleton]
    exact ⟨⟨'t', by decide, by decide⟩, ⟨'t', by decide, by decide⟩⟩
  ⟨h, strip_eq_reduceInnermost_iff h⟩

/-- A bracket in a string of the code before a link is lost. -/
theorem strip_ne_reduceInnermost :
    strip "s = \"[\"\n# See [the guide](@ref).\n".toList ≠
      reduceInnermost "s = \"[\"\n# See [the guide](@ref).\n".toList := by
  decide

end Weave.CrossReference
