import Mathlib.Data.List.Pairwise
import Weave.Proofs.Filter.Substitution
import Weave.Proofs.Text.Append

set_option autoImplicit false
set_option relaxedAutoImplicit false

/-!
# Placeholders one after another and all at once

The placeholders are replaced one after another, each on the text that the ones before it have left.
So a value that has been put in can complete a placeholder that comes later in the order, by itself
or together with what stands around it, and is then replaced too. Putting all values in at once
leaves the values as they are.

## Main definitions

* `Weave.Placeholder.fillIn` — all values put in at once.
* `Weave.Placeholder.occurrences` — how often a placeholder stands in a text.
* `Weave.Placeholder.Isolated` — a value that completes no placeholder, whatever stands around it.

## Main results

* `Weave.Placeholder.fillIn_append_mark` — each placeholder is replaced where it stands, and what is
  before and after it does not matter.
* `Weave.Placeholder.fillIn_fillIn_eq_iff` — when one more placeholder can be replaced afterwards.
* `Weave.Placeholder.substitute_eq_fillIn_iff` — when one after another is all at once.

## Design

A placeholder begins with a commercial at and has no other one. So no two placeholders overlap, and
a text can be cut in front of any commercial at.
-/

namespace Weave.Placeholder

/-! ## Marks -/

/-- **A mark** begins with a commercial at and has no other one. -/
def IsMark (m : Text) : Prop :=
  ∃ w, m = '@' :: w ∧ '@' ∉ w

/-- A mark is not empty. -/
lemma IsMark.ne_nil {m : Text} (h : IsMark m) : m ≠ [] := by
  obtain ⟨w, rfl, -⟩ := h
  exact List.cons_ne_nil _ _

/-- A mark does not go beyond a commercial at that does not begin it. -/
lemma IsMark.prefix_append_iff {m x : Text} (h : IsMark m) (hx : x ≠ []) (u : Text) :
    m <+: x ++ '@' :: u ↔ m <+: x := by
  refine ⟨fun hpre => ?_, fun hpre => hpre.trans (List.prefix_append x _)⟩
  obtain ⟨w, rfl, hw⟩ := h
  obtain ⟨c, x, rfl⟩ := List.exists_cons_of_ne_nil hx
  rw [List.cons_append, List.cons_prefix_cons] at hpre
  rw [List.cons_prefix_cons]
  refine ⟨hpre.1, ?_⟩
  rcases List.prefix_or_prefix_of_prefix hpre.2 (List.prefix_append x _) with hwx | ⟨y, rfl⟩
  · exact hwx
  · have hy := (List.prefix_append_right_inj x).1 hpre.2
    cases y with
    | nil => rw [List.append_nil]
    | cons d y =>
      rw [(List.cons_prefix_cons.1 hy).1] at hw
      exact absurd (by simp) hw

/-- Placeholders with their values, in an order. -/
abbrev Values :=
  List (Text × Option Text)

/-- **Marks are told apart**: each is a mark, and none is the beginning of another. -/
structure Apart (vs : Values) : Prop where
  isMark : ∀ p ∈ vs, IsMark p.1
  pairwise : (vs.map Prod.fst).Pairwise fun m m' => ¬ m <+: m' ∧ ¬ m' <+: m

/-- The placeholders of settings are told apart. -/
lemma apart_values (s : Settings) : Apart (values s) where
  isMark p hp := by
    simp only [values, List.mem_cons, List.not_mem_nil, or_false] at hp
    rcases hp with rfl | rfl | rfl | rfl
    all_goals exact ⟨_, rfl, by decide⟩
  pairwise := by
    change List.Pairwise _ ["@__NAME__".toList, "@__REPO_ROOT_URL__".toList,
      "@__NBVIEWER_ROOT_URL__".toList, "@__BINDER_ROOT_URL__".toList]
    decide

/-- Two marks at the beginning of a text are the same one. -/
lemma Apart.eq_of_prefix {vs : Values} (h : Apart vs) {p q : Text × Option Text} (hp : p ∈ vs)
    (hq : q ∈ vs) {t : Text} (hpt : p.1 <+: t) (hqt : q.1 <+: t) : p = q := by
  by_contra hne
  have hsymm : Std.Symm fun p q : Text × Option Text => ¬ p.1 <+: q.1 ∧ ¬ q.1 <+: p.1 :=
    ⟨fun _ _ hand => hand.symm⟩
  have hother := (List.pairwise_map.1 h.pairwise).forall hp hq hne
  rcases List.prefix_or_prefix_of_prefix hpt hqt with hpq | hqp
  · exact hother.1 hpq
  · exact hother.2 hqp

/-- The last mark does not begin a text that one of the others begins. -/
lemma Apart.not_prefix_last {vs : Values} {p q : Text × Option Text} (h : Apart (vs ++ [p]))
    (hq : q ∈ vs) {t : Text} (hpt : p.1 <+: t) : ¬ q.1 <+: t := by
  intro hqt
  have hpairwise := List.pairwise_map.1 h.pairwise
  have hother := (List.pairwise_append.1 hpairwise).2.2 q hq p (by simp)
  rcases List.prefix_or_prefix_of_prefix hqt hpt with hqp | hpq
  · exact hother.1 hqp
  · exact hother.2 hpq

/-- Placeholders that come first are told apart if all are. -/
lemma Apart.of_isPrefix {vs ws : Values} (h : Apart ws) (hpre : vs <+: ws) : Apart vs where
  isMark p hp := h.isMark p (hpre.subset hp)
  pairwise := h.pairwise.sublist (hpre.map Prod.fst).sublist

/-- The value that is put in for a placeholder. -/
def valueOf (p : Text × Option Text) : Text :=
  p.2.getD unknownValue

/-! ## All at once -/

/-- Reads one of several placeholders. -/
def mark? (vs : Values) (u : Text) : Option (Nat × Text) :=
  vs.findSome? fun p => Text.literal p.1 (valueOf p) u

/-- **All values put in at once.** -/
def fillIn (vs : Values) (t : Text) : Text :=
  Text.replaceMatches (mark? vs) 0 t

/-- What is read is a placeholder at the beginning. -/
lemma mark?_eq_some {vs : Values} {u put : Text} {n : Nat} (h : mark? vs u = some (n, put)) :
    ∃ p ∈ vs, p.1 <+: u ∧ n = p.1.length ∧ put = valueOf p := by
  obtain ⟨p, hp, hr⟩ := List.exists_of_findSome?_eq_some h
  rw [Text.literal] at hr
  split at hr
  next hs =>
    cases hr
    exact ⟨p, hp, Text.startsWith_iff_prefix.1 hs, rfl, rfl⟩
  next => cases hr

/-- The placeholder at the beginning is read. -/
lemma mark?_append {vs : Values} (h : Apart vs) {p : Text × Option Text} (hp : p ∈ vs) (t : Text) :
    mark? vs (p.1 ++ t) = some (p.1.length, valueOf p) := by
  have hread : Text.literal p.1 (valueOf p) (p.1 ++ t) = some (p.1.length, valueOf p) :=
    if_pos (Text.startsWith_iff.2 ⟨t, rfl⟩)
  obtain ⟨⟨n, put⟩, hsome⟩ : ∃ r, mark? vs (p.1 ++ t) = some r :=
    Option.isSome_iff_exists.1 (List.findSome?_isSome_iff.2 ⟨p, hp, by rw [hread]; rfl⟩)
  obtain ⟨q, hq, hpre, rfl, rfl⟩ := mark?_eq_some hsome
  rw [hsome, h.eq_of_prefix hq hp hpre (List.prefix_append p.1 t)]

section Apart

variable {vs : Values}

/-- What is read before a commercial at does not depend on it. -/
lemma mark?_append_at (h : ∀ p ∈ vs, IsMark p.1) {x : Text} (hx : x ≠ []) (u : Text) :
    mark? vs (x ++ '@' :: u) = mark? vs x := by
  induction vs with
  | nil => rfl
  | cons p vs ih =>
    rw [List.forall_mem_cons] at h
    have hstarts : Text.startsWith p.1 (x ++ '@' :: u) = Text.startsWith p.1 x := by
      rw [Bool.eq_iff_iff, Text.startsWith_iff_prefix, Text.startsWith_iff_prefix,
        h.1.prefix_append_iff hx]
    have hrest := ih h.2
    simp only [mark?, List.findSome?_cons, Text.literal, hstarts] at hrest ⊢
    rw [hrest]

/-- **A text can be cut** in front of a commercial at. -/
lemma fillIn_append_at (h : ∀ p ∈ vs, IsMark p.1) (a u : Text) :
    fillIn vs (a ++ '@' :: u) = fillIn vs a ++ fillIn vs ('@' :: u) := by
  refine Text.replaceMatches_append_of (fun x hx _ => mark?_append_at h hx u) fun x n put hr => ?_
  obtain ⟨p, -, hpre, rfl, -⟩ := mark?_eq_some hr
  exact hpre.length_le

/-- A placeholder at the beginning is replaced. -/
lemma fillIn_mark_append (h : Apart vs) {p : Text × Option Text} (hp : p ∈ vs) (t : Text) :
    fillIn vs (p.1 ++ t) = valueOf p ++ fillIn vs t :=
  Text.replaceMatches_append_of_match (h.isMark p hp).ne_nil (mark?_append h hp t)

/-- **Each placeholder is replaced** where it stands. -/
theorem fillIn_append_mark (h : Apart vs) {p : Text × Option Text} (hp : p ∈ vs) (a b : Text) :
    fillIn vs (a ++ (p.1 ++ b)) = fillIn vs a ++ (valueOf p ++ fillIn vs b) := by
  rw [← fillIn_mark_append h hp]
  obtain ⟨w, hw, -⟩ := h.isMark p hp
  rw [hw]
  exact fillIn_append_at h.isMark a (w ++ b)

/-- A mark that is told apart from all placeholders is kept. -/
lemma fillIn_append_other {p : Text × Option Text} (h : Apart (vs ++ [p])) (a b : Text) :
    fillIn vs (a ++ (p.1 ++ b)) = fillIn vs a ++ (p.1 ++ fillIn vs b) := by
  have hmarks : ∀ q ∈ vs, IsMark q.1 := fun q hq => h.isMark q (List.mem_append_left _ hq)
  obtain ⟨w, hw, hat⟩ := h.isMark p (by simp)
  have hkeep : fillIn vs (p.1 ++ b) = p.1 ++ fillIn vs b := by
    refine Text.replaceMatches_append_of_no_match fun x hx hsuffix n put hr => ?_
    obtain ⟨q, hq, hpre, -⟩ := mark?_eq_some hr
    obtain ⟨v, hv, -⟩ := hmarks q hq
    rw [hw] at hsuffix
    rcases List.suffix_cons_iff.1 hsuffix with rfl | hinside
    · exact h.not_prefix_last hq (hw ▸ List.prefix_append _ b) hpre
    · -- After its first character the mark has no commercial at.
      obtain ⟨c, x, rfl⟩ := List.exists_cons_of_ne_nil hx
      rw [hv, List.cons_append, List.cons_prefix_cons] at hpre
      exact hat (hinside.subset (hpre.1 ▸ List.mem_cons_self))
  rw [← hkeep, hw]
  exact fillIn_append_at hmarks a (w ++ b)

/-- **A text without a placeholder** is left as it is. -/
lemma fillIn_eq_self {t : Text} (h : ∀ p ∈ vs, ¬ p.1 <:+: t) : fillIn vs t = t := by
  refine Text.replaceMatches_eq_self ?_
  rintro ⟨a, u, n, put, rfl, hr⟩
  obtain ⟨p, hp, hpre, -⟩ := mark?_eq_some hr
  exact h p hp (hpre.isInfix.trans (List.suffix_append a u).isInfix)

end Apart

/-! ## Occurrences -/

/-- **How often a text stands** in another one. -/
def occurrences (m : Text) : Text → Nat
  | [] => 0
  | c :: t => occurrences m t + if Text.startsWith m (c :: t) then 1 else 0

/-- A mark occurs as often as after the first character, and once more if the text begins with it.
-/
lemma occurrences_cons (m : Text) (c : Char) (t : Text) :
    occurrences m (c :: t) = occurrences m t + if Text.startsWith m (c :: t) then 1 else 0 :=
  rfl

/-- A text that does not occur stands there no time. -/
lemma occurrences_eq_zero_iff {m t : Text} (hne : m ≠ []) : occurrences m t = 0 ↔ ¬ m <:+: t := by
  induction t with
  | nil => simp [occurrences, hne]
  | cons c t ih =>
    rw [occurrences, List.infix_cons_iff, ← Text.startsWith_iff_prefix]
    split
    next h => simp [h]
    next h => simp [h, ih]

section Occurrences

variable {m : Text} (h : IsMark m)

include h

/-- **A text can be cut** in front of a commercial at when the places of a mark are counted. -/
lemma occurrences_append_at (a u : Text) :
    occurrences m (a ++ '@' :: u) = occurrences m a + occurrences m ('@' :: u) := by
  induction a with
  | nil => simp [occurrences]
  | cons c a ih =>
    have hstarts : Text.startsWith m (c :: (a ++ '@' :: u)) = Text.startsWith m (c :: a) := by
      rw [Bool.eq_iff_iff, Text.startsWith_iff_prefix, Text.startsWith_iff_prefix]
      exact h.prefix_append_iff (List.cons_ne_nil c a) u
    rw [List.cons_append, occurrences_cons, hstarts, ih, occurrences_cons m c a]
    omega

/-- Without a commercial at there is no place for a mark. -/
lemma occurrences_append_of_not_mem {a : Text} (ha : '@' ∉ a) (b : Text) :
    occurrences m (a ++ b) = occurrences m b := by
  induction a with
  | nil => rfl
  | cons c a ih =>
    rw [List.mem_cons, not_or] at ha
    have hstarts : Text.startsWith m (c :: (a ++ b)) = false := by
      obtain ⟨w, rfl, -⟩ := h
      rw [← Bool.not_eq_true, Text.startsWith_iff_prefix, List.cons_prefix_cons]
      exact fun hand => ha.1 hand.1
    rw [List.cons_append, occurrences_cons, hstarts, ih ha.2]
    rfl

/-- **The places of a mark** are those before a place, the place itself, and those after it. -/
lemma occurrences_append_mark (a b : Text) :
    occurrences m (a ++ (m ++ b)) = occurrences m a + 1 + occurrences m b := by
  obtain ⟨w, hm, hw⟩ := id h
  have hinside : occurrences m (w ++ b) = occurrences m b := occurrences_append_of_not_mem h hw b
  have hstarts : Text.startsWith m ('@' :: (w ++ b)) = true :=
    Text.startsWith_iff.2 ⟨b, by rw [hm, List.cons_append]⟩
  have hcut : a ++ (m ++ b) = a ++ '@' :: (w ++ b) := by rw [hm, List.cons_append]
  rw [hcut, occurrences_append_at h, occurrences_cons, hinside, if_pos hstarts]
  omega

end Occurrences

/-- **A text holds no mark**, or holds it in a first place. -/
@[elab_as_elim]
theorem mark_induction {m : Text} (hne : m ≠ []) {motive : Text → Prop}
    (last : ∀ b, ¬ m <:+: b → motive b)
    (mark : ∀ b t, ¬ m <:+: b → motive t → motive (b ++ (m ++ t))) (t : Text) : motive t := by
  induction hn : t.length using Nat.strongRecOn generalizing t with
  | ind n ih =>
    by_cases hin : m <:+: t
    · obtain ⟨⟨b, after⟩, hcut⟩ :=
        Option.isSome_iff_exists.1 ((Text.cutAt?_isSome_iff hne).2 hin)
      have ht := Text.cutAt?_eq_some hcut
      rw [List.append_assoc] at ht
      subst ht
      refine mark b after (Text.not_infix_of_cutAt? hne hcut) (ih after.length ?_ after rfl)
      have := List.length_pos_iff.2 hne
      simp only [List.length_append] at hn
      omega
    · exact last t hin

/-! ## One more placeholder -/

section Step

variable {vs : Values} {p : Text × Option Text}

/-- One more placeholder makes no difference to a text without it. -/
lemma fillIn_concat_of_absent {t : Text} (h : ¬ p.1 <:+: t) :
    fillIn (vs ++ [p]) t = fillIn vs t := by
  refine Text.replaceMatches_congr (fun u hu => ?_) 0
  have hnone : Text.literal p.1 (valueOf p) u = none := by
    refine if_neg fun hstarts => h ?_
    exact (Text.startsWith_iff_prefix.1 hstarts).isInfix.trans hu.isInfix
  rw [mark?, List.findSome?_append, ← mark?]
  simp [hnone]

variable (h : Apart (vs ++ [p]))

include h

/-- **The lengths** with one more placeholder and without. -/
lemma length_fillIn_concat (t : Text) :
    (fillIn (vs ++ [p]) t).length + occurrences p.1 t * p.1.length =
      (fillIn vs t).length + occurrences p.1 t * (valueOf p).length := by
  have hmark : IsMark p.1 := h.isMark p (by simp)
  induction t using mark_induction hmark.ne_nil with
  | last b hb => rw [fillIn_concat_of_absent hb, (occurrences_eq_zero_iff hmark.ne_nil).2 hb]; simp
  | mark b t hb ih =>
    rw [fillIn_append_mark h (by simp), fillIn_append_other h, occurrences_append_mark hmark,
      fillIn_concat_of_absent hb, (occurrences_eq_zero_iff hmark.ne_nil).2 hb]
    simp only [List.length_append, Nat.zero_add, Nat.add_mul, Nat.one_mul]
    omega

/-- No place of a placeholder is lost when others are replaced. -/
lemma occurrences_le_fillIn (t : Text) : occurrences p.1 t ≤ occurrences p.1 (fillIn vs t) := by
  have hmark : IsMark p.1 := h.isMark p (by simp)
  induction t using mark_induction hmark.ne_nil with
  | last b hb =>
    rw [(occurrences_eq_zero_iff hmark.ne_nil).2 hb]
    exact Nat.zero_le _
  | mark b t hb ih =>
    rw [fillIn_append_other h, occurrences_append_mark hmark, occurrences_append_mark hmark,
      (occurrences_eq_zero_iff hmark.ne_nil).2 hb]
    omega

/-- **One more placeholder changes nothing** exactly if its value is itself or it does not occur.

**Proof sketch.** The length of the text changes by the difference of the two lengths at each
occurrence (`length_fillIn_concat`). So if the text does not change and there is an occurrence,
value and placeholder are of one length, and at the first occurrence they are compared. -/
lemma fillIn_concat_eq_iff (t : Text) :
    fillIn (vs ++ [p]) t = fillIn vs t ↔ valueOf p = p.1 ∨ occurrences p.1 t = 0 := by
  have hmark : IsMark p.1 := h.isMark p (by simp)
  constructor
  · intro heq
    have hlength := length_fillIn_concat h t
    rw [heq, Nat.add_left_cancel_iff] at hlength
    refine or_iff_not_imp_right.2 fun hoccurs => ?_
    have hsame := Nat.eq_of_mul_eq_mul_left (Nat.pos_of_ne_zero hoccurs) hlength
    induction t using mark_induction hmark.ne_nil with
    | last b hb => exact absurd ((occurrences_eq_zero_iff hmark.ne_nil).2 hb) hoccurs
    | mark b t hb _ =>
      rw [fillIn_append_mark h (by simp), fillIn_append_other h,
        fillIn_concat_of_absent hb] at heq
      exact List.append_inj_left (List.append_cancel_left heq) hsame.symm
  · rintro (hvalue | hnone)
    · induction t using mark_induction hmark.ne_nil with
      | last b hb => exact fillIn_concat_of_absent hb
      | mark b t hb ih =>
        rw [fillIn_append_mark h (by simp), fillIn_append_other h, fillIn_concat_of_absent hb,
          hvalue, ih]
    · exact fillIn_concat_of_absent ((occurrences_eq_zero_iff hmark.ne_nil).1 hnone)

/-- A placeholder alone is told apart. -/
lemma Apart.single : Apart ([] ++ [p]) where
  isMark q hq := h.isMark q (List.mem_append_right vs hq)
  pairwise := by simp

omit h in
/-- Without values a text is left as it is. -/
lemma fillIn_nil (t : Text) : fillIn [] t = t :=
  fillIn_eq_self (by simp)

/-- **When one more placeholder can be replaced afterwards**: exactly if its value is itself, or the
values that have been put in complete no further one.

**Proof sketch.** Each further place changes the length of the text by the same amount. If that is
none, the texts can be compared from place to place. -/
theorem fillIn_fillIn_eq_iff (t : Text) :
    fillIn [p] (fillIn vs t) = fillIn (vs ++ [p]) t ↔
      valueOf p = p.1 ∨ occurrences p.1 (fillIn vs t) = occurrences p.1 t := by
  have hmark : IsMark p.1 := h.isMark p (by simp)
  have hlength (a : Text) := fillIn_nil a ▸ length_fillIn_concat h.single a
  have hself (a : Text) := fillIn_nil a ▸ fillIn_concat_eq_iff h.single a
  have hstep (b a : Text) : fillIn [p] (b ++ (p.1 ++ a)) =
      fillIn [p] b ++ (valueOf p ++ fillIn [p] a) := fillIn_append_mark h.single (by simp) b a
  rw [List.nil_append] at hlength hself
  constructor
  · intro heq
    by_cases hsame : p.1.length = (valueOf p).length
    · induction t using mark_induction hmark.ne_nil with
      | last b hb =>
        rw [fillIn_concat_of_absent hb, hself] at heq
        rwa [(occurrences_eq_zero_iff hmark.ne_nil).2 hb]
      | mark b t hb ih =>
        have hbefore := hlength (fillIn vs b)
        rw [hsame, Nat.add_right_cancel_iff] at hbefore
        rw [fillIn_append_other h, hstep, fillIn_append_mark h (by simp),
          fillIn_concat_of_absent hb] at heq
        obtain ⟨hfirst, hrest⟩ := List.append_inj heq hbefore
        rcases (hself _).1 hfirst with hvalue | hnone
        · exact .inl hvalue
        · refine (ih (List.append_cancel_left hrest)).imp_right fun hplaces => ?_
          rw [fillIn_append_other h, occurrences_append_mark hmark, occurrences_append_mark hmark,
            hnone, hplaces, (occurrences_eq_zero_iff hmark.ne_nil).2 hb]
    · have hafter := hlength (fillIn vs t)
      have honce := length_fillIn_concat h t
      obtain ⟨d, hd⟩ := Nat.exists_eq_add_of_le (occurrences_le_fillIn h t)
      rw [heq, hd, Nat.add_mul, Nat.add_mul] at hafter
      have hzero : d = 0 := by
        by_contra hne
        exact hsame (Nat.eq_of_mul_eq_mul_left (Nat.pos_of_ne_zero hne) (by omega))
      exact .inr (by rw [hd, hzero, Nat.add_zero])
  · rintro (hvalue | hplaces)
    · rw [(hself _).2 (.inl hvalue), (fillIn_concat_eq_iff h t).2 (.inl hvalue)]
    · induction t using mark_induction hmark.ne_nil with
      | last b hb =>
        rw [(occurrences_eq_zero_iff hmark.ne_nil).2 hb] at hplaces
        rw [fillIn_concat_of_absent hb, (hself _).2 (.inr hplaces)]
      | mark b t hb ih =>
        have hle := occurrences_le_fillIn h t
        rw [fillIn_append_other h, occurrences_append_mark hmark, occurrences_append_mark hmark,
          (occurrences_eq_zero_iff hmark.ne_nil).2 hb] at hplaces
        rw [fillIn_append_other h, hstep, fillIn_append_mark h (by simp),
          fillIn_concat_of_absent hb, (hself _).2 (.inr (by omega)), ih (by omega)]

end Step

/-! ## One after another -/

/-- Replacing one placeholder is putting its value in. -/
lemma replace_eq_fillIn {p : Text × Option Text} (hne : p.1 ≠ []) (t : Text) :
    Text.replace p.1 (valueOf p) t = fillIn [p] t := by
  rw [Text.replace_eq_replaceMatches hne]
  refine Text.replaceMatches_congr (fun u _ => ?_) 0
  rw [mark?, List.findSome?_cons]
  split <;> simp_all

/-- **One after another is all at once**, at each of the placeholders, exactly if the values that
are put in for the ones before it complete none of them, or it has itself for its value.

**Proof sketch.** Each step puts one more value in, everywhere in the text that the steps before
have made. Filling in all at once puts it in at the placeholders of the text itself; the two are
compared by `fillIn_fillIn_eq_iff`. -/
theorem replaceEach_eq_fillIn_iff {ws : Values} (h : Apart ws) (t : Text) :
    (∀ vs, vs <+: ws → replaceEach vs t = fillIn vs t) ↔
      ∀ vs p, vs ++ [p] <+: ws →
        valueOf p = p.1 ∨ occurrences p.1 (fillIn vs t) = occurrences p.1 t := by
  have hstep (vs : Values) (p : Text × Option Text) (hpre : vs ++ [p] <+: ws) :
      replaceEach (vs ++ [p]) t = fillIn [p] (replaceEach vs t) := by
    have hne := (h.isMark p (hpre.subset (by simp))).ne_nil
    rw [← replace_eq_fillIn hne, replaceEach, List.foldl_append]
    rfl
  constructor
  · intro hall vs p hpre
    rw [← fillIn_fillIn_eq_iff (h.of_isPrefix hpre),
      ← hall vs ((List.prefix_append vs [p]).trans hpre), ← hstep vs p hpre]
    exact hall _ hpre
  · intro hplaces vs
    induction vs using List.reverseRecOn with
    | nil => exact fun _ => (fillIn_nil t).symm
    | append_singleton vs p ih =>
      intro hpre
      rw [hstep vs p hpre, ih ((List.prefix_append vs [p]).trans hpre),
        fillIn_fillIn_eq_iff (h.of_isPrefix hpre)]
      exact hplaces vs p hpre

/-! ## Isolated values -/

/-- **A value is isolated** from a mark: its first and its last character stand nowhere in the mark,
and it does not hold the mark. -/
structure Isolated (v m : Text) : Prop where
  first : ∃ c r, v = c :: r ∧ c ∉ m
  last : ∃ c, v.getLast? = some c ∧ c ∉ m
  inside : ¬ m <:+: v

/-- No mark begins in a text that does not hold it and ends with a character that it does not
hold. -/
lemma occurrences_append_of_last {m x : Text} (hlast : ∀ c, x.getLast? = some c → c ∉ m)
    (hinside : ¬ m <:+: x) (y : Text) : occurrences m (x ++ y) = occurrences m y := by
  induction x with
  | nil => rfl
  | cons c x ih =>
    have hstarts : ¬ Text.startsWith m (c :: (x ++ y)) = true := by
      rw [Text.startsWith_iff_prefix]
      intro hpre
      rcases List.prefix_or_prefix_of_prefix hpre (List.prefix_append (c :: x) y) with hm | hx
      · exact hinside hm.isInfix
      · have hmem := hx.subset (List.getLast_mem (List.cons_ne_nil c x))
        exact hlast _ (List.getLast?_eq_some_getLast _) hmem
    rw [List.cons_append, occurrences_cons, if_neg hstarts]
    refine ih (fun d hd => hlast d ?_) fun hin => hinside (hin.trans (List.suffix_cons c x).isInfix)
    rw [List.getLast?_cons, hd, Option.getD_some]

/-- **A text is empty**, or begins with a placeholder, or with a character that begins none. -/
@[elab_as_elim]
theorem placeholder_induction {vs : Values} (hne : ∀ p ∈ vs, p.1 ≠ []) {motive : Text → Prop}
    (nil : motive []) (mark : ∀ p ∈ vs, ∀ t, motive t → motive (p.1 ++ t))
    (char : ∀ c t, (∀ p ∈ vs, ¬ p.1 <+: c :: t) → motive t → motive (c :: t)) (t : Text) :
    motive t := by
  refine Text.prefix_induction (p := fun m => ∃ p ∈ vs, m = p.1) ?_ nil ?_ ?_ t
  · rintro m ⟨p, hp, rfl⟩
    exact hne p hp
  · rintro m ⟨p, hp, rfl⟩
    exact mark p hp
  · exact fun c t hnone => char c t fun p hp => hnone p.1 ⟨p, hp, rfl⟩

section Isolated

variable {vs : Values} {p : Text × Option Text}

/-- A character that begins no placeholder is kept. -/
lemma fillIn_cons_of_no_mark {c : Char} {t : Text} (h : ∀ q ∈ vs, ¬ q.1 <+: c :: t) :
    fillIn vs (c :: t) = c :: fillIn vs t := by
  refine Text.replaceMatches_cons_of_no_match fun n put hr => ?_
  obtain ⟨q, hq, hpre, -⟩ := mark?_eq_some hr
  exact h q hq hpre

/-- What has no commercial at, and no first character of a value, begins the text with the values
put in exactly if it begins the text.

**Proof sketch.** Induction along the placeholders of the text. None begins with a character of what
is looked for, and no value does, so where one stands neither text begins with it. -/
lemma prefix_fillIn_iff (h : Apart vs) {w : Text} (hw : '@' ∉ w)
    (hfirst : ∀ q ∈ vs, ∃ c r, valueOf q = c :: r ∧ c ∉ w) (t : Text) :
    w <+: fillIn vs t ↔ w <+: t := by
  induction t using placeholder_induction fun q hq => (h.isMark q hq).ne_nil generalizing w with
  | nil => rfl
  | mark q hq t _ =>
    cases w with
    | nil => simp
    | cons d w =>
      obtain ⟨c, r, hvalue, hc⟩ := hfirst q hq
      obtain ⟨v, hv, -⟩ := h.isMark q hq
      rw [fillIn_mark_append h hq, hvalue, hv, List.cons_append, List.cons_append,
        List.cons_prefix_cons, List.cons_prefix_cons]
      refine iff_of_false (fun hand => hc ?_) fun hand => hw ?_
      · exact hand.1 ▸ List.mem_cons_self
      · exact hand.1 ▸ List.mem_cons_self
  | char c t hnone ih =>
    cases w with
    | nil => simp
    | cons d w =>
      rw [fillIn_cons_of_no_mark hnone, List.cons_prefix_cons, List.cons_prefix_cons,
        ih (fun hmem => hw (List.mem_cons_of_mem d hmem)) fun q hq => ?_]
      obtain ⟨e, r, hvalue, he⟩ := hfirst q hq
      exact ⟨e, r, hvalue, fun hmem => he (List.mem_cons_of_mem d hmem)⟩

/-- **Isolated values** complete no placeholder.

**Proof sketch.** Induction along the placeholders of the text. A value has no occurrence in it,
and neither of its ends begins or completes one (`occurrences_append_of_last`). At any other
character an occurrence begins after the values are filled in exactly if one did before
(`prefix_fillIn_iff`). -/
lemma occurrences_fillIn_of_isolated (h : Apart (vs ++ [p]))
    (hisolated : ∀ q ∈ vs, Isolated (valueOf q) p.1) (t : Text) :
    occurrences p.1 (fillIn vs t) = occurrences p.1 t := by
  have hapart : Apart vs := h.of_isPrefix (List.prefix_append vs [p])
  have hmark : IsMark p.1 := h.isMark p (by simp)
  obtain ⟨w, hm, hw⟩ := id hmark
  induction t using placeholder_induction fun q hq => (hapart.isMark q hq).ne_nil with
  | nil => rfl
  | mark q hq t ih =>
    obtain ⟨c, hlast, hc⟩ := (hisolated q hq).last
    have hvalue : ∀ d, (valueOf q).getLast? = some d → d ∉ p.1 := by
      intro d hd
      rwa [← Option.some.inj (hlast.symm.trans hd)]
    have hstarts : ¬ Text.startsWith p.1 (q.1 ++ t) = true := by
      rw [Text.startsWith_iff_prefix]
      exact fun hpre => h.not_prefix_last hq hpre (List.prefix_append q.1 t)
    obtain ⟨v, hv, hat⟩ := hapart.isMark q hq
    rw [fillIn_mark_append hapart hq, occurrences_append_of_last hvalue (hisolated q hq).inside, ih]
    rw [hv, List.cons_append] at hstarts ⊢
    rw [occurrences_cons, if_neg hstarts, occurrences_append_of_not_mem hmark hat]
    rfl
  | char c t hnone ih =>
    have hstarts : Text.startsWith p.1 (c :: fillIn vs t) = Text.startsWith p.1 (c :: t) := by
      rw [Bool.eq_iff_iff, Text.startsWith_iff_prefix, Text.startsWith_iff_prefix, hm,
        List.cons_prefix_cons, List.cons_prefix_cons, prefix_fillIn_iff hapart hw fun q hq => ?_]
      obtain ⟨d, r, hvalue, hd⟩ := (hisolated q hq).first
      exact ⟨d, r, hvalue, fun hmem => hd (hm ▸ List.mem_cons_of_mem '@' hmem)⟩
    rw [fillIn_cons_of_no_mark hnone, occurrences_cons, hstarts, ih, ← occurrences_cons]

end Isolated

/-- **The placeholders are replaced all at once**, whatever the text, if each value is isolated from
the placeholders that come later in the order. For one text this is so at each placeholder exactly
if the values that have been put in complete none, or it has itself for its value.

**Proof sketch.** Step by step: putting one more value in everywhere is the same as putting it in at
the placeholders of the text, exactly if the values before it complete none of its own
(`replaceEach_eq_fillIn_iff`). Isolated values complete none (`occurrences_fillIn_of_isolated`). -/
theorem substitute_eq_fillIn_iff (s : Settings) (t : Text) :
    ((∀ vs, vs <+: values s → replaceEach vs t = fillIn vs t) ↔
      ∀ vs p, vs ++ [p] <+: values s →
        valueOf p = p.1 ∨ occurrences p.1 (fillIn vs t) = occurrences p.1 t) ∧
    ((∀ vs p, vs ++ [p] <+: values s → ∀ q ∈ vs, Isolated (valueOf q) p.1) →
      substitute s t = fillIn (values s) t) := by
  have hiff := replaceEach_eq_fillIn_iff (apart_values s) t
  refine ⟨hiff, fun hisolated => ?_⟩
  rw [substitute_eq]
  refine hiff.2 (fun vs p hpre => .inr ?_) (values s) (List.prefix_refl _)
  exact occurrences_fillIn_of_isolated ((apart_values s).of_isPrefix hpre) (hisolated vs p hpre) t

/-- A name that is a placeholder is replaced in its turn. -/
theorem substitute_ne_fillIn :
    substitute { name? := some "@__BINDER_ROOT_URL__".toList } "# @__NAME__\n".toList ≠
      fillIn (values { name? := some "@__BINDER_ROOT_URL__".toList }) "# @__NAME__\n".toList := by
  decide +kernel

end Weave.Placeholder
