import Weave.Proofs.Json.Records

set_option autoImplicit false
set_option relaxedAutoImplicit false

/-!
# Entries of maps of JSON

A map is known by its entries: by what is found under each key, and by the order of the keys, which
is always the same. Setting an entry changes what is found under one key and leaves the map in
order. Of the entries that are set one after another the later ones count.

## Main results

* `Weave.Json.lookup_put`, `Weave.Json.lookup_putAll` — what is found after entries were set.
* `Weave.Json.Ordered.put`, `Weave.Json.Ordered.putAll` — the map is in order again.
* `Weave.Json.ordered_canonicalFields` — the map of any fields is in order.
-/

namespace Weave

namespace Text

/-! ## The order of texts -/

/-- The order of keys is transitive. -/
lemma before_trans {a b c : Text} (hab : before a b = true) (hbc : before b c = true) :
    before a c = true := by
  induction a generalizing b c with
  | nil =>
    cases c with
    | nil => cases b <;> simp [before] at hbc
    | cons z c => rfl
  | cons x a ih =>
    cases b with
    | nil => simp [before] at hab
    | cons y b =>
      cases c with
      | nil => simp [before] at hbc
      | cons z c =>
        simp only [before, Bool.or_eq_true, decide_eq_true_eq, Bool.and_eq_true, beq_iff_eq]
          at hab hbc ⊢
        rcases hab with hxy | ⟨rfl, hab⟩ <;> rcases hbc with hyz | ⟨rfl, hbc⟩
        · exact .inl (Nat.lt_trans hxy hyz)
        · exact .inl hxy
        · exact .inl hyz
        · exact .inr ⟨rfl, ih hab hbc⟩

/-- Of two texts one comes before the other. -/
lemma before_of_not_before {a b : Text} (hne : a ≠ b) (h : ¬ before a b = true) :
    before b a = true := by
  induction a generalizing b with
  | nil =>
    cases b with
    | nil => exact absurd rfl hne
    | cons y b => exact absurd rfl h
  | cons x a ih =>
    cases b with
    | nil => rfl
    | cons y b =>
      simp only [before, Bool.or_eq_true, decide_eq_true_eq, Bool.and_eq_true, beq_iff_eq, not_or,
        not_and] at h ⊢
      by_cases hxy : x = y
      · subst hxy
        exact .inr ⟨rfl, ih (fun hab => hne (hab ▸ rfl)) (h.2 rfl)⟩
      · have hcode : x.toNat ≠ y.toNat := fun heq => hxy (Char.toNat_inj.1 heq)
        exact .inl (by omega)

end Text

namespace Json

variable {key k : Text} {fields entries : Fields}

/-! ## Looking up -/

/-- What is found among fields with a first one. -/
lemma lookup_cons (k key : Text) (v : Json) (fields : Fields) :
    List.lookup k ((key, v) :: fields) = if k = key then some v else fields.lookup k := by
  by_cases h : k = key
  · simp [h]
  · rw [List.lookup_cons, beq_false_of_ne h, if_neg h]

/-- **Setting an entry** changes what is found under its key, and nothing else.

**Proof sketch.** Induction on the entries: the entry is set in front, in the place of the first
one, or among the others. -/
lemma lookup_put (k key : Text) (v : Json) (fields : Fields) :
    (put key v fields).lookup k = if k = key then some v else fields.lookup k := by
  induction fields with
  | nil => exact lookup_cons k key v []
  | cons field fields ih =>
    obtain ⟨k', w⟩ := field
    rw [put]
    split
    next heq =>
      subst heq
      simp only [lookup_cons]
      split <;> rfl
    next hne =>
      split
      next => rw [lookup_cons]
      next =>
        simp only [lookup_cons, ih]
        by_cases h : k = k'
        · rw [if_pos h, if_neg fun hk => hne (hk.symm.trans h), if_pos h]
        · rw [if_neg h, if_neg h]

/-- Nothing is found under a key that comes before all keys. -/
lemma lookup_eq_none (h : ∀ field ∈ fields, Text.before key field.1 = true) :
    fields.lookup key = none := by
  rw [List.lookup_eq_none_iff]
  intro field hfield
  have hbefore := h field hfield
  rw [bne_iff_ne]
  rintro rfl
  rw [Text.before_self] at hbefore
  cases hbefore

/-- **Setting the entries of a map**: what is found in it counts before what was there. -/
lemma lookup_putAll (h : Ordered entries) (k : Text) (fields : Fields) :
    (putAll entries fields).lookup k = (entries.lookup k).or (fields.lookup k) := by
  induction entries generalizing fields with
  | nil => rfl
  | cons entry entries ih =>
    obtain ⟨key, v⟩ := entry
    obtain ⟨hbefore, hrest⟩ := List.pairwise_cons.1 h
    have hput : putAll ((key, v) :: entries) fields = putAll entries (put key v fields) := rfl
    rw [hput, ih hrest, lookup_put, lookup_cons]
    by_cases hk : k = key
    · subst hk
      simp [lookup_eq_none hbefore]
    · simp [hk]

/-! ## The order of keys -/

/-- What is put into a map is the only new field. -/
lemma mem_put {field : Text × Json} {v : Json} (h : field ∈ put key v fields) :
    field = (key, v) ∨ field ∈ fields := by
  induction fields with
  | nil => simpa [put] using h
  | cons f fields ih =>
    obtain ⟨k', w⟩ := f
    rw [put] at h
    split at h
    next => exact (List.mem_cons.1 h).imp_right (List.mem_cons_of_mem _)
    next =>
      split at h
      next => exact List.mem_cons.1 h
      next =>
        rcases List.mem_cons.1 h with rfl | h
        · exact .inr List.mem_cons_self
        · exact (ih h).imp_right (List.mem_cons_of_mem _)

/-- **A map is in order** after an entry was set.

**Proof sketch.** Induction on the entries. An entry that is set in front comes before all others by
transitivity (`Text.before_trans`), and one that is set later comes after the first one, as keys are
comparable. -/
lemma Ordered.put (h : Ordered fields) (key : Text) (v : Json) : Ordered (put key v fields) := by
  induction fields with
  | nil => exact List.pairwise_singleton _ _
  | cons field fields ih =>
    obtain ⟨k', w⟩ := field
    obtain ⟨hbefore, hrest⟩ := List.pairwise_cons.1 h
    rw [Json.put]
    split
    next heq =>
      subst heq
      exact List.pairwise_cons.2 ⟨hbefore, hrest⟩
    next hne =>
      split
      next hlt =>
        refine List.pairwise_cons.2 ⟨?_, h⟩
        rw [List.forall_mem_cons]
        exact ⟨hlt, fun f hf => Text.before_trans hlt (hbefore f hf)⟩
      next hlt =>
        refine List.pairwise_cons.2 ⟨fun f hf => ?_, ih hrest⟩
        rcases mem_put hf with rfl | hf
        · exact Text.before_of_not_before hne hlt
        · exact hbefore f hf

/-- A map is in order after entries were set. -/
lemma Ordered.putAll (h : Ordered fields) (entries : Fields) : Ordered (putAll entries fields) := by
  induction entries generalizing fields with
  | nil => exact h
  | cons entry entries ih => exact ih (h.put entry.1 entry.2)

/-- **The map of any fields** is in order. -/
lemma ordered_canonicalFields (fields : Fields) : Ordered (canonicalFields fields) := by
  induction fields with
  | nil => exact List.Pairwise.nil
  | cons field fields ih =>
    obtain ⟨k, v⟩ := field
    rw [canonicalFields]
    split
    next => exact ih
    next => exact ih.put k (canonical v)

end Json

end Weave
