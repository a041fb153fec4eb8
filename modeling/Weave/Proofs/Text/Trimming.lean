import Mathlib.Data.List.DropRight
import Weave.Text.Blank

set_option autoImplicit false
set_option relaxedAutoImplicit false

/-!
# Trimming

Trimming takes away a stretch of blanks at either end and nothing else, so blanks that are put at
the end of a text make no difference to what is left.

## Main results

* `Weave.Text.exists_eq_trimEnd_append` — a text is what is left of it, and blanks.
* `Weave.Text.trim_append_blanks`, `Weave.Text.trimEnd_append_blanks` — blanks at the end make no
  difference.
* `Weave.Text.trim_trimEnd` — trimming the end first makes no difference.
-/

namespace Weave.Text

variable {p : Char → Bool}

/-! ## Any class of characters -/

/-- A character of the class at the end is trimmed away. -/
lemma trimEndBy_concat_of_pos {c : Char} (h : p c = true) (t : Text) :
    trimEndBy p (t ++ [c]) = trimEndBy p t :=
  List.rdropWhile_concat_pos p t c h

/-- Characters of the class at the end are trimmed away. -/
lemma trimEndBy_append {z : Text} (hz : ∀ c ∈ z, p c = true) (t : Text) :
    trimEndBy p (t ++ z) = trimEndBy p t := by
  induction z using List.reverseRecOn with
  | nil => simp
  | append_singleton z c ih =>
    rw [← List.append_assoc, trimEndBy_concat_of_pos (hz c (by simp))]
    exact ih fun d hd => hz d (by simp [hd])

/-- **What is trimmed away** at the end is of the class. -/
lemma exists_eq_trimEndBy_append (t : Text) :
    ∃ z, t = trimEndBy p t ++ z ∧ ∀ c ∈ z, p c = true :=
  ⟨t.rtakeWhile p, (List.rdropWhile_append_rtakeWhile).symm, fun _ => List.mem_rtakeWhile_imp⟩

/-! ## Blanks -/

/-- **Blanks at the end** are trimmed away. -/
lemma trimEnd_append_blanks {z : Text} (hz : ∀ c ∈ z, isBlank c = true) (t : Text) :
    trimEnd (t ++ z) = trimEnd t :=
  trimEndBy_append hz t

/-- A text is what is left of it when its end is trimmed, and blanks. -/
lemma exists_eq_trimEnd_append (t : Text) : ∃ z, t = t.trimEnd ++ z ∧ ∀ c ∈ z, isBlank c = true :=
  exists_eq_trimEndBy_append t

/-- Blanks at the end do not change what is left when both ends are trimmed. -/
lemma trim_append_blanks {z : Text} (hz : ∀ c ∈ z, isBlank c = true) (t : Text) :
    trim (t ++ z) = trim t := by
  simp only [trim, trimBy, trimStartBy, List.dropWhile_append]
  split
  next h =>
    rw [List.isEmpty_iff] at h
    rw [h, List.dropWhile_eq_nil_iff.2 hz]
  next => exact trimEndBy_append hz _

/-- Trimming the end first makes no difference to trimming both ends. -/
lemma trim_trimEnd (t : Text) : trim t.trimEnd = trim t := by
  obtain ⟨z, ht, hz⟩ := exists_eq_trimEnd_append t
  conv_rhs => rw [ht]
  rw [trim_append_blanks hz]

/-- Trimming the beginning first makes no difference to trimming both ends. -/
lemma trim_trimStart (t : Text) : trim t.trimStart = trim t :=
  congrArg (trimEndBy isBlank) (List.dropWhile_idempotent isBlank t)

/-- Trimming the end twice is trimming it once. -/
lemma trimEnd_trimEnd (t : Text) : trimEnd t.trimEnd = t.trimEnd :=
  List.rdropWhile_idempotent isBlank t

/-- Blanks at the beginning do not change what is left when both ends are trimmed. -/
lemma trim_blanks_append {a : Text} (ha : ∀ c ∈ a, isBlank c = true) (t : Text) :
    trim (a ++ t) = trim t := by
  rw [trim, trimBy, trimStartBy, List.dropWhile_append_of_pos ha]
  rfl

/-- A text is what is left of it when both ends are trimmed, with blanks before and after it. -/
lemma exists_eq_append_trim_append (t : Text) :
    ∃ a z, t = a ++ (trim t ++ z) ∧ (∀ c ∈ a, isBlank c = true) ∧ ∀ c ∈ z, isBlank c = true := by
  obtain ⟨z, hz, hblank⟩ := exists_eq_trimEnd_append t.trimStart
  refine ⟨t.takeWhile isBlank, z, ?_, fun c => List.mem_takeWhile_imp, hblank⟩
  calc t = t.takeWhile isBlank ++ t.trimStart := (List.takeWhile_append_dropWhile).symm
    _ = t.takeWhile isBlank ++ (trim t ++ z) := congrArg (t.takeWhile isBlank ++ ·) hz

/-- Trimming twice is trimming once. -/
lemma trim_trim (t : Text) : trim (trim t) = trim t := by
  obtain ⟨a, z, ht, ha, hz⟩ := exists_eq_append_trim_append t
  conv_rhs => rw [ht]
  rw [trim_blanks_append ha, trim_append_blanks hz]

/-- Trimming the beginning stops at a character that is not blank. -/
lemma trimStart_append_cons {c : Char} (hc : isBlank c = false) (a t : Text) :
    trimStart (a ++ c :: t) = trimStart a ++ c :: t := by
  rw [trimStart, trimStart, trimStartBy, trimStartBy, List.dropWhile_append]
  split
  next h => rw [List.isEmpty_iff.1 h, List.dropWhile_cons_of_neg (by simp [hc]), List.nil_append]
  next => rfl

/-- Trimming the end stops at a character that is not blank. -/
lemma trimEnd_append_cons {c : Char} (hc : isBlank c = false) (a t : Text) :
    trimEnd (a ++ c :: t) = a ++ c :: trimEnd t := by
  rw [trimEnd, trimEnd, trimEndBy, trimEndBy, List.reverse_append, List.reverse_cons,
    List.append_assoc, List.singleton_append]
  have h := trimStart_append_cons hc t.reverse a.reverse
  rw [trimStart, trimStart, trimStartBy, trimStartBy] at h
  rw [h]
  simp

section Cut

variable {p : Char → Bool} (hp : ∀ c, isBlank c = true → p c = true)

include hp

/-- Blanks around a text make no difference to what comes first in it. -/
lemma trim_takeWhile_trim (t : Text) : trim ((trim t).takeWhile p) = trim (t.takeWhile p) := by
  obtain ⟨a, z, ht, ha, hz⟩ := exists_eq_append_trim_append t
  conv_rhs => rw [ht, List.takeWhile_append_of_pos fun c hc => hp c (ha c hc),
    trim_blanks_append ha, List.takeWhile_append]
  split
  next h => rw [List.takeWhile_eq_self_iff.2 fun c hc => hp c (hz c hc), trim_append_blanks hz,
    (List.takeWhile_prefix p).eq_of_length h]
  next => rfl

/-- Blanks around a text make no difference to what comes after that. -/
lemma trim_dropWhile_trim (t : Text) : trim ((trim t).dropWhile p) = trim (t.dropWhile p) := by
  obtain ⟨a, z, ht, ha, hz⟩ := exists_eq_append_trim_append t
  conv_rhs => rw [ht, List.dropWhile_append_of_pos fun c hc => hp c (ha c hc),
    List.dropWhile_append]
  split
  next h => rw [List.isEmpty_iff.1 h, List.dropWhile_eq_nil_iff.2 fun c hc => hp c (hz c hc)]
  next => rw [trim_append_blanks hz]

end Cut

end Weave.Text
