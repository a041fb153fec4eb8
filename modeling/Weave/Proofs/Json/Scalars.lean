import Mathlib.Data.List.Basic
import Mathlib.Tactic.Lemma
import Weave.Json.Printer
import Weave.Json.Reader

set_option autoImplicit false
set_option relaxedAutoImplicit false

/-!
# Strings and numbers of JSON

A string that is written is read again, whatever characters it has. So is an integer of 64 bits, if
what stands after it does not go on as a number.

## Main definitions

* `Weave.Json.Number.isInteger` — the integers that fit in 64 bits, with a sign or without one.
* `Weave.Json.EndsNumber` — what may stand after a number.

## Main results

* `Weave.Json.stringBody_flatMap_stringChar` — a written string is read again.
* `Weave.Json.numberValue_write` — so is a written integer.
-/

namespace Weave

/-! ## Numerals -/

/-- A numeral consists of digits. -/
lemma isDigit_of_mem_numeral {n : Nat} {c : Char} (h : c ∈ numeral n) : isDigit c = true :=
  Nat.isDigit_of_mem_toDigits (by decide) (by decide) h

/-- A number is written with a digit at least. -/
lemma numeral_ne_nil (n : Nat) : numeral n ≠ [] :=
  Nat.toDigits_ne_nil

/-- A numeral begins with a digit. -/
lemma exists_numeral_eq_cons (n : Nat) : ∃ d ds, numeral n = d :: ds ∧ isDigit d = true := by
  obtain ⟨d, ds, hds⟩ := List.exists_cons_of_ne_nil (numeral_ne_nil n)
  exact ⟨d, ds, hds, isDigit_of_mem_numeral (hds ▸ List.mem_cons_self)⟩

/-- **A numeral begins with a zero** only if it is the numeral of zero. -/
lemma eq_zero_of_head?_numeral {n : Nat} (h : (numeral n).head? = some '0') : n = 0 := by
  induction n using Nat.strongRecOn with
  | ind n ih =>
    rw [numeral, Nat.toDigits_eq_if (by decide)] at h
    split at h
    next hlt =>
      rw [List.head?_cons, Option.some.injEq] at h
      revert hlt h
      exact (by decide : ∀ m < 10, m.digitChar = '0' → m = 0) n
    next hge =>
      rw [List.head?_append_of_ne_nil _ Nat.toDigits_ne_nil] at h
      have hdiv : (numeral (n / 10)).head? = some '0' := h
      have := ih (n / 10) (Nat.div_lt_self (by omega) (by decide)) hdiv
      omega

namespace Json

/-! ## Strings -/

/-- The escape of a control character by its number is read again. -/
lemma codeUnit?_hexNumeral : ∀ n < 0x20,
    (match hexNumeralOfWidth 4 n with
      | [a, b, c, d] => codeUnit? a b c d
      | _ => none) = some n := by
  decide

/-- **A written character** of a string is read again.

**Proof sketch.** Control characters are read as their code units, none of which is half of a pair.
Every other character is read by one of the equations of `stringBody`. -/
lemma stringBody_stringChar (c : Char) (t : Text) :
    stringBody .full (stringChar c ++ t) = consRead c (stringBody .full t) := by
  unfold stringChar
  split
  case h_8 hquote hbackslash _ _ _ _ _ =>
    split
    next hlt =>
      have hunit := codeUnit?_hexNumeral c.toNat hlt
      split at hunit
      next a b d e hnumeral =>
        have hhigh : isHighSurrogate c.toNat = false := by
          simp only [isHighSurrogate, Bool.and_eq_false_iff, decide_eq_false_iff_not]
          omega
        have hlow : isLowSurrogate c.toNat = false := by
          simp only [isLowSurrogate, Bool.and_eq_false_iff, decide_eq_false_iff_not]
          omega
        rw [hnumeral]
        simp [stringBody, hunit, hhigh, hlow, Char.ofNat_toNat]
      next => cases hunit
    next hge =>
      rw [List.singleton_append, stringBody.eq_def]
      simp only [if_neg hquote, if_neg hbackslash, if_neg hge]
  all_goals rfl

/-- **A written string** is read again, up to its closing quotation mark. -/
theorem stringBody_flatMap_stringChar (s rest : Text) :
    stringBody .full (s.flatMap stringChar ++ '"' :: rest) = some (s, rest) := by
  induction s with
  | nil =>
    rw [List.flatMap_nil, List.nil_append, stringBody.eq_def]
    rfl
  | cons c s ih =>
    rw [List.flatMap_cons, List.append_assoc, stringBody_stringChar, ih]
    rfl

/-! ## Numbers -/

/-- **The integers of 64 bits**: those without a sign, and the negative ones with one. -/
def Number.isInteger : Number → Bool
  | .natural n => n ≤ maxWord
  | .negative n => 0 < n && n ≤ twoTo 63
  | .double _ => false

/-- A written integer begins with a digit or a sign. -/
lemma Number.exists_write_eq_cons {n : Number} (hn : n.isInteger = true) :
    ∃ c t, n.write = c :: t ∧ (isDigit c = true ∨ c = '-') := by
  cases n with
  | natural n =>
    obtain ⟨c, t, hnumeral, hc⟩ := exists_numeral_eq_cons n
    exact ⟨c, t, hnumeral, .inl hc⟩
  | negative n => exact ⟨'-', numeral n, rfl, .inr rfl⟩
  | double x => cases hn

/-- What begins a number is none of the other characters. -/
lemma ne_of_beginsNumber {c d : Char} (hc : isDigit c = true ∨ c = '-')
    (hd : isDigit d = false ∧ d ≠ '-') : c ≠ d := by
  rintro rfl
  rcases hc with hc | hc
  · rw [hc] at hd
    cases hd.1
  · exact hd.2 hc

/-- **What may stand after a number**: nothing that a number goes on with. -/
def EndsNumber (rest : Text) : Prop :=
  ∀ c ∈ rest.head?, isDigit c = false ∧ c ≠ '.' ∧ c ≠ 'e' ∧ c ≠ 'E'

section

variable {rest : Text}

/-- The digits of a numeral are taken off the front of a text. -/
lemma takeDigits_numeral (n : Nat) (h : EndsNumber rest) :
    takeDigits (numeral n ++ rest) = (numeral n, rest) := by
  have hall : ∀ c ∈ numeral n, isDigit c = true := fun c => isDigit_of_mem_numeral
  have hstop : rest.takeWhile isDigit = [] ∧ rest.dropWhile isDigit = rest := by
    cases rest with
    | nil => exact ⟨rfl, rfl⟩
    | cons c rest =>
      have hc : ¬ isDigit c = true := by simp [(h c rfl).1]
      exact ⟨List.takeWhile_cons_of_neg hc, List.dropWhile_cons_of_neg hc⟩
  rw [takeDigits, List.takeWhile_append_of_pos hall, List.dropWhile_append_of_pos hall, hstop.1,
    hstop.2, List.append_nil]

/-- No fraction follows. -/
lemma fractionPart_eq (h : EndsNumber rest) : fractionPart rest = some (none, rest) := by
  unfold fractionPart
  split
  next => exact absurd rfl (h '.' rfl).2.1
  next => rfl

/-- No exponent follows. -/
lemma exponentPart_eq (h : EndsNumber rest) : exponentPart rest = some (none, rest) := by
  cases rest with
  | nil => rfl
  | cons c rest =>
    obtain ⟨-, -, he, hE⟩ := h c rfl
    unfold exponentPart
    exact if_neg (by simp [he, hE])

/-- A numeral is the integer part of a number. -/
lemma not_malformed_numeral (n : Nat) :
    ¬ (numeral n = [] ∨ (numeral n).length > 1 ∧ (numeral n).head? = some '0') := by
  rintro (hnil | ⟨hlength, hzero⟩)
  · exact numeral_ne_nil n hnil
  · rw [eq_zero_of_head?_numeral hzero] at hlength
    exact absurd hlength (by decide)

/-- **The parts of a numeral** with a sign. -/
lemma numeralParts_signed (n : Nat) (h : EndsNumber rest) :
    numeralParts ('-' :: (numeral n ++ rest)) =
      some ({ negative := true, whole := numeral n, fraction := none, exponent := none },
        rest) := by
  simp [numeralParts, takeDigits_numeral n h, fractionPart_eq h, exponentPart_eq h,
    not_malformed_numeral]

/-- **The parts of a numeral** without a sign. -/
lemma numeralParts_unsigned (n : Nat) (h : EndsNumber rest) :
    numeralParts (numeral n ++ rest) =
      some ({ negative := false, whole := numeral n, fraction := none, exponent := none },
        rest) := by
  have hsign : ∀ t, numeral n ++ rest ≠ '-' :: t := by
    intro t heq
    obtain ⟨d, ds, hds, hd⟩ := exists_numeral_eq_cons n
    rw [hds, List.cons_append] at heq
    rw [(List.cons.inj heq).1] at hd
    exact absurd hd (by decide)
  simp [numeralParts, takeDigits_numeral n h, fractionPart_eq h, exponentPart_eq h,
    not_malformed_numeral]

/-- **A written integer** is read again. -/
theorem numberValue_write {n : Number} (hn : n.isInteger = true) (h : EndsNumber rest) :
    numberValue .full (n.write ++ rest) = some (.number n, rest) := by
  cases n with
  | natural n =>
    have hle : n ≤ maxWord := by simpa [Number.isInteger] using hn
    simp [numberValue, Number.write, numeralParts_unsigned n h, Numeral.value?, hle]
  | negative n =>
    have hle : 0 < n ∧ n ≤ twoTo 63 := by simpa [Number.isInteger] using hn
    simp [numberValue, Number.write, numeralParts_signed n h, Numeral.value?, hle]
  | double x => cases hn

end

end Json

end Weave
