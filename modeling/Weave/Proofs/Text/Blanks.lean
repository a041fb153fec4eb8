import Mathlib.Tactic.Lemma
import Weave.Text.Alphanumeric
import Weave.Text.Blank

set_option autoImplicit false
set_option relaxedAutoImplicit false

/-!
# Blanks and letters

There are twenty-five blank characters, and none of them is a letter or a digit.

## Main definitions

* `Weave.asciiBlanks`, `Weave.otherBlanks` — the blank characters by their scalar values.

## Main results

* `Weave.toNat_mem_of_isBlank` — the blank characters are those that are listed.
* `Weave.isAlphanumeric_of_isBlank` — no blank character is a letter or a digit.
-/

namespace Weave

/-- The blank characters of ASCII. -/
def asciiBlanks : List Nat :=
  [9, 10, 11, 12, 13, 0x20]

/-- The other blank characters. -/
def otherBlanks : List Nat :=
  [0x85, 0xa0, 0x1680, 0x2000, 0x2001, 0x2002, 0x2003, 0x2004, 0x2005, 0x2006, 0x2007, 0x2008,
    0x2009, 0x200a, 0x2028, 0x2029, 0x202f, 0x205f, 0x3000]

variable {c d : Char}

/-- **The blank characters** are those that are listed. -/
theorem toNat_mem_of_isBlank (h : isBlank c = true) :
    c.toNat ∈ asciiBlanks ∨ c.toNat ∈ otherBlanks := by
  simp only [isBlank, Bool.or_eq_true, Bool.and_eq_true, decide_eq_true_eq, beq_iff_eq] at h
  simp only [asciiBlanks, otherBlanks, List.mem_cons, List.not_mem_nil, or_false]
  omega

/-- A blank character is none that is not blank. -/
lemma ne_of_isBlank (h : isBlank c = true) (hd : isBlank d = false) : c ≠ d := by
  rintro rfl
  rw [hd] at h
  cases h

set_option maxRecDepth 100000 in
/-- The table of letters and digits has no range with a blank character. -/
lemma alphanumericTable_excludes_blanks :
    (alphanumericTable.ranges.all fun range =>
      otherBlanks.all fun n => n < range.1 || range.2 < n) = true := by
  -- As a list of characters the table can be read without decoding it first.
  have htable : alphanumericTable = .ofText _ :=
    congrArg CharTable.ofText String.toList_ofList
  rw [htable]
  decide +kernel

/-- **No blank character** is a letter or a digit. -/
theorem isAlphanumeric_of_isBlank (h : isBlank c = true) : isAlphanumeric c = false := by
  have hchar : Char.ofNat c.toNat = c := Char.ofNat_toNat c
  rcases toNat_mem_of_isBlank h with hc | hc
  · have hascii : ∀ n ∈ asciiBlanks, isAlphanumeric (Char.ofNat n) = false := by decide
    rw [← hchar]
    exact hascii _ hc
  · have hbeyond : ∀ n ∈ otherBlanks, ¬ n < 0x80 := by decide
    rw [isAlphanumeric, if_neg (hbeyond _ hc), CharTable.has, List.any_eq_false]
    intro range hrange
    have hexcluded := List.all_eq_true.1 alphanumericTable_excludes_blanks range hrange
    have hoff := List.all_eq_true.1 hexcluded _ hc
    simp only [Bool.or_eq_true, decide_eq_true_eq] at hoff
    simp only [Bool.and_eq_true, decide_eq_true_eq]
    omega

end Weave
