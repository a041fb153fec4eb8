import Weave.Text.Basic

set_option autoImplicit false
set_option relaxedAutoImplicit false

/-!
# Numerals

Natural numbers as texts of digits.

## Main definitions

* `Weave.isDigit`, `Weave.hexValue?` — the digits of base ten and of base sixteen.
* `Weave.numeral`, `Weave.hexNumeral` — a number written in base ten and in base sixteen.
* `Weave.numeralValue`, `Weave.hexNumeralValue` — the number that a text of digits writes.

## Main results

* `Weave.numeralValue_numeral` — reading a written number gives the number.
-/

namespace Weave

/-- The ten digits. -/
def isDigit (c : Char) : Bool :=
  '0' ≤ c && c ≤ '9'

/-- The value of a hexadecimal digit, of either case. -/
def hexValue? (c : Char) : Option Nat :=
  if '0' ≤ c ∧ c ≤ '9' then some (c.toNat - 48)
  else if 'a' ≤ c ∧ c ≤ 'f' then some (c.toNat - 87)
  else if 'A' ≤ c ∧ c ≤ 'F' then some (c.toNat - 55)
  else none

/-- A number in base ten, without leading zeros. -/
def numeral (n : Nat) : Text :=
  Nat.toDigits 10 n

/-- A number in base sixteen, in lower case and without leading zeros. -/
def hexNumeral (n : Nat) : Text :=
  Nat.toDigits 16 n

/-- The number that a text of decimal digits writes. -/
def numeralValue (t : Text) : Nat :=
  Nat.ofDigitChars 10 t 0

/-- The number that a text of hexadecimal digits writes; what is no digit counts as zero. -/
def hexNumeralValue (t : Text) : Nat :=
  t.foldl (fun n c => n * 16 + (hexValue? c).getD 0) 0

/-- **Reading a written number** gives the number. -/
@[simp] theorem numeralValue_numeral (n : Nat) : numeralValue (numeral n) = n :=
  Nat.ofDigitChars_toDigits (by decide) (by decide)

/-- `hexNumeralOfWidth w n` writes `n` in base sixteen with at least `w` digits, zeros in front. -/
def hexNumeralOfWidth (w n : Nat) : Text :=
  let digits := hexNumeral n
  List.replicate (w - digits.length) '0' ++ digits

end Weave
