import Weave.Number.Power

set_option autoImplicit false
set_option relaxedAutoImplicit false

/-!
# Double precision numbers as exact numbers

A finite double is an integer times a power of two. Everything that has to be exact, such as
reading and writing decimals, is computed on that form in natural numbers.

## Main definitions

* `Weave.Binary64` — a double taken apart.
* `Weave.Binary64.ofFloat` — takes a double apart.
* `Weave.Binary64.nearest` — the double nearest to a quotient of natural numbers.
* `Weave.Binary64.remainder` — the remainder of a division of doubles whose quotient is cut to an
  integer.
-/

namespace Weave

/-- A double: not a number, an infinity, or `significand * 2 ^ exponent` with a sign. -/
inductive Binary64 where
  | nan
  | infinite (negative : Bool)
  | finite (negative : Bool) (significand : Nat) (exponent : Int)

namespace Binary64

/-- Takes a double apart. The exponent of zero and of the subnormal numbers is the least one. -/
def ofFloat (x : Float) : Binary64 :=
  let bits := x.toBits.toNat
  let negative := bits / twoTo 63 == 1
  let exponent : Nat := bits / twoTo 52 % twoTo 11
  let fraction : Nat := bits % twoTo 52
  if exponent == 2047 then
    if fraction == 0 then infinite negative else nan
  else if exponent == 0 then finite negative fraction (-1074)
  else finite negative (twoTo 52 + fraction) ((exponent : Int) - 1075)

/-- Puts a double together from its sign, a significand below `2 ^ 53` and an exponent that is at
least `-1074`, and equal to that where the significand is below `2 ^ 52`. An exponent that is too
great makes an infinity. -/
def assemble (negative : Bool) (significand : Nat) (exponent : Int) : Float :=
  let sign := if negative then twoTo 63 else 0
  let magnitude :=
    if exponent > 971 then 2047 * twoTo 52
    else if significand < twoTo 52 then significand
    else (exponent + 1075).toNat * twoTo 52 + (significand - twoTo 52)
  Float.ofBits (UInt64.ofNat (sign + magnitude))

/-- `num / den` rounded to the nearest integer, a half to the even neighbour. -/
def roundHalfEven (num den : Nat) : Nat :=
  let q := num / den
  let twice := 2 * (num % den)
  if twice < den then q
  else if twice > den then q + 1
  else if q % 2 == 0 then q else q + 1

/-- `num / den / 2 ^ exponent` rounded to an integer. -/
def significandAt (num den : Nat) (exponent : Int) : Nat :=
  if exponent ≥ 0 then roundHalfEven num (den * twoTo exponent.toNat)
  else roundHalfEven (num * twoTo (-exponent).toNat) den

/-- The least exponent with which the significand of `num / den` stays below `2 ^ 53`, before it is
rounded. -/
def exponentFor (num den : Nat) : Int :=
  let guess := (Nat.log2 num : Int) - (Nat.log2 den : Int) - 53
  -- `num / den` lies between `2 ^ (guess + 52)` and `2 ^ (guess + 54)`.
  let fits :=
    if guess ≥ 0 then num < den * twoTo guess.toNat * twoTo 53
    else num * twoTo (-guess).toNat < den * twoTo 53
  max (if fits then guess else guess + 1) (-1074)

/-- **The double nearest** to `num / den`, a tie going to the even significand; `den` is not
zero. -/
def nearest (negative : Bool) (num den : Nat) : Float :=
  if num == 0 then assemble negative 0 (-1074)
  else
    let e := exponentFor num den
    let m := significandAt num den e
    if m == twoTo 53 then assemble negative (twoTo 52) (e + 1) else assemble negative m e

/-- `significand * 10 ^ exponent` as the nearest double. -/
def ofDecimal (negative : Bool) (significand : Nat) (exponent : Int) : Float :=
  if exponent ≥ 0 then nearest negative (significand * tenTo exponent.toNat) 1
  else nearest negative significand (tenTo (-exponent).toNat)

/-- The remainder of `x / y` when the quotient is cut to an integer; it has the sign of `x`. -/
def remainder (x y : Float) : Float :=
  match ofFloat x, ofFloat y with
  | .finite negative m e, .finite _ n f =>
    if n == 0 then 0.0 / 0.0
    else
      -- Both are integers once they are divided by the smaller power of two.
      let g := min e f
      let r := m * twoTo (e - g).toNat % (n * twoTo (f - g).toNat)
      if g ≥ 0 then nearest negative (r * twoTo g.toNat) 1
      else nearest negative r (twoTo (-g).toNat)
  | .finite .., .infinite _ => x
  | _, _ => 0.0 / 0.0

end Binary64

end Weave
