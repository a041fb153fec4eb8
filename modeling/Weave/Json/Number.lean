import Weave.Json.Basic
import Weave.Number.Shortest

set_option autoImplicit false
set_option relaxedAutoImplicit false

/-!
# JSON numbers

How a JSON number is read and written. An integer stays one while it fits in 64 bits. Any other
number becomes a double: as many of its leading digits as fit in 64 bits, converted to a double, are
multiplied or divided by a power of ten that is a double itself. Digits beyond these only count.

A double is written with its shortest digits, without an exponent if its leading digit lies between
the fifth place after the point and the sixteenth before it.

## Main definitions

* `Weave.Json.Numeral` — the parts of a written number.
* `Weave.Json.Numeral.value?` — its value, unless that is too great.
* `Weave.Json.Number.write` — a number written.
-/

namespace Weave.Json

/-- The parts of a written number: its sign, the digits of its integer part, the digits of its
fraction, and the sign and the digits of its exponent. -/
structure Numeral where
  negative : Bool
  whole : Text
  fraction : Option Text
  exponent : Option (Bool × Text)
deriving DecidableEq, Repr

/-- The greatest integer of 64 bits. -/
def maxWord : Nat :=
  twoTo 64 - 1

/-- Appends digits to a significand for as long as it fits in 64 bits: the significand and the
number of digits appended. -/
def absorb (significand : Nat) : Text → Nat × Nat
  | [] => (significand, 0)
  | d :: ds =>
    let next := significand * 10 + (d.toNat - 48)
    if next > maxWord then (significand, 0)
    else
      let (s, n) := absorb next ds
      (s, n + 1)

/-- The double nearest to `10 ^ k`. -/
def powerOfTen (k : Nat) : Float :=
  Binary64.nearest false (tenTo k) 1

/-- Divides by `10 ^ k`, in steps of at most 308 places. The first argument bounds the number of
steps; a third step always arrives at zero. -/
def divideDown : Nat → Float → Nat → Float
  | 0, x, _ => x
  | steps + 1, x, k =>
    if k ≤ 308 then x / powerOfTen k
    else if x == 0.0 then x
    else divideDown steps (x / powerOfTen 308) (k - 308)

/-- `significand * 10 ^ exponent` as a double, unless it is too great. -/
def scale? (significand : Nat) (exponent : Int) : Option Float :=
  let x := Binary64.nearest false significand 1
  if exponent < 0 then some (divideDown 4 x (-exponent).toNat)
  else if exponent ≤ 308 then
    let y := x * powerOfTen exponent.toNat
    if y.isInf then none else some y
  else if significand == 0 then some x
  else none

/-- The range of exponents that are computed with: beyond it they are cut off. -/
def clampExponent (e : Int) : Int :=
  max (-2147483648) (min 2147483647 e)

/-- The magnitude of a number as a double, unless it is too great. -/
def Numeral.magnitude? (n : Numeral) : Option Float :=
  let (s₀, taken) := absorb 0 n.whole
  let e₀ : Int := n.whole.length - taken
  let (s, places) := absorb s₀ (n.fraction.getD [])
  let e := e₀ - (places : Int)
  match n.exponent with
  | none => scale? s e
  | some (minus, digits) =>
    let shift := numeralValue digits
    if shift ≥ twoTo 31 then if s ≠ 0 ∧ minus = false then none else some 0.0
    else scale? s (clampExponent (if minus then e - shift else e + shift))

/-- **The value of a written number**, unless it is too great for a double. Zero with a minus sign
is a double. -/
def Numeral.value? (n : Numeral) : Option Number :=
  let whole := numeralValue n.whole
  if n.fraction = none ∧ n.exponent = none ∧ n.negative = false ∧ whole ≤ maxWord then
    some (.natural whole)
  else if n.fraction = none ∧ n.exponent = none ∧ n.negative = true ∧
      0 < whole ∧ whole ≤ twoTo 63 then
    some (.negative whole)
  else n.magnitude?.map fun x => .double (if n.negative then -x else x)

/-- The digits and the exponent of a double in the form in which only the first digit stands before
the point. -/
def writeScientific (digits : Text) (exponent : Int) : Text :=
  let sign := if exponent < 0 then '-' else '+'
  let fraction := if digits.length ≤ 1 then [] else '.' :: digits.drop 1
  digits.take 1 ++ fraction ++ 'e' :: sign :: numeral exponent.natAbs

/-- A double that is a number, written. -/
def writeDouble (x : Float) : Text :=
  match Binary64.ofFloat x with
  | .finite negative m e =>
    let sign := if negative then ['-'] else []
    if m = 0 then sign ++ "0.0".toList
    else
      let d := Decimal.shortest .even m e
      let digits := numeral d.digits
      -- The power of ten of the leading digit.
      let lead := d.exponent + digits.length - 1
      if -5 ≤ lead ∧ lead ≤ 15 then
        sign ++ d.positional ++ (if d.exponent ≥ 0 then ".0".toList else [])
      else sign ++ writeScientific digits lead
  | _ => "null".toList

/-- **A number written.** -/
def Number.write : Number → Text
  | .natural n => numeral n
  | .negative n => '-' :: numeral n
  | .double x => writeDouble x

end Weave.Json
