import Weave.Number.Binary64
import Weave.Text.Numeral

set_option autoImplicit false
set_option relaxedAutoImplicit false

/-!
# The shortest decimal of a double

Among the decimals that are read back as a given double, the ones with the fewest digits are
considered, and of these the one nearest to the double is taken.

The reals that are read back as `m * 2 ^ e` form an interval around it, whose ends belong to it when
`m` is even. A decimal with `d` digits lies on a grid of powers of ten, and if a point of the grid
lies in the interval, then so does one of the two neighbours of the double on the grid. So the grids
are tried from the coarsest to the finest.

## Main definitions

* `Weave.Decimal` — an integer times a power of ten.
* `Weave.Decimal.shortest` — the shortest decimal of a positive double.
* `Weave.Decimal.positional` — a decimal written without an exponent.
-/

namespace Weave

/-- The number `digits * 10 ^ exponent`. -/
structure Decimal where
  digits : Nat
  exponent : Int
deriving DecidableEq, Repr

namespace Decimal

/-- A positive rational number as a quotient of natural numbers. -/
structure Ratio where
  num : Nat
  den : Nat

/-- `n * 2 ^ e * 10 ^ (-k)` as a quotient. -/
def scaled (n : Nat) (e k : Int) : Ratio where
  num := n * twoTo e.toNat * tenTo (-k).toNat
  den := twoTo (-e).toNat * tenTo k.toNat

/-- The reals that are read back as a double, measured in quarters of the distance to its upper
neighbour: from `low` to `high`, the double itself at `mid`, all times `2 ^ exponent`. -/
structure Reach where
  low : Nat
  mid : Nat
  high : Nat
  exponent : Int
  endsBelong : Bool

/-- The interval of the double `m * 2 ^ e`. Below a power of two the neighbour is only half as
far. -/
def reach (m : Nat) (e : Int) : Reach :=
  let close := m == twoTo 52 && e > -1074
  { low := 4 * m - (if close then 1 else 2), mid := 4 * m, high := 4 * m + 2,
    exponent := e - 2, endsBelong := m % 2 == 0 }

/-- Whether `n * 10 ^ k` lies in the interval. -/
def Reach.has (r : Reach) (n : Nat) (k : Int) : Bool :=
  let lo := scaled r.low r.exponent k
  let hi := scaled r.high r.exponent k
  if r.endsBelong then lo.num ≤ n * lo.den && n * hi.den ≤ hi.num
  else lo.num < n * lo.den && n * hi.den < hi.num

/-- Which of two decimals is taken that are equally near to a double: the greater one, or the one
whose last digit is even. -/
inductive Tie where
  | upper
  | even
deriving DecidableEq, Repr

/-- Which of the neighbours `below` and `below + 1` of a number is taken, when `part / whole` is the
distance to the lower one. -/
def Tie.pick (tie : Tie) (below part whole : Nat) : Nat :=
  if 2 * part < whole then below
  else if whole < 2 * part then below + 1
  else if tie = .even ∧ below % 2 = 0 then below
  else below + 1

/-- The point of the grid `10 ^ k` that is read back as the double and is nearest to it, if there is
one. -/
def Reach.pointOn? (r : Reach) (tie : Tie) (k : Int) : Option Decimal :=
  let x := scaled r.mid r.exponent k
  let below := x.num / x.den
  match r.has below k, r.has (below + 1) k with
  | false, false => none
  | true, false => some { digits := below, exponent := k }
  | false, true => some { digits := below + 1, exponent := k }
  | true, true => some { digits := tie.pick below (x.num % x.den) x.den, exponent := k }

/-- The power of ten of the leading digit of `m * 2 ^ e`, or one more than that. -/
def magnitude (m : Nat) (e : Int) : Int :=
  -- `1233 / 4096` is the logarithm of two in base ten, to within one part in ten thousand.
  ((Nat.log2 m : Int) + e + 1) * 1233 / 4096 + 1

/-- A decimal without zeros at the end of its digits. -/
def strip : Nat → Decimal → Decimal
  | 0, d => d
  | fuel + 1, d =>
    if d.digits ≠ 0 ∧ d.digits % 10 = 0 then strip fuel ⟨d.digits / 10, d.exponent + 1⟩ else d

/-- **The shortest decimal** of the double `m * 2 ^ e`, which is not zero. Seventeen digits are
always enough; the grids tried begin a little above the leading digit. -/
def shortest (tie : Tie) (m : Nat) (e : Int) : Decimal :=
  let r := reach m e
  let top := magnitude m e
  let found := (List.range 24).findSome? fun (i : Nat) => r.pointOn? tie (top - (i : Int))
  strip 24 (found.getD ⟨0, 0⟩)

/-- A decimal written without an exponent. A zero stands before the point when there is no integer
part, and there is no point when there is no fraction. -/
def positional (d : Decimal) : Text :=
  let digits := numeral d.digits
  if d.exponent ≥ 0 then digits ++ List.replicate d.exponent.toNat '0'
  else
    let places := (-d.exponent).toNat
    if digits.length > places then
      digits.take (digits.length - places) ++ '.' :: digits.drop (digits.length - places)
    else '0' :: '.' :: List.replicate (places - digits.length) '0' ++ digits

end Decimal

end Weave
