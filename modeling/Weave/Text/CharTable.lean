import Weave.Text.Lines
import Weave.Text.Numeral

set_option autoImplicit false
set_option relaxedAutoImplicit false

/-!
# Tables of characters

The character properties of the Unicode standard that this library needs are long lists of ranges.
A table writes them in hexadecimal, one range after another, a range of one character as a single
number: `"aa b5 c0-d6"`.

## Main definitions

* `Weave.CharTable` — a class of characters as a list of ranges.
* `Weave.CharTable.ofText` — the table that a text spells out.
-/

namespace Weave

/-- A class of characters, as the ranges of scalar values that make it up; both ends belong to a
range. -/
structure CharTable where
  ranges : List (Nat × Nat)

namespace CharTable

/-- Whether the character is in one of the ranges. -/
def has (table : CharTable) (c : Char) : Bool :=
  table.ranges.any fun (lo, hi) => lo ≤ c.toNat && c.toNat ≤ hi

/-- The words of a table: the stretches between its blanks and line feeds. -/
def words (t : Text) : List Text :=
  ((Text.rows t).flatMap (Text.fields ' ')).filter (· ≠ [])

/-- Reads a table of ranges written in hexadecimal. -/
def ofText (t : Text) : CharTable where
  ranges := (words t).filterMap fun word =>
    match (Text.fields '-' word).map hexNumeralValue with
    | [one] => some (one, one)
    | [lo, hi] => some (lo, hi)
    | _ => none

end CharTable

end Weave
