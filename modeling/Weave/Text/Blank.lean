import Weave.Text.Basic

set_option autoImplicit false
set_option relaxedAutoImplicit false

/-!
# White space

The characters with the Unicode property `White_Space`, and trimming by them.

## Main definitions

* `Weave.isBlank` — the class of blank characters.
* `Weave.Text.trimStart`, `Weave.Text.trimEnd`, `Weave.Text.trim` — trimming blanks.
-/

namespace Weave

/-- The characters with the property `White_Space`. -/
def isBlank (c : Char) : Bool :=
  let n := c.toNat
  (9 ≤ n && n ≤ 13) || n == 0x20 || n == 0x85 || n == 0xa0 || n == 0x1680 ||
    (0x2000 ≤ n && n ≤ 0x200a) || n == 0x2028 || n == 0x2029 || n == 0x202f || n == 0x205f ||
    n == 0x3000

namespace Text

/-- `t` without the blanks at its beginning. -/
def trimStart (t : Text) : Text :=
  trimStartBy isBlank t

/-- `t` without the blanks at its end. -/
def trimEnd (t : Text) : Text :=
  trimEndBy isBlank t

/-- `t` without the blanks at either end. -/
def trim (t : Text) : Text :=
  trimBy isBlank t

/-- Whether `t` begins with a blank. -/
def startsBlank (t : Text) : Bool :=
  t.head?.any isBlank

end Text

end Weave
