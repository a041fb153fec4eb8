set_option autoImplicit false
set_option relaxedAutoImplicit false

/-!
# Powers

The powers that numbers are made of: those of two in a computer, those of ten in writing.

## Main definitions

* `Weave.twoTo`, `Weave.tenTo` — the powers of two and of ten.
-/

namespace Weave

/-- Two to the power of `n`. -/
def twoTo (n : Nat) : Nat :=
  Nat.pow 2 n

/-- Ten to the power of `n`. -/
def tenTo (n : Nat) : Nat :=
  Nat.pow 10 n

end Weave
