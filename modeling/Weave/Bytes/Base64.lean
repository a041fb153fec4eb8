import Weave.Text.Utf8

set_option autoImplicit false
set_option relaxedAutoImplicit false

/-!
# Base 64

Bytes written with 64 letters: three bytes take four letters, and a shorter group at the end is
filled up with equals signs.

## Main definitions

* `Weave.Bytes.base64` — the letters of a sequence of bytes.
-/

namespace Weave.Bytes

/-- The 64 letters. -/
def base64Alphabet : Text :=
  "ABCDEFGHIJKLMNOPQRSTUVWXYZabcdefghijklmnopqrstuvwxyz0123456789+/".toList

/-- The letter for the last six bits of a number. -/
def base64Letter (n : Nat) : Char :=
  base64Alphabet.getD (n % 64) '='

/-- **Bytes in base 64**, with padding. -/
def base64 : Bytes → Text
  | [] => []
  | [a] =>
    let n := a.toNat * 16
    [base64Letter (n / 64), base64Letter n, '=', '=']
  | [a, b] =>
    let n := (a.toNat * 256 + b.toNat) * 4
    [base64Letter (n / 4096), base64Letter (n / 64), base64Letter n, '=']
  | a :: b :: c :: rest =>
    let n := (a.toNat * 256 + b.toNat) * 256 + c.toNat
    base64Letter (n / 262144) :: base64Letter (n / 4096) :: base64Letter (n / 64) ::
      base64Letter n :: base64 rest

end Weave.Bytes
