import Weave.Number.Power
import Weave.Text.Numeral
import Weave.Text.Utf8

set_option autoImplicit false
set_option relaxedAutoImplicit false

/-!
# Digests

The digest SHA-256 of a sequence of bytes. A message is padded to blocks of sixteen words of 32
bits. Every block is spread to 64 words, which are mixed one by one into a state of eight words. The
constants of the mixing are the leading bits of the fractional parts of the roots of the first
primes, computed here from that rule.

## Main definitions

* `Weave.Bytes.digest` — the digest of a sequence of bytes, which is 32 bytes long.
* `Weave.Bytes.hex` — bytes written in base sixteen.
-/

namespace Weave.Bytes

/-- Bytes in base sixteen, two digits for each. -/
def hex (bs : Bytes) : Text :=
  bs.flatMap fun b => hexNumeralOfWidth 2 b.toNat

/-! ## Constants -/

/-- Whether no number from two on divides `n`, apart from `n`. -/
def isPrime (n : Nat) : Bool :=
  2 ≤ n && (List.range n).all fun d => d < 2 || n % d != 0

/-- The first 64 primes. -/
def primes : List Nat :=
  (List.range 312).filter isPrime

/-- The greatest number with `bits` more binary digits than `r` begins with whose `k`-th power is at
most `n`. -/
def root (k n : Nat) : Nat → Nat → Nat
  | 0, r => r
  | bits + 1, r =>
    let next := r + twoTo bits
    if Nat.pow next k ≤ n then root k n bits next else root k n bits r

/-- The first 32 bits of the fractional part of the `k`-th root of `n`. -/
def fractionOfRoot (k n : Nat) : UInt32 :=
  UInt32.ofNat (root k (n * twoTo (32 * k)) 37 0)

/-- The constants of the rounds, from the cube roots of the first 64 primes. -/
def roundConstants : List UInt32 :=
  primes.map (fractionOfRoot 3)

/-! ## Mixing -/

/-- The state of eight words. -/
structure DigestState where
  a : UInt32
  b : UInt32
  c : UInt32
  d : UInt32
  e : UInt32
  f : UInt32
  g : UInt32
  h : UInt32

/-- The state at the beginning, from the square roots of the first eight primes. -/
def DigestState.start : DigestState :=
  let word := fractionOfRoot 2
  ⟨word 2, word 3, word 5, word 7, word 11, word 13, word 17, word 19⟩

/-- A word turned to the right by `n` bits. -/
def turn (n : UInt32) (x : UInt32) : UInt32 :=
  (x >>> n) ||| (x <<< (32 - n))

/-- One round: mixes a word and the constant of the round into the state. -/
def DigestState.round (s : DigestState) (word constant : UInt32) : DigestState :=
  let spreadE := turn 6 s.e ^^^ turn 11 s.e ^^^ turn 25 s.e
  let choice := (s.e &&& s.f) ^^^ (~~~s.e &&& s.g)
  let spreadA := turn 2 s.a ^^^ turn 13 s.a ^^^ turn 22 s.a
  let majority := (s.a &&& s.b) ^^^ (s.a &&& s.c) ^^^ (s.b &&& s.c)
  let x := s.h + spreadE + choice + constant + word
  ⟨x + spreadA + majority, s.a, s.b, s.c, s.d + x, s.e, s.f, s.g⟩

/-- The word that follows sixteen words of the spread block. -/
def spread (words : List UInt32) : UInt32 :=
  match words with
  | w₀ :: w₁ :: _ :: _ :: _ :: _ :: _ :: _ :: _ :: w₉ :: _ :: _ :: _ :: _ :: w₁₄ :: _ =>
    w₀ + (turn 7 w₁ ^^^ turn 18 w₁ ^^^ (w₁ >>> 3)) + w₉ +
      (turn 17 w₁₄ ^^^ turn 19 w₁₄ ^^^ (w₁₄ >>> 10))
  | _ => 0

/-- Mixes the words of a block into the state, one for each constant; `words` are the next
sixteen. -/
def rounds (s : DigestState) (words : List UInt32) : List UInt32 → DigestState
  | [] => s
  | constant :: constants =>
    rounds (s.round (words.headD 0) constant) (words.drop 1 ++ [spread words]) constants

/-- Mixes a block into the state, and adds the state from before. -/
def DigestState.addBlock (s : DigestState) (words : List UInt32) : DigestState :=
  let t := rounds s words roundConstants
  ⟨s.a + t.a, s.b + t.b, s.c + t.c, s.d + t.d, s.e + t.e, s.f + t.f, s.g + t.g, s.h + t.h⟩

/-! ## Messages -/

/-- The bytes of a number, the highest first: as many as the first argument says. -/
def ofNumber : Nat → Nat → Bytes
  | 0, _ => []
  | width + 1, n => ofNumber width (n / 256) ++ [UInt8.ofNat n]

/-- A message followed by a single bit, by zeros, and by its length in bits, so that it is made up
of whole blocks. -/
def pad (message : Bytes) : Bytes :=
  let zeros := (119 - message.length % 64) % 64
  message ++ 0x80 :: List.replicate zeros 0 ++ ofNumber 8 (8 * message.length)

/-- The words that bytes make up, four at a time. -/
def words : Bytes → List UInt32
  | a :: b :: c :: d :: rest =>
    UInt32.ofNat (((a.toNat * 256 + b.toNat) * 256 + c.toNat) * 256 + d.toNat) :: words rest
  | _ => []

/-- Mixes all blocks of sixteen words into the state. The number bounds how many there are. -/
def addBlocks (s : DigestState) : Nat → List UInt32 → DigestState
  | 0, _ => s
  | n + 1, ws => if ws.isEmpty then s else addBlocks (s.addBlock (ws.take 16)) n (ws.drop 16)

/-- The bytes of a state. -/
def DigestState.bytes (s : DigestState) : Bytes :=
  [s.a, s.b, s.c, s.d, s.e, s.f, s.g, s.h].flatMap fun w => ofNumber 4 w.toNat

/-- **The digest** of a message. -/
def digest (message : Bytes) : Bytes :=
  let ws := words (pad message)
  (addBlocks .start ws.length ws).bytes

end Weave.Bytes
