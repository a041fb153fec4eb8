import Weave.Text.Basic

set_option autoImplicit false
set_option relaxedAutoImplicit false

/-!
# UTF-8

Texts as sequences of bytes. A sequence of bytes that is not well formed can be refused, or read
with a replacement character for every longest run of bytes that begins a character but does not
complete one.

## Main definitions

* `Weave.Text.toBytes` — the bytes of a text.
* `Weave.Text.byteSize` — how many they are.
* `Weave.Text.ofBytes?` — the text of a well formed sequence of bytes.
* `Weave.Text.ofBytesReplacing` — the text of any sequence of bytes.
-/

namespace Weave

/-- A byte. -/
abbrev Byte := UInt8

/-- A sequence of bytes, such as the contents of a file. -/
abbrev Bytes := List Byte

namespace Text

/-- The bytes of a text. -/
def toBytes (t : Text) : Bytes :=
  t.flatMap String.utf8EncodeChar

/-- The number of bytes of a text. -/
def byteSize : Text → Nat
  | [] => 0
  | c :: t => c.utf8Size + byteSize t

/-- Whether a byte is one of those from `lo` to `hi`. -/
def byteIn (lo hi : Nat) (b : Byte) : Bool :=
  lo ≤ b.toNat && b.toNat ≤ hi

/-- The six bits that a continuation byte carries. -/
def tailBits (b : Byte) : Nat :=
  b.toNat % 64

/-- How the second byte of a character is restricted by the first, for the first bytes of
characters of three and of four bytes. -/
def secondByteIn (first second : Byte) : Bool :=
  match first.toNat with
  | 0xe0 => byteIn 0xa0 0xbf second
  | 0xed => byteIn 0x80 0x9f second
  | 0xf0 => byteIn 0x90 0xbf second
  | 0xf4 => byteIn 0x80 0x8f second
  | _ => byteIn 0x80 0xbf second

/-- Reads one character from its first byte and the bytes after it: the character and the number of
bytes that it takes, or no character and the number of bytes that belong to the attempt. -/
def readCharacter (first : Byte) (after : Bytes) : Option Char × Nat :=
  let tail := byteIn 0x80 0xbf
  if first.toNat < 0x80 then (some (Char.ofNat first.toNat), 1)
  else if byteIn 0xc2 0xdf first then
    match after with
    | b :: _ =>
      if tail b then (some (Char.ofNat (first.toNat % 32 * 64 + tailBits b)), 2) else (none, 1)
    | [] => (none, 1)
  else if byteIn 0xe0 0xef first then
    match after with
    | b :: more =>
      if secondByteIn first b then
        match more with
        | c :: _ =>
          if tail c then
            (some (Char.ofNat ((first.toNat % 16 * 64 + tailBits b) * 64 + tailBits c)), 3)
          else (none, 2)
        | [] => (none, 2)
      else (none, 1)
    | [] => (none, 1)
  else if byteIn 0xf0 0xf4 first then
    match after with
    | b :: more =>
      if secondByteIn first b then
        match more with
        | c :: more =>
          if tail c then
            match more with
            | d :: _ =>
              if tail d then
                let high := (first.toNat % 8 * 64 + tailBits b) * 64 + tailBits c
                (some (Char.ofNat (high * 64 + tailBits d)), 4)
              else (none, 3)
            | [] => (none, 3)
          else (none, 2)
        | [] => (none, 2)
      else (none, 1)
    | [] => (none, 1)
  else (none, 1)

/-- The characters of a sequence of bytes, `none` for every run of bytes that is no character. The
first argument counts the bytes still to be passed over. -/
def readCharacters : Nat → Bytes → List (Option Char)
  | _, [] => []
  | skip + 1, _ :: bs => readCharacters skip bs
  | 0, b :: bs =>
    let (c, n) := readCharacter b bs
    c :: readCharacters (n - 1) bs

/-- The text of a sequence of bytes that is well formed. -/
def ofBytes? (bs : Bytes) : Option Text :=
  (readCharacters 0 bs).mapM id

/-- The text of a sequence of bytes, with the replacement character for what is ill formed. -/
def ofBytesReplacing (bs : Bytes) : Text :=
  (readCharacters 0 bs).map fun c => c.getD '\uFFFD'

end Text

end Weave
