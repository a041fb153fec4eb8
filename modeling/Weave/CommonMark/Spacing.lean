import Weave.Text.Basic

set_option autoImplicit false
set_option relaxedAutoImplicit false

/-!
# Blanks and the ends of lines

A document is read as one text. A line feed, a carriage return, or both of them end a line of
running text, and so does the end of the document; lines of code end with a line feed only.

## Main definitions

* `Weave.CommonMark.isLineBlank`, `Weave.CommonMark.isLineEnd`, `Weave.CommonMark.isSpacing` — the
  characters between words.
* `Weave.CommonMark.afterLineEnd?`, `Weave.CommonMark.afterBlankLine?` — what follows the end of a
  line.
* `Weave.CommonMark.splitLine`, `Weave.CommonMark.splitFeed` — a text cut after its first line.
-/

namespace Weave.CommonMark

/-! ## Classes of characters -/

/-- Blanks of which indentation is made. -/
def isIndentation (c : Char) : Bool :=
  c == ' ' || c == '\t'

/-- Blanks inside of a line. -/
def isLineBlank (c : Char) : Bool :=
  isIndentation c || c == '\x0b' || c == '\x0c'

/-- The characters that end a line. -/
def isLineEnd (c : Char) : Bool :=
  c == '\n' || c == '\r'

/-- Blanks and the characters that end a line. -/
def isSpacing (c : Char) : Bool :=
  isLineBlank c || isLineEnd c

/-! ## The end of a line -/

/-- What follows the end of a line, if a text begins with one. -/
def afterLineEnd? : Text → Option Text
  | [] => some []
  | '\r' :: '\n' :: t => some t
  | c :: t => if isLineEnd c then some t else none

/-- Whether a text begins with the end of a line. -/
def isAtLineEnd (t : Text) : Bool :=
  (afterLineEnd? t).isSome

/-- What follows a line of which only blanks are left. -/
def afterBlankLine? (t : Text) : Option Text :=
  afterLineEnd? (t.dropWhile isLineBlank)

/-- Whether only blanks are left of a line. -/
def isBlankLine (t : Text) : Bool :=
  (afterBlankLine? t).isSome

/-! ## Cutting after a line -/

/-- The first line of a text, with its end, and what follows it. -/
def splitLine (t : Text) : Text × Text :=
  match t.dropWhile (!isLineEnd ·) with
  | [] => (t.takeWhile (!isLineEnd ·), [])
  | '\r' :: '\n' :: rest => (t.takeWhile (!isLineEnd ·) ++ ['\r', '\n'], rest)
  | c :: rest => (t.takeWhile (!isLineEnd ·) ++ [c], rest)

/-- What follows the first line of a text. -/
def afterLine (t : Text) : Text :=
  (splitLine t).2

/-- A text up to its first line feed, and what follows that. -/
def splitFeed (t : Text) : Text × Text :=
  match t.dropWhile (· != '\n') with
  | [] => (t.takeWhile (· != '\n'), [])
  | c :: rest => (t.takeWhile (· != '\n') ++ [c], rest)

end Weave.CommonMark
