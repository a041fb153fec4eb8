import Weave.Text.Blank

set_option autoImplicit false
set_option relaxedAutoImplicit false

/-!
# Chunks

A source is a sequence of chunks, each a run of lines of prose or of code.

## Main definitions

* `Weave.ProseLine` — a line of prose without its comment marker.
* `Weave.Continuation` — whether a block of code goes on in the next chunk of code.
* `Weave.Chunk` — a chunk of prose or of code.
* `Weave.ProseLine.toComment` — a line of prose with its comment marker.
-/

namespace Weave

/-- A line of prose: what stood before its comment marker, and what stood after it. -/
structure ProseLine where
  indent : Text
  text : Text
deriving DecidableEq, Repr

namespace ProseLine

/-- A line of prose is blank if it holds no text. -/
def isBlank (l : ProseLine) : Bool :=
  l.text.isEmpty

/-- The line as a comment, without blanks at its end. -/
def toComment (l : ProseLine) : Text :=
  Text.trimEnd (l.indent ++ "# ".toList ++ l.text)

/-- The line without its marker. -/
def plain (l : ProseLine) : Text :=
  l.indent ++ l.text

end ProseLine

/-- Whether a block of code goes on in the next chunk of code. -/
inductive Continuation where
  | terminated
  | continued
deriving DecidableEq, Repr

/-- A run of lines of one kind. -/
inductive Chunk where
  | prose (lines : List ProseLine)
  | code (lines : List Text) (continuation : Continuation)
deriving DecidableEq, Repr

namespace Chunk

/-- A chunk of prose without lines. -/
def noProse : Chunk :=
  prose []

/-- A chunk of code without lines. -/
def noCode : Chunk :=
  code [] .terminated

/-- Whether the chunk holds code. -/
def isCode : Chunk → Bool
  | prose _ => false
  | code _ _ => true

/-- Whether the block of code goes on. -/
def isContinued : Chunk → Bool
  | code _ .continued => true
  | _ => false

/-- The number of lines. -/
def length : Chunk → Nat
  | prose lines => lines.length
  | code lines _ => lines.length

/-- A chunk without lines, of the same kind. -/
def emptyLike : Chunk → Chunk
  | prose _ => noProse
  | code _ _ => noCode

/-- Whether no line holds anything: blanks count as something in code. -/
def isBlank : Chunk → Bool
  | prose lines => lines.all ProseLine.isBlank
  | code lines _ => lines.all List.isEmpty

end Chunk

end Weave
