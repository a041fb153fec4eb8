import Weave.Chunk.Basic

set_option autoImplicit false
set_option relaxedAutoImplicit false

/-!
# Normal chunks

Chunks without content are dropped, and so are blank lines at the beginning and at the end of a
chunk. Code that is broken off inside an indented block goes on in the next chunk of code. For a
target whose chunks of code must be complete, the chunks that a block of code extends over are
merged, prose between them becoming comments.

## Main definitions

* `Weave.Chunk.trimBlank` — a chunk without blank lines at its ends.
* `Weave.Chunk.continueIndented` — blocks broken off inside an indentation are marked.
* `Weave.Chunk.mergeContinued` — the chunks of a block are merged.
* `Weave.Chunk.normalize` — all of this.
-/

namespace Weave.Chunk

/-- A list without the elements of class `p` at its beginning and at its end. -/
def trimList {α : Type} (p : α → Bool) (l : List α) : List α :=
  ((l.dropWhile p).reverse.dropWhile p).reverse

/-- A chunk without blank lines at its ends. -/
def trimBlank : Chunk → Chunk
  | prose lines => prose (trimList ProseLine.isBlank lines)
  | code lines continuation => code (trimList List.isEmpty lines) continuation

/-- Whether the first line of code begins with a blank. -/
def opensIndented (lines : List Text) : Bool :=
  lines.head?.any Text.startsBlank

/-- Whether the last line of code begins with a blank. -/
def endsIndented (lines : List Text) : Bool :=
  lines.getLast?.any Text.startsBlank

/-- Whether the next chunk of code begins with an indented line. -/
def nextOpensIndented : List Chunk → Bool
  | [] => false
  | prose _ :: cs => nextOpensIndented cs
  | code lines _ :: _ => opensIndented lines

/-- **Code is broken off** at an indented line, or before one: such a chunk of code goes on. -/
def continueIndented : List Chunk → List Chunk
  | [] => []
  | prose lines :: cs => prose lines :: continueIndented cs
  | code lines continuation :: cs =>
    let goesOn := endsIndented lines || nextOpensIndented cs
    code lines (if goesOn then .continued else continuation) :: continueIndented cs

/-- Chunks merged so far, newest first; while `isOpen`, the newest is a block of code that goes
on. -/
structure Merging where
  newest : List Chunk
  isOpen : Bool

/-- Takes in one more chunk: an open block takes it over, and a chunk of code says whether the block
stays open. -/
def Merging.add (m : Merging) (c : Chunk) : Merging :=
  let isOpen :=
    match c with
    | code _ continuation => continuation == .continued
    | prose _ => m.isOpen
  match m.isOpen, m.newest, c with
  | true, code lines continuation :: cs, prose more =>
    { newest := code (lines ++ more.map ProseLine.toComment) continuation :: cs, isOpen }
  | true, code lines _ :: cs, code more continuation =>
    { newest := code (lines ++ more) continuation :: cs, isOpen }
  | _, cs, c => { newest := c :: cs, isOpen }

/-- **Every block of code that goes on** is merged with the chunks up to its end. -/
def mergeContinued (cs : List Chunk) : List Chunk :=
  (cs.foldl Merging.add { newest := [], isOpen := false }).newest.reverse

/-- **Normal chunks**: none is blank, none begins or ends with a blank line, and if `merge` is set,
no block of code extends over several. -/
def normalize (merge : Bool) (cs : List Chunk) : List Chunk :=
  let marked := continueIndented ((cs.filter fun c => !c.isBlank).map trimBlank)
  if merge then mergeContinued marked else marked

end Weave.Chunk
