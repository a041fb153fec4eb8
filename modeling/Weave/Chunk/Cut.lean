import Weave.Chunk.Basic
import Weave.Text.Lines

set_option autoImplicit false
set_option relaxedAutoImplicit false

/-!
# Cutting a source into chunks

Every line of a source is prose, code, or a mark between chunks. A comment with a blank after its
marker is prose; a doubled marker makes a comment that belongs to the code. A new chunk begins where
the kind of the lines changes and at every mark.

## Main definitions

* `Weave.SourceLine` — a line by its meaning, read by `Weave.SourceLine.ofText`.
* `Weave.Chunk.cut` — the chunks of a text.
-/

namespace Weave

/-- What a line of a source means. -/
inductive SourceLine where
  /-- A new chunk begins, of the same kind for the time being. -/
  | cut
  /-- A new chunk of code begins, which goes on with the code before it. -/
  | join
  | prose (line : ProseLine)
  | code (line : Text)
deriving DecidableEq, Repr

/-- **The meaning of a line.** What follows a mark on its line is ignored. -/
def SourceLine.ofText (line : Text) : SourceLine :=
  let indent := line.takeWhile isBlank
  match line.dropWhile isBlank with
  | '#' :: '-' :: _ => cut
  | '#' :: '+' :: _ => join
  | ['#'] => prose { indent, text := [] }
  | '#' :: ' ' :: text => prose { indent, text }
  | ['#', '#'] => code (indent ++ ['#'])
  | '#' :: '#' :: ' ' :: text => code (indent ++ '#' :: ' ' :: text)
  | _ => code line

namespace Chunk

/-- Marks the first chunk of code as going on. -/
def continueFirstCode : List Chunk → List Chunk
  | [] => []
  | code lines _ :: cs => code lines .continued :: cs
  | prose lines :: cs => prose lines :: continueFirstCode cs

/-- Adds a line to chunks that stand newest first. -/
def addLine (allowContinuation : Bool) (newest : List Chunk) : SourceLine → List Chunk
  | .cut => (newest.head?.map emptyLike).getD noCode :: newest
  | .join => noCode :: (if allowContinuation then continueFirstCode newest else newest)
  | .prose line =>
    match newest with
    | prose lines :: cs => prose (lines ++ [line]) :: cs
    | cs => prose [line] :: cs
  | .code line =>
    match newest with
    | code lines continuation :: cs => code (lines ++ [line]) continuation :: cs
    | cs => code [line] .terminated :: cs

/-- The chunk that a source begins with, before its first line is added. -/
def firstFor : Option SourceLine → Chunk
  | some (.prose _) => noProse
  | _ => noCode

/-- **The chunks of a text.** Some of them may be without lines. If continuation is not allowed, a
chunk that would go on with the code before it is only cut off from it. -/
def cut (allowContinuation : Bool) (t : Text) : List Chunk :=
  let lines := (Text.lines t).map SourceLine.ofText
  (lines.foldl (addLine allowContinuation) [firstFor lines.head?]).reverse

end Chunk

end Weave
