import Weave.CommonMark.Line

set_option autoImplicit false
set_option relaxedAutoImplicit false

/-!
# Containers

Some blocks hold other blocks. On each line that they go on to they have marks of their own: a quote
has an angle bracket, and an item is indented as far as its text. The running text of a paragraph
keeps these marks, because what stands in it decides where they are looked for: where a text goes on
with the next line, the marks of the containers are passed over.

## Main definitions

* `Weave.CommonMark.Container` — a container of blocks.
* `Weave.CommonMark.countGoingOn` — how many containers a line goes on with.
* `Weave.CommonMark.afterMarks` — a line without the marks of its containers.
* `Weave.CommonMark.RunningText` — the text of a paragraph or of a heading, with all marks.
-/

namespace Weave.CommonMark

/-- A container of blocks. -/
inductive Container where
  | document
  | quote
  | list (mark : Char) (tight : Bool)
  /-- An item goes on with lines that are indented as far as its text; one that begins with two
  blank lines does not go on. -/
  | item (indent? : Option Nat)
deriving DecidableEq, Repr

/-- Whether a line goes on with a container, and the place in the line after its marks. A line of
which nothing is left goes on with an item. -/
def Container.goesOn? (c : Container) (cursor : Cursor) : Option Cursor :=
  match c with
  | .document => some cursor
  | .list _ _ => some cursor
  | .quote => (cursor.skipBlanks 3).2.stepQuote?
  | .item none => none
  | .item (some indent) =>
    let (n, after) := cursor.skipBlanks indent
    if n = indent ∨ isAtLineEnd after.rest then some after else none

/-- How many of some containers, the outermost first, a line goes on with, and the place in the line
after their marks. -/
def countGoingOn : List Container → Cursor → Nat × Cursor
  | [], cursor => (0, cursor)
  | c :: cs, cursor =>
    match c.goesOn? cursor with
    | none => (0, cursor)
    | some cursor =>
      let (n, cursor) := countGoingOn cs cursor
      (n + 1, cursor)

/-- What follows the marks of containers at the beginning of a line. A tab that the marks end in is
passed over as a whole. -/
def afterMarks (cs : List Container) (t : Text) : Text :=
  (countGoingOn cs (.start t)).2.rest

/-- The text of a paragraph or of a heading as it stands in the document: from its second line on
each line begins with the marks of its containers. -/
structure RunningText where
  /-- The containers of the text, the outermost first. -/
  containers : List Container
  /-- The character before the text. -/
  before : Char
  text : Text
deriving DecidableEq, Repr

end Weave.CommonMark
