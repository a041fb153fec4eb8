import Weave.Lit.Fault
import Weave.Text.Blank
import Weave.Text.Lines
import Weave.Text.Width

set_option autoImplicit false
set_option relaxedAutoImplicit false

/-!
# Diagnostics

How a fault is shown to a reader: its wording, and under it the lines of the source that it points
at. A stretch within one line has carets below it. A stretch over several lines has a bar to the
left of them; of a long one, only the first and the last lines are shown.

## Main definitions

* `Weave.Lit.SourceLine` — a line of a source, with the offset at which it begins.
* `Weave.Lit.columns` — the characters of a line, with the width that each takes.
* `Weave.Lit.Fault.render` — a fault as it is shown.
-/

namespace Weave.Lit

/-! ## Lines and columns -/

/-- A line of a source, without its line feed. -/
structure SourceLine where
  number : Nat
  /-- The offset of its beginning, in bytes. -/
  start : Nat
  text : Text
deriving DecidableEq, Repr

/-- Numbers lines, which begin at an offset, from `number` on. -/
def placeLines (number start : Nat) : List Text → List SourceLine
  | [] => []
  | t :: rest =>
    { number, start, text := t } :: placeLines (number + 1) (start + Text.byteSize t + 1) rest

/-- The lines of a source. There is always one, and one more than there are line feeds. -/
def sourceLines (source : Text) : List SourceLine :=
  placeLines 1 0 (Text.rows source)

/-- A character of a line. -/
structure Column where
  /-- Its offset in the line, in bytes. -/
  offset : Nat
  char : Char
  /-- How many columns of a terminal it takes. -/
  width : Nat
deriving DecidableEq, Repr

/-- The distance between the places that a tab goes to. -/
def tabWidth : Nat :=
  4

/-- The width of a character that stands behind `before` columns. -/
def widthAfter (before : Nat) (c : Char) : Nat :=
  if c = '\t' then tabWidth - before % tabWidth else displayWidth c

/-- **The characters of a line** from an offset on, `before` columns from the left. -/
def columns (offset before : Nat) : Text → List Column
  | [] => []
  | c :: t =>
    let width := widthAfter before c
    { offset, char := c, width } :: columns (offset + c.utf8Size) (before + width) t

namespace SourceLine

/-- A line as it is shown: the line breaks and zeros at its end are left out. -/
def body (line : SourceLine) : Text :=
  line.text.trimEndBy fun c => c == '\n' || c == '\r' || c == '\x00'

/-- The columns of a line as it is shown. -/
def shownColumns (line : SourceLine) : List Column :=
  columns 0 0 line.body

/-- A line as it is shown, with blanks for its tabs. -/
def shown (line : SourceLine) : Text :=
  line.shownColumns.flatMap fun col =>
    if col.char = '\t' then List.replicate col.width ' ' else [col.char]

/-- The number of the column at an offset of the source, counted in characters. -/
def columnNumber (line : SourceLine) (offset : Nat) : Nat :=
  ((columns line.start 0 line.text).takeWhile fun col => col.offset < offset).length + 1

end SourceLine

/-- The lines from the one that holds the offset `start` to the one that holds `stop`. -/
def linesBetween (start stop : Nat) (lines : List SourceLine) : List SourceLine :=
  let first := (lines.filter fun line => line.start ≤ start).length
  let upTo := (lines.filter fun line => line.start ≤ stop).length
  (lines.take upTo).drop (first - 1)

/-! ## Margins -/

/-- The left side of a line that has a number, or of one that has none. -/
def margin (width : Nat) (number? : Option Nat) (border : Char) : Text :=
  let digits := (number?.map numeral).getD []
  List.replicate (width - digits.length) ' ' ++ digits ++ [' ', border]

/-- How the bar beside a stretch runs past a line. -/
inductive Bar where
  | none
  /-- The stretch begins before anything else on the line. -/
  | corner
  | through
deriving DecidableEq, Repr

/-- The part of the margin that the bar takes. -/
def Bar.text : Bar → Text
  | none => "  ".toList
  | corner => " ╭".toList
  | through => " │".toList

/-! ## Carets -/

/-- Carets below the columns from `start` up to `stop`, which may be one column behind the line. -/
def carets (start stop : Nat) (line : SourceLine) : Text :=
  let behind : Column := { offset := Text.byteSize line.body, char := '\x00', width := 1 }
  (line.shownColumns ++ [behind]).flatMap fun col =>
    if max start col.offset < min stop (col.offset + col.char.utf8Size) then
      List.replicate col.width '^'
    else if col.offset < stop then List.replicate col.width ' '
    else []

/-- A horizontal bar below the columns before an offset, and a caret. -/
def underline (offset : Nat) (line : SourceLine) : Text :=
  let before := line.shownColumns.filter fun col => col.offset < offset
  before.flatMap (fun col => List.replicate col.width '─') ++ ['^']

/-- The number of bytes of the blanks that a line begins with. -/
def indentSize (line : SourceLine) : Nat :=
  Text.byteSize (line.body.takeWhile isBlank)

/-! ## Stretches -/

/-- A stretch within one line. At least one column is marked. -/
def showWithin (width start stop : Nat) (line : SourceLine) : List Text :=
  let start := start - line.start
  let stop := max (stop - line.start) (start + 1)
  [ margin width none '│',
    margin width (some line.number) '│' ++ ' ' :: line.shown,
    margin width none '│' ++ ' ' :: carets start stop line ]

/-- A line with a bar beside it. -/
def showBeside (width : Nat) (bar : Bar) (line : SourceLine) : Text :=
  margin width (some line.number) '│' ++ bar.text ++ ' ' :: line.shown

/-- The first line of a stretch that begins at an offset. -/
def showFirst (width start : Nat) (line : SourceLine) : List Text :=
  let offset := start - line.start
  if offset ≤ indentSize line then [showBeside width .corner line]
  else
    [ showBeside width .none line,
      margin width none '│' ++ Bar.corner.text ++ underline (offset + 1) line ]

/-- The last line of a stretch that ends at an offset. -/
def showLast (width stop : Nat) (line : SourceLine) : List Text :=
  [ showBeside width .through line,
    margin width none '│' ++ " ╰".toList ++ underline (stop - line.start) line ]

/-- The lines between the first and the last one. If they are more than five, only the first three
and the last one are shown, with a break between them. -/
def showMiddle (width : Nat) (lines : List SourceLine) : List Text :=
  let all := lines.map (showBeside width .through)
  if all.length ≤ 5 then all
  else all.take 3 ++ [margin width none '·' ++ Bar.through.text] ++ all.drop (all.length - 1)

/-- The lines of a stretch over several lines. -/
def showAcross (width start stop : Nat) (first : SourceLine) (middle : List SourceLine)
    (last : SourceLine) : List Text :=
  [margin width none '│' ++ Bar.none.text] ++ showFirst width start first ++
    showMiddle width middle ++ showLast width stop last

/-- The lines of a note, the first one with a mark. -/
def showNote (width : Nat) (note : Text) : List Text :=
  let pad (mark : Char) (t : Text) := margin width none mark ++ ' ' :: t
  match Text.lines note with
  | [] => []
  | t :: rest => pad '=' t :: rest.map (pad ' ')

/-- **What is shown of a stretch** of a source, which has a name. -/
def showStretch (name source : Text) (span : Span) (notes : List Text) : List Text :=
  match linesBetween span.start span.stop (sourceLines source) with
  | [] => []
  | first :: rest =>
    let last := rest.getLast?.getD first
    let width := (numeral last.number).length
    let place :=
      name ++ ':' :: numeral first.number ++ ':' :: numeral (first.columnNumber span.start)
    let snippet :=
      if rest = [] then showWithin width span.start span.stop first
      else showAcross width span.start span.stop first rest.dropLast last
    let gap := if rest = [] then [] else Bar.none.text
    let border := if notes = [] then [] else [margin width none '│' ++ gap]
    [List.replicate width ' ' ++ " ┌─ ".toList ++ place] ++ snippet ++ border ++
      notes.flatMap (showNote width)

/-- **A fault as it is shown**, for a source that has a name. -/
def Fault.render (name source : Text) (fault : Fault) : Text :=
  Text.writeLines <|
    ("error: ".toList ++ fault.headline) :: showStretch name source fault.span fault.notes ++ [[]]

end Weave.Lit
