import Weave.CommonMark.Spacing
import Weave.Text.Numeral

set_option autoImplicit false
set_option relaxedAutoImplicit false

/-!
# The beginning of a line

A line is read from its beginning: first the indentation, which is measured in columns, and then the
marks that begin a block. A tab reaches to the next column that is a multiple of four; of a tab that
was passed over only in part, columns are left over.

## Main definitions

* `Weave.CommonMark.Cursor` — a place in the line that is being read.
* `Weave.CommonMark.isRule`, `Weave.CommonMark.heading?`, `Weave.CommonMark.fence?`,
  `Weave.CommonMark.listMarker?` — the marks that begin a block.
-/

namespace Weave.CommonMark

/-! ## Indentation -/

/-- A place in the line that is being read. -/
structure Cursor where
  /-- Columns left over of a tab. -/
  pending : Nat
  /-- The column that is reached, without those left over. -/
  column : Nat
  /-- The character before the place. -/
  before : Char
  /-- What follows the place, in this line and after it. -/
  rest : Text
deriving DecidableEq, Repr

namespace Cursor

/-- The beginning of the line that a text begins with. -/
def start (t : Text) : Cursor where
  pending := 0
  column := 0
  before := '\n'
  rest := t

/-- Passes over one column of indentation, if there is one. -/
def stepBlank? (c : Cursor) : Option Cursor :=
  match c.pending, c.rest with
  | n + 1, _ => some { c with pending := n }
  | 0, ' ' :: t => some { pending := 0, column := c.column + 1, before := ' ', rest := t }
  | 0, '\t' :: t =>
    let width := 4 - c.column % 4
    some { pending := width - 1, column := c.column + width, before := '\t', rest := t }
  | 0, _ => none

/-- Passes over at most `n` columns of indentation: how many there were, and the place after them.
-/
def skipBlanks : Nat → Cursor → Nat × Cursor
  | 0, c => (0, c)
  | n + 1, c =>
    match c.stepBlank? with
    | none => (0, c)
    | some c =>
      let (k, c) := skipBlanks n c
      (k + 1, c)

/-- Passes over the mark of a quote, if there is one, and over one column of indentation. Columns
left over of a tab before the mark count as such. -/
def stepQuote? (c : Cursor) : Option Cursor :=
  match c.rest with
  | '>' :: t => some ({ c with column := c.column + 1, before := '>', rest := t }.skipBlanks 1).2
  | _ => none

end Cursor

/-! ## Marks of blocks -/

/-- The number of marks at the beginning of a text. -/
def countMarks (mark : Char) (t : Text) : Nat :=
  (t.takeWhile (· == mark)).length

/-- Whether a line is a rule between blocks: three or more of one mark. -/
def isRule (t : Text) : Bool :=
  match t with
  | [] => false
  | c :: _ =>
    let line := t.takeWhile (!isLineEnd ·)
    (c == '*' || c == '-' || c == '_') && line.all (fun d => d == c || isIndentation d) &&
      3 ≤ line.countP (· == c)

/-- The text of a heading without the marks that close it. -/
def headingText (t : Text) : Text :=
  let body := Text.trimEndBy (· == ' ') t
  let before := Text.trimEndBy (· == '#') body
  if before = [] then []
  else if before.getLast? = some ' ' then Text.trimEndBy (· == ' ') before
  else body

/-- The text of a heading that hash marks begin. -/
def heading? (t : Text) : Option Text :=
  let level := countMarks '#' t
  let rest := t.drop level
  if 1 ≤ level ∧ level ≤ 6 ∧ rest.head?.all isSpacing then
    some (headingText ((rest.takeWhile (!isLineEnd ·)).dropWhile isLineBlank))
  else none

/-- What follows a line that turns the paragraph before it into a heading. -/
def afterUnderline? (t : Text) : Option Text :=
  match t with
  | [] => none
  | c :: _ => if c = '=' ∨ c = '-' then afterBlankLine? (t.dropWhile (· == c)) else none

/-- A fence: its mark and the number of marks. -/
structure Fence where
  mark : Char
  length : Nat
deriving DecidableEq, Repr

/-- The fence that a line begins with. What follows backticks up to the line feed may not hold one.
-/
def fence? (t : Text) : Option Fence :=
  match t with
  | c :: _ =>
    let length := countMarks c t
    let info := (t.drop length).takeWhile (· != '\n')
    if (c == '`' && !info.contains '`' || c == '~') && 3 ≤ length then some { mark := c, length }
    else none
  | [] => none

/-- What follows a line that ends the code after a fence. The end of the document ends it too. -/
def Fence.afterClosing? (f : Fence) (t : Text) : Option Text :=
  let n := countMarks f.mark t
  if t = [] ∨ f.length ≤ n then afterLineEnd? ((t.drop n).dropWhile (· == ' ')) else none

/-- The mark of a list: its last character, and the number of an item if it has one. -/
structure ListMarker where
  mark : Char
  number? : Option Nat
deriving DecidableEq, Repr

/-- Whether an item can follow a paragraph without a blank line, apart from being empty: a numbered
one has to be the first. -/
def ListMarker.interrupts (m : ListMarker) : Bool :=
  m.number?.all (· == 1)

/-- The mark of a list that a text begins with, its width, and what follows it; a blank or the end
of the line has to follow. -/
def listMarker? (t : Text) : Option (ListMarker × Nat × Text) :=
  let closed (m : ListMarker) (width : Nat) (rest : Text) : Option (ListMarker × Nat × Text) :=
    if rest.head?.all (fun c => isIndentation c || isLineEnd c) then some (m, width, rest) else none
  match t with
  | [] => none
  | c :: rest =>
    if c == '-' || c == '+' || c == '*' then closed { mark := c, number? := none } 1 rest
    else
      let digits := (t.take 9).takeWhile isDigit
      match digits, t.drop digits.length with
      | _ :: _, d :: rest =>
        if d == '.' || d == ')' then
          closed { mark := d, number? := some (numeralValue digits) } (digits.length + 1) rest
        else none
      | _, _ => none

end Weave.CommonMark
