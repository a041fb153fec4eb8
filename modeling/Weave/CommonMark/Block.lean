import Weave.CommonMark.Container
import Weave.CommonMark.Html
import Weave.CommonMark.Link

set_option autoImplicit false
set_option relaxedAutoImplicit false

/-!
# Blocks

A document is made up of blocks, of which some hold other blocks. The lines are taken in one by one.
At any time some containers are open, one inside the other, and in the innermost one a block of
lines may be open as well. A line first goes on with the open containers, as far as it has the marks
for them; then it begins new blocks, or belongs to the open one.

A document is read as one text, because it depends on the block where a line ends. A step gets the
text that is left and returns what is left after it.

## Main definitions

* `Weave.CommonMark.Block` — the blocks of a document.
* `Weave.CommonMark.Builder` — a document of which some lines are read.
* `Weave.CommonMark.Builder.step` — takes in a line.
* `Weave.CommonMark.blocks` — the blocks of a text, and the labels that are defined in it.
-/

namespace Weave.CommonMark

/-- A block of a document. Rules, which have no text, are left out. -/
inductive Block where
  | paragraph (content : RunningText)
  | heading (content : RunningText)
  | code (content : Text)
  /-- Of a block of HTML only the indentation is seen that its lines have inside of its containers.
  -/
  | html (indentation : Nat)
  | quote (blocks : List Block)
  /-- A list is tight if no blank line stands between its items or between the blocks of one. -/
  | list (tight : Bool) (items : List Block)
  | item (blocks : List Block)

/-- An open container with the blocks read so far, newest first. -/
structure Frame where
  container : Container
  blocks : List Block

/-- A block that takes in lines; its lines stand newest first. -/
inductive Leaf where
  /-- The lines of a paragraph are kept as they are, with their marks and their ends. -/
  | paragraph (before : Char) (lines : List Text)
  | fenced (fence : Fence) (indent : Nat) (lines : List Text)
  /-- Indented code, and the blank lines after it, which belong to it only if more code follows. -/
  | indented (lines blanks : List Text)
  | html (ending : HtmlBlock) (indentation : Nat)

/-- A document of which some lines are read. -/
structure Builder where
  /-- The open containers, the innermost first. -/
  frames : List Frame
  leaf? : Option Leaf
  /-- Whether the last line was blank, as far as that makes a list loose. -/
  blankBefore : Bool
  /-- Whether an item was begun whose first line is blank. -/
  emptyItem : Bool
  labels : List Text

/-! ## Lines of code -/

/-- A line of code without the carriage return before its last character, which is one of ASCII. -/
def dropReturn (line : Text) : Text :=
  match line.reverse with
  | c :: '\r' :: before => if c.toNat < 0x80 then (c :: before).reverse else line
  | _ => line

/-- The line of code at a place, and what follows it. Columns left over of a tab are blanks. -/
def codeLine (cursor : Cursor) : Text × Text :=
  let (line, rest) := splitFeed cursor.rest
  (List.replicate cursor.pending ' ' ++ dropReturn line, rest)

/-! ## The end of a paragraph -/

/-- Whether a line, without its indentation, ends the paragraph before it. If the line is outside of
a container of the paragraph, every item does. -/
def interrupts (inside : Bool) (t : Text) : Bool :=
  let item :=
    match listMarker? t with
    | none => false
    | some (m, _, rest) => !inside || (m.interrupts && !isBlankLine rest)
  let html :=
    match t with
    | '<' :: after => (HtmlBlock.interrupting? after).isSome
    | _ => false
  isAtLineEnd t || isRule t || (heading? t).isSome || (fence? t).isSome ||
    t.head? == some '>' || item || html

/-- What a definition inside of some containers goes on with on its next line. It does not go on
with a line that would end a paragraph. -/
def definitionLine? (containers : List Container) (t : Text) : Option Text :=
  let (n, cursor) := countGoingOn containers (.start t)
  let (indent, inner) := cursor.skipBlanks 4
  let t := inner.rest
  let ends := interrupts (n == containers.length) t || (afterUnderline? t).isSome
  if isBlankLine t ∨ (indent < 4 ∧ ends) then none else some t

namespace Builder

/-- A document of which nothing is read. -/
def empty : Builder where
  frames := [{ container := .document, blocks := [] }]
  leaf? := none
  blankBefore := false
  emptyItem := false
  labels := []

/-- The innermost open container. -/
def tip (b : Builder) : Container :=
  (b.frames.head?.map Frame.container).getD .document

/-- The open containers, the outermost first. -/
def containers (b : Builder) : List Container :=
  b.frames.reverse.map Frame.container

/-! ## Closing -/

/-- Adds a block to the innermost open container. -/
def addBlock (b : Builder) (block : Block) : Builder :=
  match b.frames with
  | f :: fs => { b with frames := { f with blocks := block :: f.blocks } :: fs }
  | [] => b

/-- The block that a container is when it is closed. -/
def blockOf (f : Frame) : Option Block :=
  match f.container with
  | .document => none
  | .quote => some (.quote f.blocks.reverse)
  | .list _ tight => some (.list tight f.blocks.reverse)
  | .item _ => some (.item f.blocks.reverse)

/-- Closes the innermost open container. After a tight list it is forgotten that an item was begun
whose first line is blank. -/
def closeFrame (b : Builder) : Builder :=
  match b.frames with
  | f :: g :: fs =>
    let emptyItem :=
      match f.container with
      | .list _ true => false
      | _ => b.emptyItem
    let blocks := (blockOf f).toList ++ g.blocks
    { b with frames := { g with blocks } :: fs, emptyItem }
  | _ => b

/-- Closes containers until `n` are left. -/
def closeTo (n : Nat) (b : Builder) : Builder :=
  (List.range (b.frames.length - n)).foldl (fun b _ => b.closeFrame) b

/-- The text of the paragraph whose lines are given, without the end of the last one. -/
def runningText (b : Builder) (before : Char) (lines : List Text) : RunningText where
  containers := b.containers
  before := before
  text := Text.trimEndBy isLineBlank (Text.trimEndBy isLineEnd lines.reverse.flatten)

/-- The block that a block of lines is when it is closed. -/
def leafBlock (b : Builder) : Leaf → Block
  | .paragraph before lines => .paragraph (b.runningText before lines)
  | .fenced _ _ lines => .code lines.reverse.flatten
  | .indented lines _ => .code lines.reverse.flatten
  | .html _ indentation => .html indentation

/-- Closes the open block of lines. -/
def closeLeaf (b : Builder) : Builder :=
  match b.leaf? with
  | none => b
  | some leaf => { b with leaf? := none }.addBlock (b.leafBlock leaf)

/-! ## Lists -/

/-- Makes the list loose that is `depth` containers outside of the innermost one, if it is a list.
-/
def loosen (depth : Nat) (b : Builder) : Builder :=
  { b with
    frames := b.frames.modify depth fun f =>
      match f.container with
      | .list mark _ => { f with container := .list mark false }
      | _ => f }

/-- Closes an item that holds nothing but two blank lines. -/
def closeEmptyItem (b : Builder) : Builder :=
  let b' := { b with emptyItem := false }
  match b.tip with
  | .item _ => if b.emptyItem && b.blankBefore then b'.closeFrame else b'
  | _ => b'

/-- A block that is no item follows: it closes an open list. If a blank line stands before it, the
list that it is inside of is loose. -/
def leaveList (b : Builder) : Builder :=
  let b := b.closeEmptyItem
  let b :=
    match b.tip with
    | .list _ _ => b.closeFrame
    | _ => b
  if b.blankBefore then { b.loosen 1 with blankBefore := false } else b

/-- Opens a container. -/
def openFrame (container : Container) (b : Builder) : Builder :=
  { b with frames := { container, blocks := [] } :: b.frames }

/-- An item follows: it goes on with an open list of the same mark, which is loose if a blank line
stands before the item, or else it begins a list. -/
def enterList (mark : Char) (b : Builder) : Builder :=
  let b := b.closeEmptyItem
  let again :=
    match b.tip with
    | .list m _ => m == mark
    | _ => false
  if again then
    if b.blankBefore then { b.loosen 0 with blankBefore := false } else b
  else { b.leaveList.openFrame (.list mark true) with blankBefore := false }

/-! ## Beginning blocks -/

/-- Opens the containers that a line begins, and returns the place after their marks. There is none
if an item without text is begun. The number bounds how many containers there are. -/
def openContainers : Nat → Cursor → Builder → Builder × Option Cursor
  | 0, cursor, b => (b, some cursor)
  | n + 1, cursor, b =>
    let (indent, inner) := cursor.skipBlanks 4
    if indent ≥ 4 then (b, some cursor)
    else
      match inner.stepQuote? with
      | some cursor => openContainers n cursor (b.leaveList.openFrame .quote)
      | none =>
        match if isRule inner.rest then none else listMarker? inner.rest with
        | none => (b, some cursor)
        | some (m, width, rest) =>
          let b := b.enterList m.mark
          let least := indent + width + 1
          let inner : Cursor :=
            { pending := 0, column := inner.column + width, before := m.mark, rest }
          if isBlankLine rest then
            ({ b.openFrame (.item (some least)) with emptyItem := true }, none)
          else
            let (_, one) := inner.skipBlanks 1
            let (more, text) := one.skipBlanks 4
            if more < 4 then openContainers n text (b.openFrame (.item (some (least + more))))
            else openContainers n one (b.openFrame (.item (some least)))

/-- A blank line outside of blocks of lines. -/
def addBlank (b : Builder) : Builder :=
  match b.frames with
  | ⟨.quote, _⟩ :: _ => b
  | ⟨.item _, blocks⟩ :: fs =>
    if b.emptyItem then
      { b with frames := ⟨.item none, blocks⟩ :: fs, blankBefore := true }
    else { b with blankBefore := true }
  | _ => { b with blankBefore := true }

/-- Opens a block of lines. -/
def openLeaf (leaf : Leaf) (b : Builder) : Builder :=
  { b with leaf? := some leaf }

/-- Takes in a line of a block of HTML, which may end with it. -/
def addHtml (ending : HtmlBlock) (indentation : Nat) (t : Text) (b : Builder) : Builder × Text :=
  let (line, rest) := splitFeed t
  let b := b.openLeaf (.html ending indentation)
  match ending with
  | .atMark mark => (if Text.contains mark line then b.closeLeaf else b, rest)
  | .atBlank => (b, rest)

/-- Begins a block with a line that is indented less than code. -/
def beginBlock (indent : Nat) (cursor : Cursor) (b : Builder) : Builder × Text :=
  let t := cursor.rest
  let html? :=
    match t with
    | '<' :: after => HtmlBlock.start? after
    | _ => none
  match html?, heading? t, fence? t, definition? (definitionLine? b.containers) t with
  | some ending, _, _, _ => b.addHtml ending indent t
  | none, some text, _, _ =>
    (b.addBlock (.heading { containers := b.containers, before := ' ', text }), afterLine t)
  | none, none, some fence, _ => (b.openLeaf (.fenced fence indent []), (splitFeed t).2)
  | none, none, none, some (label, rest) => ({ b with labels := label :: b.labels }, rest)
  | none, none, none, none =>
    if isRule t then (b, afterLine t)
    else
      let (line, rest) := splitLine t
      (b.openLeaf (.paragraph cursor.before [line]), rest)

/-- Begins a block with a line that is not blank. -/
def beginLeaf (cursor : Cursor) (b : Builder) : Builder × Text :=
  let b := b.leaveList
  let (indent, inner) := cursor.skipBlanks 4
  if indent ≥ 4 then
    let (line, rest) := codeLine inner
    ({ b.openLeaf (.indented [line] []) with blankBefore := false }, rest)
  else b.beginBlock indent inner

/-- Takes in a line while no block of lines is open. -/
def addFresh (t : Text) (b : Builder) : Builder × Text :=
  let (line, rest) := splitLine t
  let (n, cursor) := countGoingOn b.containers (.start t)
  match openContainers line.length cursor (b.closeTo n) with
  | (b, none) => (b, rest)
  | (b, some cursor) => if isBlankLine cursor.rest then (b.addBlank, rest) else b.beginLeaf cursor

/-! ## Going on with a block of lines -/

/-- Takes in a line while a paragraph is open. -/
def addToParagraph (before : Char) (lines : List Text) (t : Text) (b : Builder) : Builder × Text :=
  let (n, cursor) := countGoingOn b.containers (.start t)
  let inside := n == b.frames.length
  let (indent, inner) := cursor.skipBlanks 4
  match if indent < 4 ∧ inside then afterUnderline? inner.rest else none with
  | some rest =>
    ({ b with leaf? := none }.addBlock (.heading (b.runningText before lines)), rest)
  | none =>
    let isBlank := isAtLineEnd (inner.rest.dropWhile isIndentation)
    if isBlank ∨ (indent < 4 ∧ interrupts inside inner.rest) then b.closeLeaf.addFresh t
    else
      let (line, rest) := splitLine t
      (b.openLeaf (.paragraph before (line :: lines)), rest)

/-- Takes in a line while fenced code is open. A blank line outside of the containers of the code
only ends it. -/
def addToFenced (fence : Fence) (indent : Nat) (lines : List Text) (t : Text) (b : Builder) :
    Builder × Text :=
  let (n, cursor) := countGoingOn b.containers (.start t)
  if n < b.frames.length then
    match afterBlankLine? t with
    | some rest => (b.closeLeaf, rest)
    | none => b.closeLeaf.addFresh t
  else
    let (outer, closing) := cursor.skipBlanks 4
    match if outer < 4 then fence.afterClosing? closing.rest else none with
    | some rest => (b.closeLeaf, rest)
    | none =>
      let (line, rest) := codeLine (cursor.skipBlanks indent).2
      (b.openLeaf (.fenced fence indent (line :: lines)), rest)

/-- Takes in a line while indented code is open. -/
def addToIndented (lines blanks : List Text) (t : Text) (b : Builder) : Builder × Text :=
  let (n, cursor) := countGoingOn b.containers (.start t)
  let (indent, inner) := cursor.skipBlanks 4
  if n < b.frames.length ∨ (indent < 4 ∧ !isAtLineEnd inner.rest) then b.closeLeaf.addFresh t
  else
    let (line, rest) := codeLine inner
    if isBlankLine inner.rest then
      ({ b.openLeaf (.indented lines (line :: blanks)) with blankBefore := true }, rest)
    else
      ({ b.openLeaf (.indented (line :: blanks ++ lines) []) with blankBefore := false }, rest)

/-- Takes in a line while a block of HTML is open. -/
def addToHtml (ending : HtmlBlock) (indentation : Nat) (t : Text) (b : Builder) : Builder × Text :=
  let (n, cursor) := countGoingOn b.containers (.start t)
  if n < b.frames.length ∨ (ending = .atBlank ∧ isBlankLine cursor.rest) then
    b.closeLeaf.addFresh t
  else b.addHtml ending (indentation + cursor.pending) cursor.rest

/-! ## Reading -/

/-- **Takes in a line** of a text that is not empty, and returns what follows it. -/
def step (b : Builder) (t : Text) : Builder × Text :=
  match b.leaf? with
  | none => b.addFresh t
  | some (.paragraph before lines) => b.addToParagraph before lines t
  | some (.fenced fence indent lines) => b.addToFenced fence indent lines t
  | some (.indented lines blanks) => b.addToIndented lines blanks t
  | some (.html ending indentation) => b.addToHtml ending indentation t

/-- Takes in a text. The number bounds how many lines there are. -/
def read : Nat → Text → Builder → Builder
  | 0, _, b => b
  | n + 1, t, b =>
    if t = [] then b
    else
      let (b, rest) := b.step t
      read n rest b

/-- The blocks of a document all of whose lines are read. -/
def finish (b : Builder) : List Block × List Text :=
  let b := b.closeLeaf.closeTo 1
  ((b.frames.head?.map fun f => f.blocks.reverse).getD [], b.labels)

end Builder

/-- **The blocks of a text**, and the labels that are defined in it. -/
def blocks (t : Text) : List Block × List Text :=
  (Builder.read t.length t Builder.empty).finish

end Weave.CommonMark
