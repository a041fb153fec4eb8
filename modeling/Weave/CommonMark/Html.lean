import Weave.CommonMark.Spacing
import Weave.Text.CharTable
import Weave.Text.Numeral

set_option autoImplicit false
set_option relaxedAutoImplicit false

/-!
# HTML inside of texts

Tags, comments and other pieces of HTML, as they stand in running text or at the beginning of a
block. A reader gets the text after the opening angle bracket and returns what follows the piece.

A tag may go on with the next line if it stands in running text. Then `next?` is given, which passes
over the marks that the containers of the text have at the beginning of a line.

## Main definitions

* `Weave.CommonMark.inlineHtml?` — reads a piece of HTML in running text.
* `Weave.CommonMark.HtmlBlock.start?` — how a block of HTML ends that begins with a line.
-/

namespace Weave.CommonMark

/-- The letters of ASCII. -/
def isLetter (c : Char) : Bool :=
  c.isAlpha

/-- The text after its first occurrence of `mark`. -/
def after? (mark t : Text) : Option Text :=
  (Text.cutAt? mark t).map Prod.snd

/-! ## Tags -/

/-- Passes over blanks and the ends of lines up to something else. The number bounds how many ends
of lines there are. -/
def skipLines? (next? : Option (Text → Text)) : Nat → Text → Option Text
  | 0, _ => none
  | n + 1, t =>
    let rest := t.dropWhile isLineBlank
    if rest = [] then none
    else if isAtLineEnd rest then next?.bind fun next => skipLines? next? n (next (afterLine rest))
    else some rest

/-- Passes over blanks and the ends of lines inside of a tag. -/
def skipTagSpacing? (next? : Option (Text → Text)) (t : Text) : Option Text :=
  skipLines? next? (t.length + 1) t

/-- Reads a value of an attribute up to the quotation mark that ends it. The number bounds how many
lines it has. -/
def quotedValue? (next? : Option (Text → Text)) (mark : Char) : Nat → Text → Option Text
  | 0, _ => none
  | n + 1, t =>
    match t.dropWhile fun c => c != mark && !isLineEnd c with
    | [] => none
    | c :: rest =>
      if c = mark then some rest
      else next?.bind fun next => quotedValue? next? mark n (next (afterLine (c :: rest)))

/-- Reads a value of an attribute. -/
def attributeValue? (next? : Option (Text → Text)) (t : Text) : Option Text :=
  match t with
  | [] => none
  | c :: rest =>
    let isPlain (c : Char) : Bool := !isLineEnd c && !" \"'=<>`".toList.contains c
    if c = '"' ∨ c = '\'' then quotedValue? next? c t.length rest
    else if isPlain c then some (t.dropWhile isPlain)
    else none

/-- Reads an attribute: a name, and a value if an equals sign follows. -/
def attribute? (next? : Option (Text → Text)) (t : Text) : Option Text :=
  let begins (c : Char) : Bool := isLetter c || c == '_' || c == ':'
  let continues (c : Char) : Bool := begins c || isDigit c || c == '.' || c == '-'
  if t.head?.any begins then
    let rest := t.dropWhile continues
    match skipTagSpacing? next? rest with
    | some ('=' :: value) => (skipTagSpacing? next? value).bind (attributeValue? next?)
    | some _ => some rest
    | none => none
  else none

/-- Reads the attributes of a tag and its end. Every attribute has a blank before it. The number
bounds how many there are. -/
def attributes? (next? : Option (Text → Text)) : Nat → Text → Option Text
  | 0, _ => none
  | n + 1, t =>
    match skipTagSpacing? next? t with
    | none => none
    | some ('>' :: rest) => some rest
    | some ('/' :: '>' :: rest) => some rest
    | some rest =>
      if t.head?.any isSpacing then (attribute? next? rest).bind (attributes? next? n) else none

/-- The rest of the name of a tag. -/
def continuesTagName (c : Char) : Bool :=
  isLetter c || isDigit c || c == '-'

/-- Reads an opening or a closing tag. A closing tag stands on one line. -/
def tag? (next? : Option (Text → Text)) (t : Text) : Option Text :=
  match t with
  | '/' :: t =>
    if t.head?.any isLetter then
      match (t.dropWhile continuesTagName).dropWhile isLineBlank with
      | '>' :: rest => some rest
      | _ => none
    else none
  | t =>
    if t.head?.any isLetter then attributes? next? t.length (t.dropWhile continuesTagName)
    else none

/-! ## Other pieces -/

/-- Reads a comment from after its second dash. -/
def comment? (t : Text) : Option Text :=
  match t.dropWhile (· == '-') with
  | '>' :: rest => some rest
  | rest => after? "-->".toList rest

/-- Reads a declaration up to its angle bracket. That may be a mark of a container; then reading
goes on after all the marks of that line, and after its indentation. -/
def plainDeclaration? (next : Text → Text) (t : Text) : Option Text :=
  (Text.cutAt? ['>'] t).map fun (inside, rest) =>
    let lineLength := (inside.reverse.takeWhile (!isLineEnd ·)).length
    if lineLength = inside.length then rest
    else
      let content := (next (t.drop (inside.length - lineLength))).dropWhile isIndentation
      if content.length < rest.length then content else rest

/-- Reads a piece that an exclamation mark begins: a comment, a section of plain characters up to
its first closing brackets, or a declaration. -/
def declaration? (next : Text → Text) (t : Text) : Option Text :=
  match t with
  | '-' :: '-' :: t => comment? t
  | '[' :: 'C' :: 'D' :: 'A' :: 'T' :: 'A' :: '[' :: t =>
    match t.dropWhile (· != ']') with
    | ']' :: t =>
      match t.dropWhile (· == ']') with
      | '>' :: rest => some rest
      | _ => none
    | _ => none
  | t => if t.head?.any isLetter then plainDeclaration? next t else none

/-- **Reads a piece of HTML** in running text. Only inside of a tag are the marks of containers told
from the rest of the text. -/
def inlineHtml? (next : Text → Text) (t : Text) : Option Text :=
  match t with
  | '!' :: t => declaration? next t
  | '?' :: t => after? "?>".toList t
  | t => tag? (some next) t

/-! ## Blocks -/

/-- How a block of HTML ends. -/
inductive HtmlBlock where
  /-- With the line that holds a mark. -/
  | atMark (mark : Text)
  /-- Before a blank line. -/
  | atBlank
deriving DecidableEq, Repr

/-- The names of the tags between which everything is taken as it is. -/
def verbatimTags : List Text :=
  ["pre".toList, "style".toList, "script".toList, "textarea".toList]

/-- The names of the tags that begin a block wherever they stand at the beginning of a line. -/
def blockTags : List Text :=
  CharTable.words
  "address article aside base basefont blockquote body caption center col colgroup dd details
   dialog dir div dl dt fieldset figcaption figure footer form frame frameset h1 h2 h3 h4 h5 h6
   head header hr html iframe legend li link main menu menuitem nav noframes ol optgroup option p
   param search section summary table tbody td tfoot th thead title tr track ul".toList

namespace HtmlBlock

/-- The name at the beginning of a text, in small letters. -/
def nameOf (t : Text) : Text :=
  (t.takeWhile Char.isAlphanum).map Char.toLower

/-- How a block ends that begins with a tag whose contents are taken as they are. -/
def verbatim? (t : Text) : Option HtmlBlock :=
  let name := verbatimTags.find? fun name => (t.take name.length).map Char.toLower = name
  match name with
  | none => none
  | some name =>
    let follows (c : Char) : Bool := isSpacing c || c == '>'
    if (t.drop name.length).head?.all follows then
      some (atMark ("</".toList ++ name ++ ['>']))
    else none

/-- How a block ends that begins with a comment, an instruction, a section of plain characters or a
declaration. -/
def marked? (t : Text) : Option HtmlBlock :=
  if Text.startsWith "!--".toList t then some (atMark "-->".toList)
  else if Text.startsWith ['?'] t then some (atMark "?>".toList)
  else if Text.startsWith "![CDATA[".toList t then some (atMark "]]>".toList)
  else
    match t with
    | '!' :: c :: _ => if isLetter c then some (atMark ['>']) else none
    | _ => none

/-- Whether a line begins with a tag that begins a block wherever it stands. -/
def beginsBlockTag (t : Text) : Bool :=
  let t := (Text.stripPrefix? ['/'] t).getD t
  let name := t.takeWhile Char.isAlphanum
  let rest := t.drop name.length
  blockTags.contains (nameOf t) &&
    (rest.head?.all (fun c => isIndentation c || isLineEnd c || c == '>') ||
      Text.startsWith "/>".toList rest)

/-- How a block of HTML ends that may follow a paragraph without a blank line. -/
def interrupting? (t : Text) : Option HtmlBlock :=
  match verbatim? t, marked? t with
  | some block, _ => some block
  | none, some block => some block
  | none, none => if beginsBlockTag t then some atBlank else none

/-- **How a block of HTML ends** that begins with a line. Besides the blocks that may follow a
paragraph, there are those that begin with a line on which a tag stands alone. -/
def start? (t : Text) : Option HtmlBlock :=
  match interrupting? t with
  | some block => some block
  | none =>
    match tag? none t with
    | some rest => if isBlankLine rest then some atBlank else none
    | none => none

end HtmlBlock

end Weave.CommonMark
