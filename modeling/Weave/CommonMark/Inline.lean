import Weave.CommonMark.Container
import Weave.CommonMark.Entity
import Weave.CommonMark.Html
import Weave.CommonMark.Link
import Weave.Text.Blank

set_option autoImplicit false
set_option relaxedAutoImplicit false

/-!
# Inline markup

The text of a paragraph or of a heading is read from left to right into a list of nodes. Code, links
and HTML are resolved as they are met. Runs of asterisks and underscores wait until it is known
which of them belong together; those that do are markup, and the others stand for themselves.

The text keeps the marks of its containers. `next` passes over those at the beginning of a line.

## Main definitions

* `Weave.CommonMark.Run`, `Weave.CommonMark.Node` — what is read.
* `Weave.CommonMark.emphasized` — nodes as a text, with the runs that belong together left out.
* `Weave.CommonMark.inlineText` — the visible text of a paragraph or of a heading.
-/

namespace Weave.CommonMark

/-! ## Runs of delimiters -/

/-- A run of delimiters, of which some may have been used already. -/
structure Run where
  mark : Char
  /-- How many delimiters there were. -/
  length : Nat
  /-- How many of them are left. -/
  left : Nat
  opens : Bool
  closes : Bool
  /-- The blanks after the run, if nothing else follows it. -/
  tail : Text
deriving DecidableEq, Repr

namespace Run

/-- Whether a run can begin emphasis, given the characters around it. -/
def canOpen (mark before : Char) (next? : Option Char) : Bool :=
  match next? with
  | none => false
  | some next =>
    !isBlank next &&
      ((mark == '*' && !isPunctuation next) || isBlank before || isPunctuation before)

/-- Whether a run can end emphasis, given the characters around it. -/
def canClose (mark before : Char) (next? : Option Char) : Bool :=
  !isBlank before &&
    ((mark == '*' && !isPunctuation before) ||
      next?.all (fun next => isBlank next || isPunctuation next))

/-- Whether the emphasis that one run begins can be ended by another. -/
def fits (opening closing : Run) : Bool :=
  opening.mark == closing.mark &&
    (!(opening.closes || closing.opens) || closing.length % 3 == 0 ||
      (opening.length + closing.length) % 3 != 0)

/-- The delimiters that are left, as text. -/
def text (r : Run) : Text :=
  List.replicate r.left r.mark ++ r.tail

end Run

/-! ## Nodes -/

/-- What is read of a text. -/
inductive Node where
  /-- What is seen. -/
  | shown (t : Text)
  /-- The end of a line after a backslash. -/
  | escapedEnd
  | run (r : Run)
  /-- A bracket that may open a link or an image, and the text after it. A bracket before a link is
  not active: links do not hold links. -/
  | bracket (image active : Bool) (after : Text)
deriving DecidableEq, Repr

namespace Node

/-- A node as text, if it turns out to be no markup. -/
def text : Node → Text
  | shown t => t
  | escapedEnd => ['\n']
  | run r => r.text
  | bracket image _ _ => if image then ['!', '['] else ['[']

/-- The node, no longer able to open a link. -/
def deactivate : Node → Node
  | bracket false _ after => bracket false false after
  | n => n

/-- Whether a node is a run that could begin or end emphasis. -/
def isDelimiter : Node → Bool
  | run r => r.opens || r.closes
  | _ => false

end Node

/-- The nodes before the newest run that a run closes, the run, and the nodes after it; nodes stand
newest first. -/
def findOpening (closing : Run) : List Node → Option (List Node × Run × List Node)
  | [] => none
  | .run r :: older =>
    if r.fits closing then some ([], r, older)
    else (findOpening closing older).map fun (newer, o, older) => (.run r :: newer, o, older)
  | n :: older =>
    (findOpening closing older).map fun (newer, o, older) => (n :: newer, o, older)

/-- Matches a closing run with the runs before it, for as long as delimiters of it are left: the
nodes newest first, and what is left of the run. The number bounds the steps. -/
def closeRun : Nat → Run → List Node → Run × List Node
  | 0, r, nodes => (r, nodes)
  | n + 1, r, nodes =>
    if r.left = 0 then (r, nodes)
    else
      match findOpening r nodes with
      | none => (r, nodes)
      | some (newer, opening, older) =>
        let used := min r.left opening.left
        let inner := newer.map fun node => Node.shown node.text
        let older :=
          if opening.left > used then .run { opening with left := opening.left - used } :: older
          else older
        closeRun n { r with left := r.left - used } (inner ++ older)

/-- Takes in a node; nodes stand newest first. -/
def addNode (nodes : List Node) : Node → List Node
  | .run r =>
    let (r, nodes) := if r.closes then closeRun r.left r nodes else (r, nodes)
    if r.left = 0 then nodes
    else if r.opens then .run r :: nodes
    else .shown r.text :: nodes
  | n => n :: nodes

/-- **Nodes as a text.** Runs that belong together are left out. -/
def emphasized (nodes : List Node) : Text :=
  (nodes.foldl addNode []).reverse.flatMap Node.text

/-! ## Parts that stand for themselves -/

/-- Cuts off the blanks at the beginning of a text if they are all there is. Only a heading ends in
blanks, and they belong to the last part of it: after code they are not seen. -/
def splitTail (t : Text) : Text × Text :=
  if t.all isLineBlank then (t, []) else ([], t)

/-- Reads code up to a run of exactly `n` backticks: the code, and what follows. The first argument
bounds the steps. -/
def codeBody? (n : Nat) : Nat → Text → Option (Text × Text)
  | 0, _ => none
  | steps + 1, t =>
    let before := t.takeWhile (· != '`')
    match t.drop before.length with
    | [] => none
    | rest =>
      let ticks := rest.takeWhile (· == '`')
      let rest := rest.drop ticks.length
      if ticks.length = n then some (before, rest)
      else (codeBody? n steps rest).map fun (code, rest) => (before ++ ticks ++ code, rest)

/-- Code as one line: the ends of its lines are blanks, and the marks after them are left out. The
number bounds how many lines there are. -/
def joinLines (next : Text → Text) : Nat → Text → Text
  | 0, _ => []
  | n + 1, t =>
    match t.dropWhile (!isLineEnd ·) with
    | [] => t
    | _ :: rest => t.takeWhile (!isLineEnd ·) ++ ' ' :: joinLines next n (next rest)

/-- Code as it is seen: on one line, and without one blank at either end unless there are only
blanks. -/
def codeText (next : Text → Text) (code : Text) : Text :=
  let code := joinLines next (code.length + 1) code
  if code.all (· == ' ') then code
  else if code.head? = some ' ' ∧ code.getLast? = some ' ' then (code.drop 1).dropLast
  else code

/-- Reads an address with a scheme, up to the closing angle bracket. -/
def uri? (t : Text) : Option (Text × Text) :=
  let isSchemeChar (c : Char) : Bool := isLetter c || isDigit c || c == '.' || c == '-' || c == '+'
  let scheme := t.takeWhile isSchemeChar
  match t.drop scheme.length with
  | ':' :: _ =>
    if t.head?.any isLetter ∧ 2 ≤ scheme.length ∧ scheme.length ≤ 32 then
      let address := t.takeWhile fun c => c.toNat > 0x20 && c != '<' && c != '>'
      match t.drop address.length with
      | '>' :: rest => some (address, rest)
      | _ => none
    else none
  | _ => none

/-- Whether a text is a part of the name of a host. -/
def isHostLabel (t : Text) : Bool :=
  t.all (fun c => isLetter c || isDigit c || c == '-') && t != [] && t.length ≤ 63 &&
    t.head? != some '-' && t.getLast? != some '-'

/-- Reads an address of mail, up to the closing angle bracket. -/
def mail? (t : Text) : Option (Text × Text) :=
  let isUserChar (c : Char) : Bool :=
    isLetter c || isDigit c || ".!#$%&'*+/=?^_`\x7b|\x7d~-".toList.contains c
  let user := t.takeWhile isUserChar
  match user, t.drop user.length with
  | _ :: _, '@' :: host =>
    let name := host.takeWhile (· != '>')
    match host.drop name.length with
    | '>' :: rest =>
      if (Text.fields '.' name).all isHostLabel then some (user ++ '@' :: name, rest) else none
    | _ => none
  | _, _ => none

/-- Reads what an opening angle bracket begins: an address, which is seen, or HTML, which is not. -/
def angle? (next : Text → Text) (t : Text) : Option (Text × Text) :=
  match uri? t, mail? t with
  | some link, _ => some link
  | none, some link => some link
  | none, none => (inlineHtml? next t).map fun rest => ([], rest)

/-! ## Links -/

/-- The nodes newer than the newest bracket, whether it opens an image and is active, the text after
it, and the nodes older than it. -/
def splitAtBracket : List Node → Option (List Node × (Bool × Bool × Text) × List Node)
  | [] => none
  | .bracket image active after :: older => some ([], (image, active, after), older)
  | n :: older => (splitAtBracket older).map fun (newer, b, older) => (n :: newer, b, older)

/-- What follows a link whose text has been read up to its closing bracket: what it points to is
given in parentheses, or by a label that is defined, which may be the text itself. Before a label a
backslash is passed over that would make its bracket a plain one. Blanks at the end of a heading
belong to the closing bracket before them, so the text is then no label. -/
def linkEnd? (labels : List Text) (next : Text → Text) (linkText rest : Text) : Option Text :=
  let read? (t : Text) : Option (Text × Text) := label? (fun t => some (next t)) t
  let own (rest : Text) : Option Text :=
    match read? (linkText ++ [']']) with
    | some (label, []) => if labels.contains label then some rest else none
    | _ => none
  let reference :=
    match rest with
    | '\\' :: '[' :: t => '[' :: t
    | _ => rest
  let referring : Option Text :=
    match reference with
    | '[' :: ']' :: after => own (splitTail after).2
    | '[' :: t =>
      match read? t with
      | some (label, after) => if labels.contains label then some (splitTail after).2 else none
      | none => own rest
    | _ => if (splitTail rest).1 = [] then own rest else none
  match rest with
  | '(' :: t =>
    match resource? next t with
    | some after => some after
    | none => referring
  | _ => referring

/-- The nodes of the text of a link, newest first, once all of them are read. If the newest is the
end of a line after a backslash, and a run stands before it, only the backslash is seen. -/
def settleEnd : List Node → List Node
  | .escapedEnd :: older =>
    (if older.any Node.isDelimiter then .shown ['\\'] else .escapedEnd) :: older
  | nodes => nodes

/-- Takes in a closing bracket, after which `rest` follows. -/
def closeBracket (labels : List Text) (next : Text → Text) (nodes : List Node) (rest : Text) :
    List Node × Text :=
  match splitAtBracket nodes with
  | none => (.shown [']'] :: nodes, rest)
  | some (inner, (image, active, after), outer) =>
    let linkText := after.take (after.length - (rest.length + 1))
    match if active then linkEnd? labels next linkText rest else none with
    | none =>
      (.shown [']'] :: inner ++ .shown (Node.bracket image active after).text :: outer, rest)
    | some rest =>
      let outer := if image then outer else outer.map Node.deactivate
      (.shown (emphasized (settleEnd inner).reverse) :: outer, rest)

/-! ## Reading -/

/-- The characters that may begin markup. -/
def isSpecial (c : Char) : Bool :=
  "\\`<&*_[]!\n\r \t\x0b\x0c\x00".toList.contains c

/-- The text of the next line, from after the end of a line. -/
def nextLine (next : Text → Text) (t : Text) : Text :=
  (next (afterLine t)).dropWhile isIndentation

/-- Reads what a text begins with: the nodes with what was read, newest first, and the text that
follows. -/
def readNode (labels : List Text) (next : Text → Text) (before : Char) (nodes : List Node) :
    Text → List Node × Text
  | [] => (nodes, [])
  | c :: t =>
    match c with
    | '\\' =>
      match t with
      | p :: rest =>
        if isLineEnd p then (.escapedEnd :: nodes, nextLine next t)
        else if isAsciiPunctuation p then (.shown [p] :: nodes, rest)
        else (.shown ['\\'] :: nodes, t)
      | [] => (.shown ['\\'] :: nodes, [])
    | '`' =>
      let ticks := '`' :: t.takeWhile (· == '`')
      let rest := t.dropWhile (· == '`')
      match codeBody? ticks.length rest.length rest with
      | some (code, rest) => (.shown (codeText next code) :: nodes, (splitTail rest).2)
      | none => (.shown ticks :: nodes, rest)
    | '<' =>
      match angle? next t with
      | some (link, rest) => (.shown link :: nodes, rest)
      | none => (.shown ['<'] :: nodes, t)
    | '&' =>
      match entity? t with
      | some (what, rest) => (.shown what :: nodes, (splitTail rest).2)
      | none => (.shown ['&'] :: nodes, t)
    | '[' => (.bracket false true t :: nodes, t)
    | ']' => closeBracket labels next nodes t
    | '!' =>
      match t with
      | '[' :: t => (.bracket true true t :: nodes, t)
      | t => (.shown ['!'] :: nodes, t)
    | '\x00' => (.shown ['\uFFFD'] :: nodes, (splitTail t).2)
    | c =>
      if c = '*' ∨ c = '_' then
        let rest := t.dropWhile (· == c)
        let length := t.length - rest.length + 1
        let opens := Run.canOpen c before rest.head?
        let closes := Run.canClose c before rest.head?
        let (tail, after) := splitTail rest
        (.run { mark := c, length, left := length, opens, closes, tail } :: nodes, after)
      else if isLineEnd c then (.shown ['\n'] :: nodes, nextLine next (c :: t))
      else if isLineBlank c then
        let rest := t.dropWhile isLineBlank
        if rest.head?.any isLineEnd then (nodes, rest)
        else (.shown (c :: t.takeWhile isLineBlank) :: nodes, rest)
      else
        (.shown (c :: t.takeWhile fun c => !isSpecial c) :: nodes,
          t.dropWhile fun c => !isSpecial c)

/-- Reads all of a text: its nodes, newest first. The number bounds the steps, and `before` is the
character before the text. -/
def readNodes (labels : List Text) (next : Text → Text) :
    Nat → Char → Text → List Node → List Node
  | 0, _, _, nodes => nodes
  | n + 1, before, t, nodes =>
    if t = [] then nodes
    else
      let (nodes, rest) := readNode labels next before nodes t
      let before := (t.take (t.length - rest.length)).getLast?.getD before
      readNodes labels next n before rest nodes

/-- **The visible text** of a paragraph or of a heading. The labels that are defined are those that
a link can refer to. -/
def inlineText (labels : List Text) (content : RunningText) : Text :=
  let next := afterMarks content.containers
  let t := content.text
  emphasized (readNodes labels next t.length content.before t []).reverse

end Weave.CommonMark
