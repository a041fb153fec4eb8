import Weave.CommonMark.Spacing
import Weave.Text.CaseFold
import Weave.Text.Punctuation

set_option autoImplicit false
set_option relaxedAutoImplicit false

/-!
# Links

The parts of links and of the definitions that links refer to. Only the text of a link is seen, so
the readers return what follows a part, and of a definition its label.

These parts may go on with the next line. What stands at the beginning of that line is passed over
by `goOn?`; in a definition it also tells whether the text goes on with that line at all.

## Main definitions

* `Weave.CommonMark.label?` — reads a label in brackets.
* `Weave.CommonMark.resource?` — reads the destination and the title of a link in parentheses.
* `Weave.CommonMark.definition?` — reads a definition.
-/

namespace Weave.CommonMark

/-! ## Blanks between parts -/

/-- The text after blanks, of which at most one is the end of a line, and whether one is. -/
def skipSpacing? (goOn? : Text → Option Text) (t : Text) : Option (Text × Bool) :=
  let rest := t.dropWhile isLineBlank
  match afterLineEnd? rest with
  | none => some (rest, false)
  | some next => (goOn? next).map fun next => (next.dropWhile isLineBlank, true)

/-! ## Labels -/

/-- Reads a label from after its opening bracket up to the closing one: the label, in which
stretches of blanks count as one, and what follows it. Brackets inside of it have to be escaped. The
number bounds the steps. -/
def labelBody? (goOn? : Text → Option Text) : Nat → Text → Option (Text × Text)
  | 0, _ => none
  | n + 1, t =>
    match t with
    | [] => none
    | '\\' :: c :: t => (labelBody? goOn? n t).map fun (l, rest) => ('\\' :: c :: l, rest)
    | c :: t =>
      if c = ']' then some ([], t)
      else if c = '[' then none
      else if isSpacing c then
        match skipSpacing? goOn? (c :: t) with
        | some (rest, _) =>
          if isAtLineEnd rest then none
          else (labelBody? goOn? n rest).map fun (l, rest) => (' ' :: l, rest)
        | none => none
      else (labelBody? goOn? n t).map fun (l, rest) => (c :: l, rest)

/-- Whether a label has a character that is neither a blank nor an escaped one of ASCII. -/
def hasPlain : Text → Bool
  | [] => false
  | '\\' :: c :: l => c.toNat ≥ 0x80 || hasPlain l
  | c :: l => c != ' ' || hasPlain l

/-- How much a character adds to the size of a label. Of the characters of ASCII only blanks and
backslashes count. -/
def labelWeight (c : Char) : Nat :=
  if c.toNat ≥ 0x80 then c.utf8Size else if c = ' ' ∨ c = '\\' then 1 else 0

/-- The size of a label. -/
def labelSize (l : Text) : Nat :=
  l.foldl (fun n c => n + labelWeight c) 0

/-- The size from which on a label is none. -/
def labelLimit : Nat :=
  1000

/-- **Reads a label** from after its opening bracket: the label in the form in which labels are
compared, in which the case of letters does not count, and what follows it. -/
def label? (goOn? : Text → Option Text) (t : Text) : Option (Text × Text) :=
  match labelBody? goOn? t.length t with
  | some (l, rest) =>
    if hasPlain l ∧ labelSize l < labelLimit then some (Text.fold l, rest) else none
  | none => none

/-! ## Destinations and titles -/

/-- Reads a destination from after its opening angle bracket. -/
def pointyDestination? : Text → Option Text
  | [] => none
  | '\\' :: c :: t =>
    if isAsciiPunctuation c then pointyDestination? t else pointyDestination? (c :: t)
  | c :: t =>
    if c = '>' then some t
    else if isLineEnd c ∨ c = '<' then none
    else pointyDestination? t

/-- How deep the parentheses in a destination are nested at most, apart from the innermost ones. -/
def nestingLimit : Nat :=
  5

/-- Reads a destination without angle brackets, up to a blank or to a closing parenthesis that was
not opened. The number is that of the open parentheses. -/
def plainDestination? : Nat → Text → Option Text
  | depth, [] => if depth = 0 then some [] else none
  | depth, '\\' :: c :: t =>
    if isAsciiPunctuation c then plainDestination? depth t
    else plainDestination? depth (c :: t)
  | depth, c :: t =>
    if c.toNat ≤ 0x20 then if depth = 0 then some (c :: t) else none
    else if c = '(' then if depth > nestingLimit then none else plainDestination? (depth + 1) t
    else if c = ')' then
      match depth with
      | 0 => some (c :: t)
      | depth + 1 => plainDestination? depth t
    else plainDestination? depth t

/-- Reads a destination. -/
def destination? : Text → Option Text
  | '<' :: t => pointyDestination? t
  | t => plainDestination? 0 t

/-- Reads a title up to its closing mark. The opening mark may not occur in it, and a mark counts
only if it is not escaped. The number bounds the steps. -/
def titleBody? (goOn? : Text → Option Text) (opening closing : Char) : Nat → Text → Option Text
  | 0, _ => none
  | n + 1, t =>
    match t with
    | [] => none
    | '\\' :: c :: t =>
      titleBody? goOn? opening closing n (if isAsciiPunctuation c then t else c :: t)
    | c :: t =>
      if c = closing then some t
      else if c = opening then none
      else if isLineEnd c then
        match (afterLineEnd? (c :: t)).bind goOn? with
        | some rest => titleBody? goOn? opening closing n rest
        | none => none
      else titleBody? goOn? opening closing n t

/-- Reads a title. -/
def title? (goOn? : Text → Option Text) : Text → Option Text
  | '"' :: t => titleBody? goOn? '"' '"' (t.length + 1) t
  | '\'' :: t => titleBody? goOn? '\'' '\'' (t.length + 1) t
  | '(' :: t => titleBody? goOn? '(' ')' (t.length + 1) t
  | _ => none

/-! ## Links in running text -/

/-- What follows the indentation of a line inside of a title. A backslash at its beginning that
escapes a mark is passed over as well, so the mark counts. -/
def titleLine (t : Text) : Text :=
  match t.dropWhile isIndentation with
  | '\\' :: c :: t => if isAsciiPunctuation c then c :: t else '\\' :: c :: t
  | t => t

/-- **Reads the destination and the title of a link** from after the opening parenthesis. `next`
passes over the marks of containers at the beginning of a line. -/
def resource? (next : Text → Text) (t : Text) : Option Text :=
  let skip (t : Text) : Text := ((skipSpacing? (fun t => some (next t)) t).map Prod.fst).getD t
  match destination? (skip t) with
  | none => none
  | some rest =>
    let rest := skip rest
    match ((title? (fun t => some (titleLine (next t))) rest).map skip).getD rest with
    | ')' :: rest => some rest
    | _ => none

/-! ## Definitions -/

/-- Reads what follows the destination of a definition: a title that is the last thing on its line,
or nothing. What else stands on the next line is left for the text after the definition; if it
stands on the line of the destination, there is no definition. -/
def definitionEnd? (goOn? : Text → Option Text) (t : Text) : Option Text :=
  match skipSpacing? goOn? t with
  | none => some t
  | some (rest, onNextLine) =>
    if isAtLineEnd rest then some t
    else if !t.head?.any isSpacing then none
    else
      match (title? goOn? rest).filter isBlankLine with
      | some rest => some rest
      | none => if onNextLine then some t else none

/-- **Reads a definition**: its label, and what follows its last line. -/
def definition? (goOn? : Text → Option Text) (t : Text) : Option (Text × Text) :=
  match t with
  | '[' :: t =>
    match label? goOn? t with
    | some (label, ':' :: rest) =>
      match skipSpacing? goOn? rest with
      | none => none
      | some (target, _) =>
        match destination? target with
        | none => none
        | some rest =>
          if rest.length = target.length then none
          else
            (definitionEnd? goOn? rest).map fun rest =>
              (label, (afterBlankLine? rest).getD rest)
    | _ => none
  | _ => none

end Weave.CommonMark
