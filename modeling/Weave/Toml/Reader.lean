import Weave.Toml.Basic

set_option autoImplicit false
set_option relaxedAutoImplicit false

/-!
# Reading TOML

A reader takes what it reads off the front of a text and returns the rest.

## Main definitions

* `Weave.Toml.value` — reads a value.
* `Weave.Toml.read?` — the entries of a document.
-/

namespace Weave.Toml

/-- How deep arrays and tables may be nested. -/
def depthLimit : Nat :=
  80

/-- Blanks inside of a line. -/
def isGap (c : Char) : Bool :=
  c == ' ' || c == '\t'

/-- The text after the blanks at its beginning. -/
def skipGaps (t : Text) : Text :=
  t.dropWhile isGap

/-- The characters that may stand in strings and comments: all but controls other than tabs. -/
def isStringChar (c : Char) : Bool :=
  c == '\t' || (0x20 ≤ c.toNat && c.toNat != 0x7f)

/-- The text after a comment, if one begins here. -/
def skipComment? (t : Text) : Option Text :=
  match t with
  | '#' :: t =>
    match t.dropWhile isStringChar with
    | [] => some []
    | '\n' :: rest => some ('\n' :: rest)
    | _ => none
  | t => some t

/-- The text after blanks, comments and line feeds. The number bounds the steps. -/
def skipFiller? : Nat → Text → Option Text
  | 0, t => some t
  | n + 1, t =>
    match skipComment? (skipGaps t) with
    | none => none
    | some ('\n' :: rest) => skipFiller? n rest
    | some rest => some rest

/-! ## Strings -/

/-- The character that digits in base sixteen give the number of. -/
def numberedChar? (digits : Text) : Option Char :=
  let n := hexNumeralValue digits
  if digits.all (fun c => (hexValue? c).isSome) ∧ n.isValidChar then some (Char.ofNat n) else none

/-- Reads an escape from after its backslash. -/
def escape? : Text → Option (Char × Text)
  | '"' :: t => some ('"', t)
  | '\\' :: t => some ('\\', t)
  | 'b' :: t => some ('\x08', t)
  | 'f' :: t => some ('\x0c', t)
  | 'n' :: t => some ('\n', t)
  | 'r' :: t => some ('\r', t)
  | 't' :: t => some ('\t', t)
  | 'u' :: a :: b :: c :: d :: t => (numberedChar? [a, b, c, d]).map fun x => (x, t)
  | 'U' :: a :: b :: c :: d :: e :: f :: g :: h :: t =>
    (numberedChar? [a, b, c, d, e, f, g, h]).map fun x => (x, t)
  | _ => none

/-- Puts a text before the string that was read. -/
def prepend (t : Text) (read : Option (Text × Text)) : Option (Text × Text) :=
  read.map fun (s, rest) => (t ++ s, rest)

/-- Reads a string on one line from after its opening mark, up to the same mark. The number bounds
the steps. -/
def lineString (mark : Char) (escapes : Bool) : Nat → Text → Option (Text × Text)
  | 0, _ => none
  | _ + 1, [] => none
  | n + 1, c :: t =>
    if c = mark then some ([], t)
    else if c = '\\' ∧ escapes then
      match escape? t with
      | some (x, rest) => prepend [x] (lineString mark escapes n rest)
      | none => none
    else if isStringChar c then prepend [c] (lineString mark escapes n t)
    else none

/-- The text after the line feed that a backslash takes away, and after the blanks and line feeds
that follow. -/
def joinedLine? (t : Text) : Option Text :=
  match skipGaps t with
  | '\n' :: rest => some (rest.dropWhile fun c => isGap c || c == '\n')
  | _ => none

/-- Reads a string on several lines from after its opening marks, up to three of the same mark; one
or two marks before them belong to the string. The number bounds the steps. -/
def blockString (mark : Char) (escapes : Bool) : Nat → Text → Option (Text × Text)
  | 0, _ => none
  | _ + 1, [] => none
  | n + 1, c :: t =>
    if c = mark then
      let marks := min 5 ((c :: t).takeWhile (· == mark)).length
      let rest := (c :: t).drop marks
      if 3 ≤ marks then some (List.replicate (marks - 3) mark, rest)
      else prepend (List.replicate marks mark) (blockString mark escapes n rest)
    else if c = '\\' ∧ escapes then
      match joinedLine? t, escape? t with
      | some rest, _ => blockString mark escapes n rest
      | none, some (x, rest) => prepend [x] (blockString mark escapes n rest)
      | none, none => none
    else if isStringChar c ∨ c = '\n' then prepend [c] (blockString mark escapes n t)
    else none

/-- A text without the line feed that it begins with. -/
def dropLineFeed : Text → Text
  | '\n' :: t => t
  | t => t

/-- Reads a string of any kind. Only strings between double marks have escapes. -/
def string (t : Text) : Option (Text × Text) :=
  match t with
  | '"' :: '"' :: '"' :: t => blockString '"' true (t.length + 1) (dropLineFeed t)
  | '\'' :: '\'' :: '\'' :: t => blockString '\'' false (t.length + 1) (dropLineFeed t)
  | '"' :: t => lineString '"' true (t.length + 1) t
  | '\'' :: t => lineString '\'' false (t.length + 1) t
  | _ => none

/-! ## Keys -/

/-- The characters of keys without quotation marks. -/
def isKeyChar (c : Char) : Bool :=
  c.isAlphanum || c == '_' || c == '-'

/-- Reads a key. -/
def key (t : Text) : Option (Text × Text) :=
  match t with
  | '"' :: t => lineString '"' true (t.length + 1) t
  | '\'' :: t => lineString '\'' false (t.length + 1) t
  | t =>
    let name := t.takeWhile isKeyChar
    if name = [] then none else some (name, t.drop name.length)

/-- Reads a path of keys with points between them. The number bounds how many there are. -/
def path : Nat → Text → Option (List Text × Text)
  | 0, _ => none
  | n + 1, t =>
    match key (skipGaps t) with
    | none => none
    | some (k, rest) =>
      match skipGaps rest with
      | '.' :: rest => (path n rest).map fun (ks, rest) => (k :: ks, rest)
      | rest => some ([k], rest)

/-! ## Values -/

/-- The characters of numbers and dates. -/
def isScalarChar (c : Char) : Bool :=
  c.isAlphanum || c == '+' || c == '-' || c == '_' || c == '.' || c == ':'

/-- Reads a number or a date. A blank may stand between a day and a time. -/
def scalar (t : Text) : Option (Value × Text) :=
  let first := t.takeWhile isScalarChar
  let rest := t.drop first.length
  let time :=
    match rest with
    | ' ' :: more => more.takeWhile isScalarChar
    | _ => []
  let both := first ++ ' ' :: time
  if isDate first ∧ time.head?.any isDigit then
    if isDateTime both then some (.dateTime both, t.drop both.length) else none
  else if isNumber first then some (.number first, rest)
  else if isDateTime first then some (.dateTime first, rest)
  else none

/-- Reads the items of an array from one of them on. The number bounds how many there are. -/
def items (read : Text → Option (Value × Text)) : Nat → Text → Option (List Value × Text)
  | 0, _ => none
  | n + 1, t =>
    match skipFiller? t.length t with
    | none => none
    | some (']' :: rest) => some ([], rest)
    | some t =>
      match read t with
      | none => none
      | some (v, rest) =>
        match skipFiller? rest.length rest with
        | some (',' :: rest) => (items read n rest).map fun (vs, rest) => (v :: vs, rest)
        | some (']' :: rest) => some ([v], rest)
        | _ => none

/-- Reads a path of keys and the value after an equals sign. -/
def assignment (read : Text → Option (Value × Text)) (t : Text) :
    Option ((List Text × Value) × Text) :=
  match path (t.length + 1) t with
  | some (ks, '=' :: rest) => (read (skipGaps rest)).map fun (v, rest) => ((ks, v), rest)
  | _ => none

/-- Reads the entries of a table between braces from one of them on. The number bounds how many
there are. -/
def tableEntries (read : Text → Option (Value × Text)) : Nat → Text →
    Option (List (List Text × Value) × Text)
  | 0, _ => none
  | n + 1, t =>
    match assignment read t with
    | none => none
    | some (entry, rest) =>
      match skipGaps rest with
      | ',' :: rest => (tableEntries read n rest).map fun (es, rest) => (entry :: es, rest)
      | '\x7d' :: rest => some ([entry], rest)
      | _ => none

/-- Whether no path of keys is also another one, or leads on from the value of another one. -/
def pathsApart : List (List Text) → Bool
  | [] => true
  | p :: ps => ps.all (fun q => !p.isPrefixOf q && !q.isPrefixOf p) && pathsApart ps

/-- **Reads a value** whose arrays and tables are nested at most `depth` deep. -/
def value : Nat → Text → Option (Value × Text)
  | depth, t =>
    match t with
    | '"' :: _ => (string t).map fun (s, rest) => (.string s, rest)
    | '\'' :: _ => (string t).map fun (s, rest) => (.string s, rest)
    | '[' :: rest =>
      match depth with
      | 0 => none
      | d + 1 => (items (value d) (rest.length + 1) rest).map fun (vs, rest) => (.array vs, rest)
    | '\x7b' :: rest =>
      match depth, skipGaps rest with
      | 0, _ => none
      | _ + 1, '\x7d' :: rest => some (.table [], rest)
      | d + 1, rest =>
        match tableEntries (value d) (rest.length + 1) rest with
        | some (es, rest) =>
          if pathsApart (es.map Prod.fst) then some (.table es, rest) else none
        | none => none
    | 't' :: 'r' :: 'u' :: 'e' :: rest => some (.boolean true, rest)
    | 'f' :: 'a' :: 'l' :: 's' :: 'e' :: rest => some (.boolean false, rest)
    | t => scalar t

/-! ## Documents -/

/-- Reads the header of a table, or of an item of an array of tables. -/
def header (t : Text) : Option (Entry × Text) :=
  match t with
  | '[' :: '[' :: t =>
    match path (t.length + 1) t with
    | some (ks, ']' :: ']' :: rest) => some (.header ks, rest)
    | _ => none
  | '[' :: t =>
    match path (t.length + 1) t with
    | some (ks, ']' :: rest) => some (.header ks, rest)
    | _ => none
  | _ => none

/-- Reads the entry that a line is. -/
def entry (t : Text) : Option (Entry × Text) :=
  match t with
  | '[' :: _ => header t
  | t => (assignment (value depthLimit) t).map fun ((ks, v), rest) => (.value ks v, rest)

/-- Reads all entries, each of which ends its line. The number bounds how many there are. -/
def entries : Nat → Text → Option (List Entry)
  | 0, _ => none
  | n + 1, t =>
    match skipFiller? t.length t with
    | none => none
    | some [] => some []
    | some t =>
      match entry t with
      | none => none
      | some (e, rest) =>
        match skipComment? (skipGaps rest) with
        | some [] => some [e]
        | some ('\n' :: rest) => (entries n rest).map (e :: ·)
        | _ => none

/-- A text without the mark of its byte order. -/
def dropByteOrderMark : Text → Text
  | '\uFEFF' :: t => t
  | t => t

/-- **The entries of a document.** -/
def read? (t : Text) : Option (List Entry) :=
  let t := dropByteOrderMark t.unifyLineEnds
  entries (t.length + 1) t

end Weave.Toml
