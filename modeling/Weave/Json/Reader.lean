import Weave.Json.Number

set_option autoImplicit false
set_option relaxedAutoImplicit false

/-!
# Reading JSON

A reader takes what it reads off the front of a text and returns the rest. Arrays and objects may
be nested to a limited depth. A part of a text whose value is of no interest can be skimmed: it has
to follow the grammar, but its numbers may have any size, its strings may hold halves of surrogate
pairs, and its depth is not limited.

## Main definitions

* `Weave.Json.value` — reads a value.
* `Weave.Json.read?` — the value of a whole text.
* `Weave.Json.readFields?` — the fields of a whole text that holds an object, only the wanted ones
  being read and the others skimmed.
-/

namespace Weave.Json

/-- How a part of a text is read: for its value, or only for its extent. -/
inductive Care where
  | full
  | skim
deriving DecidableEq, Repr

/-- How deep arrays and objects may be nested. -/
def depthLimit : Nat :=
  127

/-- The characters that may stand between the parts of a JSON text. -/
def isJsonBlank (c : Char) : Bool :=
  c == ' ' || c == '\n' || c == '\t' || c == '\r'

/-- The text after the blanks at its beginning. -/
def skipBlanks (t : Text) : Text :=
  t.dropWhile isJsonBlank

/-! ## Strings -/

/-- The number that four hexadecimal digits write. -/
def codeUnit? (a b c d : Char) : Option Nat := do
  let a ← hexValue? a
  let b ← hexValue? b
  let c ← hexValue? c
  let d ← hexValue? d
  return ((a * 16 + b) * 16 + c) * 16 + d

/-- The character that an escape of one letter stands for. -/
def shortEscape? : Char → Option Char
  | '"' => some '"'
  | '\\' => some '\\'
  | '/' => some '/'
  | 'b' => some '\x08'
  | 'f' => some '\x0c'
  | 'n' => some '\n'
  | 'r' => some '\r'
  | 't' => some '\t'
  | _ => none

/-- The first halves of surrogate pairs. -/
def isHighSurrogate (n : Nat) : Bool :=
  0xd800 ≤ n && n < 0xdc00

/-- The second halves of surrogate pairs. -/
def isLowSurrogate (n : Nat) : Bool :=
  0xdc00 ≤ n && n < 0xe000

/-- Puts a character before the text that was read. -/
def consRead (c : Char) (read : Option (Text × Text)) : Option (Text × Text) :=
  read.map fun (t, rest) => (c :: t, rest)

/-- Reads a string from after its opening quotation mark. -/
def stringBody (care : Care) : Text → Option (Text × Text)
  | [] => none
  | c :: t =>
    if c = '"' then some ([], t)
    else if c = '\\' then
      match t with
      | 'u' :: a :: b :: c :: d :: t =>
        match codeUnit? a b c d with
        | none => none
        | some n =>
          if care = .skim then stringBody care t
          else if isHighSurrogate n then
            match t with
            | '\\' :: 'u' :: a :: b :: c :: d :: t =>
              match codeUnit? a b c d with
              | none => none
              | some m =>
                if isLowSurrogate m then
                  consRead (Char.ofNat (0x10000 + (n - 0xd800) * 1024 + (m - 0xdc00)))
                    (stringBody care t)
                else none
            | _ => none
          else if isLowSurrogate n then none
          else consRead (Char.ofNat n) (stringBody care t)
      | e :: t =>
        match shortEscape? e with
        | none => none
        | some c => consRead c (stringBody care t)
      | [] => none
    else if c.toNat < 0x20 then none
    else consRead c (stringBody care t)

/-! ## Numbers -/

/-- Takes the digits off the front of a text. -/
def takeDigits (t : Text) : Text × Text :=
  (t.takeWhile isDigit, t.dropWhile isDigit)

/-- Reads the fraction of a number, if one follows; a point needs a digit after it. -/
def fractionPart (t : Text) : Option (Option Text × Text) :=
  match t with
  | '.' :: t =>
    let (digits, rest) := takeDigits t
    if digits = [] then none else some (some digits, rest)
  | t => some (none, t)

/-- Reads the exponent of a number, if one follows. -/
def exponentPart (t : Text) : Option (Option (Bool × Text) × Text) :=
  match t with
  | c :: t =>
    if c = 'e' ∨ c = 'E' then
      let (minus, t) :=
        match t with
        | '+' :: t => (false, t)
        | '-' :: t => (true, t)
        | t => (false, t)
      let (digits, rest) := takeDigits t
      if digits = [] then none else some (some (minus, digits), rest)
    else some (none, c :: t)
  | [] => some (none, [])

/-- Reads the parts of a number. Its integer part does not begin with a zero unless it is zero. -/
def numeralParts (t : Text) : Option (Numeral × Text) := do
  let (negative, t) :=
    match t with
    | '-' :: t => (true, t)
    | t => (false, t)
  let (whole, t) := takeDigits t
  if whole = [] ∨ (whole.length > 1 ∧ whole.head? = some '0') then none
  else
    let (fraction, t) ← fractionPart t
    let (exponent, t) ← exponentPart t
    return ({ negative, whole, fraction, exponent }, t)

/-- Reads a number. -/
def numberValue (care : Care) (t : Text) : Option (Json × Text) := do
  let (parts, rest) ← numeralParts t
  match care with
  | .skim => return (.null, rest)
  | .full => return (.number (← parts.value?), rest)

/-! ## Values -/

/-- Reads the items of an array from one of them on, up to the closing bracket. The number bounds
how many there are. -/
def items (read : Text → Option (Json × Text)) : Nat → Text → Option (List Json × Text)
  | 0, _ => none
  | n + 1, t =>
    match read t with
    | none => none
    | some (v, rest) =>
      match skipBlanks rest with
      | ']' :: rest => some ([v], rest)
      | ',' :: rest => (items read n rest).map fun (vs, rest) => (v :: vs, rest)
      | _ => none

/-- Reads an array from after its opening bracket. -/
def arrayBody (read : Text → Option (Json × Text)) (t : Text) : Option (List Json × Text) :=
  match skipBlanks t with
  | ']' :: rest => some ([], rest)
  | rest => items read (rest.length + 1) rest

/-- Reads the fields of an object from one of them on, up to the closing brace. The value of a field
is read by the reader for its key. -/
def fieldList (care : Care) (read : Text → Text → Option (Json × Text)) :
    Nat → Text → Option (Fields × Text)
  | 0, _ => none
  | n + 1, t =>
    match skipBlanks t with
    | '"' :: t =>
      match stringBody care t with
      | none => none
      | some (key, rest) =>
        match skipBlanks rest with
        | ':' :: rest =>
          match read key rest with
          | none => none
          | some (v, rest) =>
            match skipBlanks rest with
            | '\x7d' :: rest => some ([(key, v)], rest)
            | ',' :: rest =>
              (fieldList care read n rest).map fun (fs, rest) => ((key, v) :: fs, rest)
            | _ => none
        | _ => none
    | _ => none

/-- Reads an object from after its opening brace. -/
def objectBody (care : Care) (read : Text → Text → Option (Json × Text)) (t : Text) :
    Option (Fields × Text) :=
  match skipBlanks t with
  | '\x7d' :: rest => some ([], rest)
  | rest => fieldList care read (rest.length + 1) rest

/-- Reads `word`, which stands for `v`. -/
def literal (word : Text) (v : Json) (t : Text) : Option (Json × Text) :=
  (Text.stripPrefix? word t).map fun rest => (v, rest)

/-- **Reads a value** whose arrays and objects are nested at most `depth` deep. -/
def value (care : Care) : Nat → Text → Option (Json × Text)
  | depth, t =>
    match skipBlanks t with
    | '"' :: rest => (stringBody care rest).map fun (s, rest) => (.string s, rest)
    | '[' :: rest =>
      match depth with
      | 0 => none
      | d + 1 => (arrayBody (value care d) rest).map fun (vs, rest) => (.array vs, rest)
    | '\x7b' :: rest =>
      match depth with
      | 0 => none
      | d + 1 =>
        (objectBody care (fun _ => value care d) rest).map fun (fs, rest) => (.object fs, rest)
    | 't' :: rest => literal "rue".toList (.bool true) rest
    | 'f' :: rest => literal "alse".toList (.bool false) rest
    | 'n' :: rest => literal "ull".toList .null rest
    | rest => numberValue care rest

/-- What was read, if only blanks are left of the text. -/
def whole? {α : Type} (read : Option (α × Text)) : Option α :=
  match read with
  | some (v, rest) => if skipBlanks rest = [] then some v else none
  | none => none

/-- **The value of a whole text.** -/
def read? (t : Text) : Option Json :=
  whole? (value .full depthLimit t)

/-- Reads the value of a field if its key is wanted, and skims it if it is not. -/
def wantedValue (wanted : Text → Bool) (key t : Text) : Option (Json × Text) :=
  if wanted key then value .full (depthLimit - 1) t else value .skim t.length t

/-- **The fields of an object** that makes up a whole text. The values of fields that are not wanted
are skimmed. -/
def readFields? (wanted : Text → Bool) (t : Text) : Option Fields :=
  match skipBlanks t with
  | '\x7b' :: rest => whole? (objectBody .full (wantedValue wanted) rest)
  | _ => none

end Weave.Json
