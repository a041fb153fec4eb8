import Weave.Json.Number

set_option autoImplicit false
set_option relaxedAutoImplicit false

/-!
# Writing JSON

A value is written either compactly, on one line, or laid out with every item and every field on a
line of its own, indented by one blank for each level.

## Main definitions

* `Weave.Json.writeString` — a string between quotation marks.
* `Weave.Json.compact` — a value on one line.
* `Weave.Json.layout` — a value laid out on lines.
-/

namespace Weave.Json

/-- A character inside a string. Control characters have a short escape or are written by their
number. -/
def stringChar (c : Char) : Text :=
  match c with
  | '"' => "\\\"".toList
  | '\\' => "\\\\".toList
  | '\x08' => "\\b".toList
  | '\x0c' => "\\f".toList
  | '\n' => "\\n".toList
  | '\r' => "\\r".toList
  | '\t' => "\\t".toList
  | c => if c.toNat < 0x20 then "\\u".toList ++ hexNumeralOfWidth 4 c.toNat else [c]

/-- A string between quotation marks. -/
def writeString (t : Text) : Text :=
  '"' :: t.flatMap stringChar ++ ['"']

/-- The words for the truth values. -/
def writeBool : Bool → Text
  | true => "true".toList
  | false => "false".toList

mutual

/-- **A value on one line**, without blanks. -/
def compact : Json → Text
  | null => "null".toList
  | bool b => writeBool b
  | number n => n.write
  | string t => writeString t
  | array items => '[' :: compactItems items ++ [']']
  | object fields => '\x7b' :: compactFields fields ++ ['\x7d']

/-- Items with commas between them. -/
def compactItems : List Json → Text
  | [] => []
  | [v] => compact v
  | v :: vs => compact v ++ ',' :: compactItems vs

/-- Fields with commas between them. -/
def compactFields : Fields → Text
  | [] => []
  | [(k, v)] => writeString k ++ ':' :: compact v
  | (k, v) :: fs => writeString k ++ ':' :: (compact v ++ ',' :: compactFields fs)

end

/-- A line feed, and the indentation of a line at a level. -/
def newLine (level : Nat) : Text :=
  '\n' :: List.replicate level ' '

mutual

/-- **A value laid out on lines**, its inner lines one level deeper than `level`. Empty arrays and
objects stay on their line. -/
def layout (level : Nat) : Json → Text
  | null => "null".toList
  | bool b => writeBool b
  | number n => n.write
  | string t => writeString t
  | array items =>
    if items.isEmpty then "[]".toList
    else '[' :: newLine (level + 1) ++ layoutItems (level + 1) items ++ newLine level ++ [']']
  | object fields =>
    if fields.isEmpty then "\x7b\x7d".toList
    else
      '\x7b' :: newLine (level + 1) ++ layoutFields (level + 1) fields ++ newLine level ++ ['\x7d']

/-- Items on lines of their own. -/
def layoutItems (level : Nat) : List Json → Text
  | [] => []
  | [v] => layout level v
  | v :: vs => layout level v ++ ',' :: newLine level ++ layoutItems level vs

/-- Fields on lines of their own. -/
def layoutFields (level : Nat) : Fields → Text
  | [] => []
  | [(k, v)] => writeString k ++ ": ".toList ++ layout level v
  | (k, v) :: fs =>
    writeString k ++ ": ".toList ++ layout level v ++ ',' :: newLine level ++ layoutFields level fs

end

end Weave.Json
