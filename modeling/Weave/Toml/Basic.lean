import Weave.Number.Power
import Weave.Text.Lines
import Weave.Text.Numeral

set_option autoImplicit false
set_option relaxedAutoImplicit false

/-!
# TOML

A document is a list of entries, as they are written: values with the path of keys that leads to
them, and the headers of tables. Numbers and dates are kept as they are spelled.

## Main definitions

* `Weave.Toml.Value`, `Weave.Toml.Entry` — values and entries.
* `Weave.Toml.isNumber`, `Weave.Toml.isDateTime` — the spellings of numbers and of dates.
-/

namespace Weave.Toml

/-- A value. -/
inductive Value where
  | string (t : Text)
  | boolean (b : Bool)
  | number (spelling : Text)
  | dateTime (spelling : Text)
  | array (items : List Value)
  | table (entries : List (List Text × Value))

/-- An entry of a document. -/
inductive Entry where
  | value (path : List Text) (v : Value)
  | header (path : List Text)

/-! ## Numbers -/

/-- Whether a text is made up of digits, with single underscores between some of them. -/
def isDigits (digit : Char → Bool) (t : Text) : Bool :=
  (Text.fields '_' t).all fun part => part != [] && part.all digit

/-- A text without a sign at its beginning. -/
def dropSign : Text → Text
  | '+' :: t => t
  | '-' :: t => t
  | t => t

/-- Whether a text is a natural number in base ten, without zeros before it. -/
def isNatural (t : Text) : Bool :=
  isDigits isDigit t && (t.length == 1 || t.head? != some '0')

/-- The value of digits in a base, underscores aside. -/
def digitsValue (base : Nat) (t : Text) : Nat :=
  t.foldl (fun n c => match hexValue? c with | some d => n * base + d | none => n) 0

/-- Whether a text is an integer of 64 bits. -/
def isInteger (t : Text) : Bool :=
  let fits (base : Nat) (digit : Char → Bool) (digits : Text) : Bool :=
    isDigits digit digits && digitsValue base digits < twoTo 63
  match t with
  | '0' :: 'x' :: digits => fits 16 (fun c => (hexValue? c).isSome) digits
  | '0' :: 'o' :: digits => fits 8 (fun c => '0' ≤ c && c ≤ '7') digits
  | '0' :: 'b' :: digits => fits 2 (fun c => c == '0' || c == '1') digits
  | t =>
    let limit := if t.head? = some '-' then twoTo 63 else twoTo 63 - 1
    isNatural (dropSign t) && digitsValue 10 (dropSign t) ≤ limit

/-- Whether a text is a number with a fraction or an exponent, or one of the special ones. -/
def isFloat (t : Text) : Bool :=
  let body := dropSign t
  let mantissa := body.takeWhile fun c => c != 'e' && c != 'E'
  let exponent := body.drop mantissa.length
  let whole := mantissa.takeWhile (· != '.')
  let fraction := mantissa.drop whole.length
  body == "inf".toList || body == "nan".toList ||
    (isNatural whole && (fraction == [] || isDigits isDigit (fraction.drop 1)) &&
      (exponent == [] || isDigits isDigit (dropSign (exponent.drop 1))) &&
      !(fraction == [] && exponent == []))

/-- Whether a text spells a number. -/
def isNumber (t : Text) : Bool :=
  isInteger t || isFloat t

/-! ## Dates -/

/-- The numbers that the fields of a text are, if each has the given width. -/
def fieldsOfWidth? (mark : Char) (widths : List Nat) (t : Text) : Option (List Nat) :=
  let parts := Text.fields mark t
  if parts.map List.length = widths ∧ parts.all (·.all isDigit) then some (parts.map numeralValue)
  else none

/-- Whether a text is a day. -/
def isDate (t : Text) : Bool :=
  match fieldsOfWidth? '-' [4, 2, 2] t with
  | some [year, month, day] =>
    let leap := year % 4 == 0 && (year % 100 != 0 || year % 400 == 0)
    let days :=
      if month == 2 then if leap then 29 else 28
      else if month == 4 || month == 6 || month == 9 || month == 11 then 30
      else 31
    1 ≤ month && month ≤ 12 && 1 ≤ day && day ≤ days
  | _ => false

/-- Whether a text is a time of the day. -/
def isTime (t : Text) : Bool :=
  let whole := t.takeWhile (· != '.')
  let fraction := t.drop whole.length
  (fraction == [] || (fraction.length > 1 && (fraction.drop 1).all isDigit)) &&
    match fieldsOfWidth? ':' [2, 2, 2] whole with
    | some [hour, minute, second] => hour ≤ 23 && minute ≤ 59 && second ≤ 60
    | _ => false

/-- Whether a text is the distance to universal time. -/
def isOffset (t : Text) : Bool :=
  match t with
  | ['Z'] => true
  | ['z'] => true
  | c :: t =>
    (c == '+' || c == '-') &&
      match fieldsOfWidth? ':' [2, 2] t with
      | some [hour, minute] => hour ≤ 23 && minute ≤ 59
      | _ => false
  | [] => false

/-- Whether a text is a time of the day, or one with the distance to universal time. -/
def isTimeWithOffset (t : Text) : Bool :=
  let time := t.takeWhile fun c => isDigit c || c == ':' || c == '.'
  let offset := t.drop time.length
  isTime time && (offset == [] || isOffset offset)

/-- Whether a text spells a day, a time of the day, or both. -/
def isDateTime (t : Text) : Bool :=
  let day := t.take 10
  match t.drop 10 with
  | [] => isDate t || isTime t
  | c :: time =>
    isTime t || (isDate day && (c == 'T' || c == 't' || c == ' ') && isTimeWithOffset time)

end Weave.Toml
