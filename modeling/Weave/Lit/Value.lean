import Weave.CommonMark.VisibleText
import Weave.Lit.Fault
import Weave.Mime
import Weave.Number.Shortest
import Weave.Text.Quoted

set_option autoImplicit false
set_option relaxedAutoImplicit false

/-!
# Values

What expressions of the scripting language evaluate to, and how values are written and shown.

## Main definitions

* `Weave.Lit.Value` — the values.
* `Weave.Lit.Value.text`, `Weave.Lit.Value.repr` — a value as it is printed, and as it stands for
  the result of a block.
* `Weave.Lit.Value.shows` — the representations of a value.
-/

namespace Weave.Lit

/-- A value. The three kinds of sources are texts that can be shown as what they describe. -/
inductive Value where
  | number (x : Float)
  | boolean (b : Bool)
  | string (t : Text)
  | unit
  | markdown (source : Text)
  | html (source : Text)
  | svg (source : Text)

/-- A number written with its shortest digits and without an exponent. Zero has no sign. -/
def writeNumber (x : Float) : Text :=
  let sign (negative : Bool) : Text := if negative then ['-'] else []
  match Binary64.ofFloat x with
  | .nan => "NaN".toList
  | .infinite negative => sign negative ++ "inf".toList
  | .finite negative m e =>
    if m = 0 then ['0'] else sign negative ++ (Decimal.shortest .upper m e).positional

namespace Value

/-- The kind of a value. -/
def kind : Value → Kind
  | number _ => .number
  | boolean _ => .boolean
  | string _ => .string
  | unit => .unit
  | markdown _ => .markdown
  | html _ => .html
  | svg _ => .svg

/-- Whether a value counts as true: all do but `false` and the unit value. -/
def isTruthy : Value → Bool
  | boolean b => b
  | unit => false
  | _ => true

/-- Whether two values are equal in the language: they are of one kind, and numbers are compared as
numbers. -/
def equals : Value → Value → Bool
  | number x, number y => x == y
  | boolean a, boolean b => a == b
  | string s, string t => s == t
  | unit, unit => true
  | markdown s, markdown t => s == t
  | html s, html t => s == t
  | svg s, svg t => s == t
  | _, _ => false

/-- The text that a string or a source consists of. -/
def source? : Value → Option Text
  | string t => some t
  | markdown t => some t
  | html t => some t
  | svg t => some t
  | _ => none

/-- A value as it is printed. -/
def text : Value → Text
  | number x => writeNumber x
  | boolean true => "true".toList
  | boolean false => "false".toList
  | string t => t
  | unit => "()".toList
  | markdown t => t
  | html t => t
  | svg t => t

/-- A value as it stands for the result of a block: strings are quoted, and of sources only what is
readable is left. -/
def repr : Value → Text
  | string t => t.quote
  | markdown t => CommonMark.visibleText t
  | svg t => "Svg(".toList ++ numeral t.byteSize ++ " bytes)".toList
  | v => v.text

/-- How a value is shown. The unit value is not shown at all. -/
def shows : Value → Mime → Option Payload
  | unit, _ => none
  | v, .plain => some (.text v.repr)
  | markdown t, .markdown => some (.text t)
  | html t, .html => some (.text t)
  | svg t, .svg => some (.text t)
  | _, _ => none

end Value

end Weave.Lit
