import Weave.Text.Utf8

set_option autoImplicit false
set_option relaxedAutoImplicit false

/-!
# Tokens

The tokens of the scripting language, and the stretches of code that they come from.

## Main definitions

* `Weave.Lit.Span` — a stretch of code, as offsets in bytes.
* `Weave.Lit.Token` — the tokens.
* `Weave.Lit.Placed` — a token with the stretch that it comes from.
-/

namespace Weave.Lit

/-- The stretch of code from one offset up to another, counted in bytes. -/
structure Span where
  start : Nat
  stop : Nat
deriving DecidableEq, Repr

/-- The tokens of the language. -/
inductive Token where
  | number (x : Float)
  | string (t : Text)
  | true
  | false
  /-- The two parentheses of the unit value, without anything between them. -/
  | unit
  | ident (name : Text)
  | plus
  | minus
  | star
  | slash
  | percent
  | eq
  | eqEq
  | bangEq
  | gt
  | lt
  | gtEq
  | ltEq
  | ampAmp
  | pipePipe
  | bang
  | question
  | colon
  | comma
  | lParen
  | rParen
  /-- The end of a statement: a semicolon, or a line feed outside of parentheses. -/
  | separator

/-- A token and the stretch of code that it comes from. -/
structure Placed where
  token : Token
  span : Span

namespace Token

/-- Whether the token ends a statement. -/
def isSeparator : Token → Bool
  | separator => Bool.true
  | _ => Bool.false

/-- A token as it is named when it stands where it should not. -/
def describe : Token → Text
  | number _ => "token Number".toList
  | string _ => "token StringLit".toList
  | true => "token True".toList
  | false => "token False".toList
  | unit => "token Unit".toList
  | ident _ => "token Ident".toList
  | plus => "token Plus".toList
  | minus => "token Minus".toList
  | star => "token Star".toList
  | slash => "token Slash".toList
  | percent => "token Percent".toList
  | eq => "'='".toList
  | eqEq => "token EqEq".toList
  | bangEq => "token BangEq".toList
  | gt => "token Gt".toList
  | lt => "token Lt".toList
  | gtEq => "token GtEq".toList
  | ltEq => "token LtEq".toList
  | ampAmp => "token AmpAmp".toList
  | pipePipe => "token PipePipe".toList
  | bang => "token Bang".toList
  | question => "token Question".toList
  | colon => "token Colon".toList
  | comma => "token Comma".toList
  | lParen => "token LParen".toList
  | rParen => "')'".toList
  | separator => "end of statement".toList

end Token

end Weave.Lit
