import Weave.Lit.Token

set_option autoImplicit false
set_option relaxedAutoImplicit false

/-!
# Programs

The trees that code stands for. Every expression and every statement keeps the stretch of code that
it comes from.

## Main definitions

* `Weave.Lit.Expr` — expressions.
* `Weave.Lit.Statement`, `Weave.Lit.Program` — statements, and programs as lists of them.
-/

namespace Weave.Lit

/-- How deep expressions may be nested, when they are read and when they are evaluated. -/
def depthLimit : Nat :=
  256

/-- The operators before an operand. -/
inductive UnaryOp where
  | negation
  | logicalNot
deriving DecidableEq, Repr

/-- The operators between operands. -/
inductive BinaryOp where
  | addition
  | subtraction
  | multiplication
  | division
  | modulo
  | equality
  | inequality
  | greaterThan
  | lessThan
  | greaterThanOrEqual
  | lessThanOrEqual
  | logicalAnd
  | logicalOr
deriving DecidableEq, Repr

/-- An expression. -/
inductive Expr where
  | number (span : Span) (x : Float)
  | string (span : Span) (t : Text)
  | boolean (span : Span) (b : Bool)
  | unit (span : Span)
  | ident (span : Span) (name : Text)
  | unary (span : Span) (op : UnaryOp) (operand : Expr)
  | binary (span : Span) (op : BinaryOp) (left right : Expr)
  | conditional (span : Span) (condition yes no : Expr)
  | call (span : Span) (name : Text) (arguments : List Expr)

namespace Expr

/-- The stretch of code that an expression comes from. -/
def span : Expr → Span
  | number span _ => span
  | string span _ => span
  | boolean span _ => span
  | unit span => span
  | ident span _ => span
  | unary span _ _ => span
  | binary span _ _ _ => span
  | conditional span _ _ _ => span
  | call span _ _ => span

/-- The same expression, coming from another stretch of code. -/
def withSpan (new : Span) : Expr → Expr
  | number _ x => number new x
  | string _ t => string new t
  | boolean _ b => boolean new b
  | unit _ => unit new
  | ident _ name => ident new name
  | unary _ op operand => unary new op operand
  | binary _ op left right => binary new op left right
  | conditional _ condition yes no => conditional new condition yes no
  | call _ name arguments => call new name arguments

end Expr

/-- A statement. -/
inductive Statement where
  | assign (span : Span) (name : Text) (value : Expr)
  | expression (value : Expr)

namespace Statement

/-- The expression of a statement. -/
def value : Statement → Expr
  | assign _ _ value => value
  | expression value => value

/-- The stretch of code that a statement comes from. -/
def span : Statement → Span
  | assign span _ _ => span
  | expression value => value.span

end Statement

/-- A program: its statements in their order. -/
abbrev Program := List Statement

end Weave.Lit
