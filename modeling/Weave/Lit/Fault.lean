import Weave.Lit.Token
import Weave.Text.Numeral

set_option autoImplicit false
set_option relaxedAutoImplicit false

/-!
# Faults

What can go wrong with a piece of code: it does not follow the grammar, or it fails while it is run.
Every fault points at a stretch of the code.

## Main definitions

* `Weave.Lit.SyntaxCause`, `Weave.Lit.SyntaxFault` — faults of the grammar.
* `Weave.Lit.RuntimeCause` — causes of failing.
* `Weave.Lit.Fault` — faults of both kinds, with their wording.
-/

namespace Weave.Lit

/-- What the grammar asks for at a place. -/
inductive Expected where
  | closingParen
  | conditionalColon
  | argumentEnd
deriving DecidableEq, Repr

/-- How code departs from the grammar. -/
inductive SyntaxCause where
  | unterminatedString
  | unknownEscape (c : Char)
  | invalidNumber (spelling : Text)
  | unexpectedCharacter (c : Char)
  /-- A character that is an operator only when it is doubled. -/
  | singleOperator (c : Char)
  | nestedTooDeeply
  | expected (what : Expected)
  | expectedBeforeEnd (what : Expected)
  | expectedEndOfStatement
  | endOfExpression
  | unexpectedToken (token : Token)

/-- A departure from the grammar and where it is. -/
structure SyntaxFault where
  cause : SyntaxCause
  span : Span

/-- The kinds of values. -/
inductive Kind where
  | number
  | boolean
  | string
  | unit
  | markdown
  | html
  | svg
deriving DecidableEq, Repr

/-- Why code fails while it is run. -/
inductive RuntimeCause where
  | wrongKind (expected got : Kind)
  /-- The operands of an addition do not go together. -/
  | unmatchedOperands (left right : Kind)
  | undefinedVariable (name : Text)
  | unknownFunction (name : Text)
  | wrongArity (name : Text) (expected got : Nat)
  | divisionByZero
  | stackOverflow
  /-- The code itself asks for a fault. -/
  | raised (message : Text)
deriving DecidableEq, Repr

/-- A fault of a piece of code. -/
inductive Fault where
  | syntactic (fault : SyntaxFault)
  | runtime (cause : RuntimeCause) (span : Span)

/-! ## Wording -/

/-- The name of a kind of values. -/
def Kind.name : Kind → Text
  | number => "Number".toList
  | boolean => "Boolean".toList
  | string => "String".toList
  | unit => "Unit".toList
  | markdown => "Markdown".toList
  | html => "Html".toList
  | svg => "Svg".toList

/-- The wording of what is asked for. -/
def Expected.describe : Expected → Text
  | closingParen => "')'".toList
  | conditionalColon => "':' in conditional expression".toList
  | argumentEnd => "',' or ')' in argument list".toList

/-- The wording of a departure from the grammar. -/
def SyntaxCause.message : SyntaxCause → Text
  | unterminatedString => "unterminated string literal".toList
  | unknownEscape c => "unknown escape sequence '\\".toList ++ [c, '\'']
  | invalidNumber spelling => "invalid number '".toList ++ spelling ++ ['\'']
  | unexpectedCharacter c => "unexpected character '".toList ++ [c, '\'']
  | singleOperator c => "unexpected character '".toList ++ [c, '\'']
  | nestedTooDeeply => "expression nested too deeply".toList
  | expected what => "expected ".toList ++ what.describe
  | expectedBeforeEnd what => "expected ".toList ++ what.describe ++ ", found end of input".toList
  | expectedEndOfStatement => "expected end of statement".toList
  | endOfExpression => "unexpected end of expression".toList
  | unexpectedToken token => "unexpected ".toList ++ token.describe

/-- What is added to the wording as advice. -/
def SyntaxCause.notes : SyntaxCause → List Text
  | singleOperator c => ["did you mean '".toList ++ [c, c] ++ "'?".toList]
  | _ => []

/-- The wording of a cause of failing. -/
def RuntimeCause.message : RuntimeCause → Text
  | wrongKind expected got =>
    "type error: expected ".toList ++ expected.name ++ ", got ".toList ++ got.name
  | unmatchedOperands left right =>
    "type error: expected matching numeric or string types, got ".toList ++ left.name ++
      " + ".toList ++ right.name
  | undefinedVariable name => "undefined variable: ".toList ++ name
  | unknownFunction name => "unknown function: ".toList ++ name
  | wrongArity name expected got =>
    name ++ " expects ".toList ++ numeral expected ++ " argument(s), got ".toList ++ numeral got
  | divisionByZero => "division by zero".toList
  | stackOverflow => "stack overflow".toList
  | raised message => message

namespace Fault

/-- The stretch of code that a fault points at. -/
def span : Fault → Span
  | syntactic fault => fault.span
  | runtime _ span => span

/-- The wording of a fault without its kind. -/
def headline : Fault → Text
  | syntactic fault => fault.cause.message
  | runtime cause _ => cause.message

/-- Advice on a fault. -/
def notes : Fault → List Text
  | syntactic fault => fault.cause.notes
  | runtime _ _ => []

/-- **The wording of a fault.** -/
def message : Fault → Text
  | syntactic fault => "parse error: ".toList ++ fault.cause.message
  | runtime cause _ => "runtime error: ".toList ++ cause.message

end Fault

end Weave.Lit
