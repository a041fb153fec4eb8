import Weave.Lit.Lexer
import Weave.Lit.Syntax

set_option autoImplicit false
set_option relaxedAutoImplicit false

/-!
# Parsing

Programs are read off the tokens of a code. Expressions are read by the strength with which
operators bind: an operand is followed by the operators that bind at least as strongly as the place
asks for, and each of them reads its right operand at a strength of its own.

Expressions may be nested to a limited depth. The depth that is left is what the recursion runs on;
everything that happens at one depth reads on along the tokens.

## Main definitions

* `Weave.Lit.expression` — reads an expression.
* `Weave.Lit.parse` — the program of a code.
-/

namespace Weave.Lit

/-- A departure from the grammar; without a stretch it is at the end of the code. -/
structure Misfit where
  cause : SyntaxCause
  span? : Option Span

/-- The result of reading something off the front of some tokens: what was read, and the tokens that
are left. -/
abbrev Reading (α : Type) := Except Misfit (α × List Placed)

/-- The stretch of the next token. -/
def here (ts : List Placed) : Option Span :=
  ts.head?.map Placed.span

/-! ## Operators -/

/-- The strength with which the conditional binds. -/
def conditionalStrength : Nat :=
  2

/-- The strength with which an operator before its operand binds. -/
def unaryStrength : Nat :=
  16

/-- The operator between operands that a token stands for. -/
def BinaryOp.ofToken? : Token → Option BinaryOp
  | .plus => some addition
  | .minus => some subtraction
  | .star => some multiplication
  | .slash => some division
  | .percent => some modulo
  | .eqEq => some equality
  | .bangEq => some inequality
  | .gt => some greaterThan
  | .lt => some lessThan
  | .gtEq => some greaterThanOrEqual
  | .ltEq => some lessThanOrEqual
  | .ampAmp => some logicalAnd
  | .pipePipe => some logicalOr
  | _ => none

/-- The strength with which an operator between operands binds. Its right operand binds more
strongly, so that it groups to the left. -/
def BinaryOp.strength : BinaryOp → Nat
  | logicalOr => 4
  | logicalAnd => 6
  | equality => 8
  | inequality => 8
  | greaterThan => 10
  | lessThan => 10
  | greaterThanOrEqual => 10
  | lessThanOrEqual => 10
  | addition => 12
  | subtraction => 12
  | multiplication => 14
  | division => 14
  | modulo => 14

/-! ## Parts of an expression -/

/-- Reads a token of which `accepts` holds; the grammar asks for it as `what`. -/
def expect (accepts : Token → Bool) (what : Expected) : List Placed → Reading Span
  | [] => .error { cause := .expectedBeforeEnd what, span? := none }
  | t :: ts =>
    if accepts t.token then .ok (t.span, ts)
    else .error { cause := .expected what, span? := some t.span }

/-- Whether the token is a closing parenthesis. -/
def isRParen : Token → Bool
  | .rParen => true
  | _ => false

/-- Whether the token is a colon. -/
def isColon : Token → Bool
  | .colon => true
  | _ => false

/-- Reads the arguments of a call from one of them on, up to the closing parenthesis, whose end is
also returned. The number bounds how many there are. -/
def argumentList (sub : Nat → List Placed → Reading Expr) : Nat → List Placed →
    Reading (List Expr × Nat)
  | 0, _ => .error { cause := .endOfExpression, span? := none }
  | n + 1, ts =>
    match sub 0 ts with
    | .error e => .error e
    | .ok (argument, rest) =>
      match rest with
      | ⟨.comma, _⟩ :: rest =>
        match argumentList sub n rest with
        | .error e => .error e
        | .ok ((more, stop), rest) => .ok ((argument :: more, stop), rest)
      | rest =>
        match expect isRParen .argumentEnd rest with
        | .error e => .error e
        | .ok (close, rest) => .ok (([argument], close.stop), rest)

/-- Reads what follows a name that stands where an expression begins: nothing, or the arguments of a
call. -/
def afterName (sub : Nat → List Placed → Reading Expr) (name : Text) (span : Span) :
    List Placed → Reading Expr
  | ⟨.unit, close⟩ :: ts => .ok (.call ⟨span.start, close.stop⟩ name [], ts)
  | ⟨.lParen, _⟩ :: ⟨.rParen, close⟩ :: ts => .ok (.call ⟨span.start, close.stop⟩ name [], ts)
  | ⟨.lParen, _⟩ :: ts =>
    match argumentList sub (ts.length + 1) ts with
    | .error e => .error e
    | .ok ((arguments, stop), rest) => .ok (.call ⟨span.start, stop⟩ name arguments, rest)
  | ts => .ok (.ident span name, ts)

/-- Reads an operator before its operand. -/
def unaryOperand (sub : Nat → List Placed → Reading Expr) (op : UnaryOp) (span : Span)
    (ts : List Placed) : Reading Expr :=
  match sub unaryStrength ts with
  | .error e => .error e
  | .ok (operand, rest) => .ok (.unary ⟨span.start, operand.span.stop⟩ op operand, rest)

/-- Reads an expression in parentheses from after the opening one. -/
def parenthesized (sub : Nat → List Placed → Reading Expr) (span : Span) :
    List Placed → Reading Expr
  | ⟨.rParen, close⟩ :: ts => .ok (.unit ⟨span.start, close.stop⟩, ts)
  | ts =>
    match sub 0 ts with
    | .error e => .error e
    | .ok (inner, rest) =>
      match expect isRParen .closingParen rest with
      | .error e => .error e
      | .ok (close, rest) => .ok (inner.withSpan ⟨span.start, close.stop⟩, rest)

/-- Reads an operand: whatever an expression begins with, up to the first operator after it. -/
def operand (sub : Nat → List Placed → Reading Expr) : List Placed → Reading Expr
  | [] => .error { cause := .endOfExpression, span? := none }
  | ⟨token, span⟩ :: ts =>
    match token with
    | .number x => .ok (.number span x, ts)
    | .string t => .ok (.string span t, ts)
    | .true => .ok (.boolean span true, ts)
    | .false => .ok (.boolean span false, ts)
    | .unit => .ok (.unit span, ts)
    | .ident name => afterName sub name span ts
    | .bang => unaryOperand sub .logicalNot span ts
    | .minus => unaryOperand sub .negation span ts
    | .lParen => parenthesized sub span ts
    | token => .error { cause := .unexpectedToken token, span? := some span }

/-- Reads the branches of a conditional from after the question mark. -/
def branches (sub : Nat → List Placed → Reading Expr) (condition : Expr) (ts : List Placed) :
    Reading Expr :=
  match sub 0 ts with
  | .error e => .error e
  | .ok (yes, rest) =>
    match expect isColon .conditionalColon rest with
    | .error e => .error e
    | .ok (_, rest) =>
      match sub conditionalStrength rest with
      | .error e => .error e
      | .ok (no, rest) =>
        .ok (.conditional ⟨condition.span.start, no.span.stop⟩ condition yes no, rest)

/-- Reads the right operand of an operator. -/
def rightOperand (sub : Nat → List Placed → Reading Expr) (op : BinaryOp) (left : Expr)
    (ts : List Placed) : Reading Expr :=
  match sub (op.strength + 1) ts with
  | .error e => .error e
  | .ok (right, rest) => .ok (.binary ⟨left.span.start, right.span.stop⟩ op left right, rest)

/-- Reads on after an operand, as long as operators follow that bind at least as strongly as
`strength`. The number bounds how many there are. -/
def operators (sub : Nat → List Placed → Reading Expr) (strength : Nat) :
    Nat → Expr → List Placed → Reading Expr
  | 0, left, ts => .ok (left, ts)
  | _ + 1, left, [] => .ok (left, [])
  | n + 1, left, t :: ts =>
    match t.token with
    | .question =>
      if conditionalStrength < strength then .ok (left, t :: ts)
      else
        match branches sub left ts with
        | .error e => .error e
        | .ok (left, rest) => operators sub strength n left rest
    | token =>
      match BinaryOp.ofToken? token with
      | none => .ok (left, t :: ts)
      | some op =>
        if op.strength < strength then .ok (left, t :: ts)
        else
          match rightOperand sub op left ts with
          | .error e => .error e
          | .ok (left, rest) => operators sub strength n left rest

/-- **Reads an expression** whose operators bind at least as strongly as `strength`, if the depth
that is left allows it. -/
def expression : Nat → Nat → List Placed → Reading Expr
  | 0, _, ts => .error { cause := .nestedTooDeeply, span? := here ts }
  | depth + 1, strength, ts =>
    match operand (expression depth) ts with
    | .error e => .error e
    | .ok (left, rest) => operators (expression depth) strength rest.length left rest

/-! ## Statements -/

/-- Reads a statement. -/
def statement (ts : List Placed) : Reading Statement :=
  match ts with
  | ⟨.ident name, span⟩ :: ⟨.eq, _⟩ :: rest =>
    match expression depthLimit 0 rest with
    | .error e => .error e
    | .ok (value, rest) => .ok (.assign ⟨span.start, value.span.stop⟩ name value, rest)
  | ts =>
    match expression depthLimit 0 ts with
    | .error e => .error e
    | .ok (value, rest) => .ok (.expression value, rest)

/-- The tokens from the first one on that does not end a statement. -/
def skipSeparators (ts : List Placed) : List Placed :=
  ts.dropWhile fun t => t.token.isSeparator

/-- Reads all statements. The number bounds how many there are. -/
def statements : Nat → List Placed → Except Misfit Program
  | 0, _ => .ok []
  | n + 1, ts =>
    match skipSeparators ts with
    | [] => .ok []
    | ts =>
      match statement ts with
      | .error e => .error e
      | .ok (s, []) => .ok [s]
      | .ok (s, t :: rest) =>
        if t.token.isSeparator then
          match statements n (t :: rest) with
          | .error e => .error e
          | .ok more => .ok (s :: more)
        else .error { cause := .expectedEndOfStatement, span? := some t.span }

/-- **The program of a code.** -/
def parse (code : Text) : Except SyntaxFault Program :=
  match tokenize code with
  | .error f => .error f
  | .ok ts =>
    match statements ts.length ts with
    | .ok program => .ok program
    | .error m =>
      let stop := Text.byteSize code
      .error { cause := m.cause, span := m.span?.getD ⟨stop, stop⟩ }

end Weave.Lit
