import Weave.Lit.Syntax
import Weave.Lit.Value

set_option autoImplicit false
set_option relaxedAutoImplicit false

/-!
# Evaluation

An expression is evaluated with the variables as they are; only statements change them. What it
writes and displays is kept even when it fails.

## Main definitions

* `Weave.Lit.Variables` — the variables and their values.
* `Weave.Lit.Effects` — what was written and displayed.
* `Weave.Lit.Builtin` — the functions of the language.
* `Weave.Lit.evaluate` — the value of an expression.

## Main results

* `Weave.Lit.Variables.get?_set` — what a variable holds after one was set.
-/

namespace Weave.Lit

/-! ## Variables -/

/-- The variables and their values, every name once. -/
abbrev Variables := List (Text × Value)

namespace Variables

/-- The value of a variable. -/
def get? (name : Text) : Variables → Option Value
  | [] => none
  | (n, v) :: rest => if n = name then some v else get? name rest

/-- The variables with one of them set. -/
def set (name : Text) (value : Value) : Variables → Variables
  | [] => [(name, value)]
  | (n, v) :: rest => if n = name then (name, value) :: rest else (n, v) :: set name value rest

/-- **Setting a variable** changes that one alone. -/
theorem get?_set (name other : Text) (value : Value) (vs : Variables) :
    get? other (set name value vs) = if name = other then some value else get? other vs := by
  induction vs with
  | nil => rfl
  | cons entry rest ih =>
    obtain ⟨n, v⟩ := entry
    by_cases hn : n = name <;> by_cases ho : name = other <;> grind [get?, set]

end Variables

/-! ## Effects -/

/-- What was written, and what was displayed if displays are captured. -/
structure Effects where
  output : Text
  displays? : Option (List Bundle)

/-- A computation that has effects and may fail. -/
abbrev Effectful (ε α : Type) := ExceptT ε (StateM Effects) α

/-- Writes a text. -/
def write {ε : Type} (t : Text) : Effectful ε Unit :=
  modify fun e => { e with output := e.output ++ t }

/-- Displays a value: it is captured with all its representations, or written if displays are not
captured. The unit value is not captured. -/
def showValue {ε : Type} (v : Value) : Effectful ε Unit :=
  modify fun e =>
    match e.displays? with
    | none => { e with output := e.output ++ v.repr ++ ['\n'] }
    | some shown =>
      if v.kind = .unit then e
      else { e with displays? := some (shown ++ [Bundle.of v.shows]) }

/-- Places the faults of a computation. -/
def locate {α : Type} (span : Span) (c : Effectful RuntimeCause α) : Effectful Fault α :=
  ExceptT.adapt (fun cause => Fault.runtime cause span) c

/-- Places the fault of an operation without effects. -/
def settle {α : Type} (span : Span) : Except RuntimeCause α → Effectful Fault α
  | .ok a => pure a
  | .error cause => throw (.runtime cause span)

/-! ## Functions -/

/-- The functions of the language. -/
inductive Builtin where
  | print
  | printLine
  | display
  | markdown
  | html
  | svg
  | string
  | length
  | error
deriving DecidableEq, Repr

namespace Builtin

/-- The function with a name. Standard output and standard errors are one stream. -/
def ofName? (name : Text) : Option Builtin :=
  if name = "print".toList then some print
  else if name = "println".toList then some printLine
  else if name = "eprintln".toList then some printLine
  else if name = "display".toList then some display
  else if name = "md".toList then some markdown
  else if name = "html".toList then some html
  else if name = "svg".toList then some svg
  else if name = "string".toList then some string
  else if name = "len".toList then some length
  else if name = "error".toList then some error
  else none

end Builtin

/-- The texts of values one after another. -/
def joinTexts (args : List Value) : Text :=
  args.flatMap Value.text

/-- The argument of a function that takes one. -/
def single (name : Text) : List Value → Effectful RuntimeCause Value
  | [v] => pure v
  | args => throw (.wrongArity name 1 args.length)

/-- The text of a string that is the argument of a function. -/
def singleString (name : Text) (args : List Value) : Effectful RuntimeCause Text := do
  match ← single name args with
  | .string t => return t
  | v => throw (.wrongKind .string v.kind)

/-- What a function does with its arguments; `name` is what it was called by. -/
def Builtin.apply (f : Builtin) (name : Text) (args : List Value) :
    Effectful RuntimeCause Value := do
  match f with
  | print =>
    write (joinTexts args)
    return .unit
  | printLine =>
    write (joinTexts args ++ ['\n'])
    return .unit
  | display =>
    showValue (← single name args)
    return .unit
  | markdown => return .markdown (← singleString name args)
  | html => return .html (← singleString name args)
  | svg => return .svg (← singleString name args)
  | string => return .string (joinTexts args)
  | length =>
    let v ← single name args
    match v.source? with
    | some t => return .number (Float.ofNat t.length)
    | none => throw (.wrongKind .string v.kind)
  | error => throw (.raised (← single name args).text)

/-- Calls the function with a name. -/
def call (name : Text) (args : List Value) : Effectful RuntimeCause Value :=
  match Builtin.ofName? name with
  | some f => f.apply name args
  | none => throw (.unknownFunction name)

/-! ## Operators -/

/-- The number that a value has to be. -/
def asNumber : Value → Except RuntimeCause Float
  | .number x => .ok x
  | v => .error (.wrongKind .number v.kind)

/-- Two numbers, the left one checked first. -/
def asNumbers (left right : Value) : Except RuntimeCause (Float × Float) := do
  let x ← asNumber left
  let y ← asNumber right
  return (x, y)

/-- An operation on numbers. -/
def arithmetic (f : Float → Float → Float) (left right : Value) : Except RuntimeCause Value := do
  let (x, y) ← asNumbers left right
  return .number (f x y)

/-- An operation on numbers of which the second must not be zero. -/
def dividing (f : Float → Float → Float) (left right : Value) : Except RuntimeCause Value := do
  let (x, y) ← asNumbers left right
  if y == 0.0 then throw .divisionByZero
  return .number (f x y)

/-- A comparison of numbers. -/
def comparison (f : Float → Float → Bool) (left right : Value) : Except RuntimeCause Value := do
  let (x, y) ← asNumbers left right
  return .boolean (f x y)

/-- Numbers are added, and strings are put together. -/
def addition : Value → Value → Except RuntimeCause Value
  | .number x, .number y => .ok (.number (x + y))
  | .string s, .string t => .ok (.string (s ++ t))
  | left, right => .error (.unmatchedOperands left.kind right.kind)

namespace UnaryOp

/-- The value of an operation on one value. -/
def apply : UnaryOp → Value → Except RuntimeCause Value
  | negation, v => do return .number (-(← asNumber v))
  | logicalNot, v => .ok (.boolean (!v.isTruthy))

end UnaryOp

namespace BinaryOp

/-- The value of an operation on two values. -/
def apply : BinaryOp → Value → Value → Except RuntimeCause Value
  | addition, l, r => Lit.addition l r
  | subtraction, l, r => arithmetic (· - ·) l r
  | multiplication, l, r => arithmetic (· * ·) l r
  | division, l, r => dividing (· / ·) l r
  | modulo, l, r => dividing Binary64.remainder l r
  | equality, l, r => .ok (.boolean (l.equals r))
  | inequality, l, r => .ok (.boolean (!l.equals r))
  | greaterThan, l, r => comparison (· > ·) l r
  | lessThan, l, r => comparison (· < ·) l r
  | greaterThanOrEqual, l, r => comparison (· ≥ ·) l r
  | lessThanOrEqual, l, r => comparison (· ≤ ·) l r
  | logicalAnd, l, r => .ok (.boolean (l.isTruthy && r.isTruthy))
  | logicalOr, l, r => .ok (.boolean (l.isTruthy || r.isTruthy))

/-- The value of an operation that the left operand alone decides. -/
def decided? : BinaryOp → Value → Option Value
  | logicalAnd, l => if l.isTruthy then none else some (.boolean false)
  | logicalOr, l => if l.isTruthy then some (.boolean true) else none
  | _, _ => none

end BinaryOp

/-! ## Expressions -/

/-- A computation for an expression that stands at a depth: it fails at once if the depth is too
great. -/
def within (depth : Nat) (span : Span) (c : Effectful Fault Value) : Effectful Fault Value :=
  if depth > depthLimit then throw (.runtime .stackOverflow span) else c

mutual

/-- **The value of an expression** that stands at a depth. -/
def evaluate (vars : Variables) (depth : Nat) : Expr → Effectful Fault Value
  | .number span x => within depth span (pure (.number x))
  | .string span t => within depth span (pure (.string t))
  | .boolean span b => within depth span (pure (.boolean b))
  | .unit span => within depth span (pure .unit)
  | .ident span name => within depth span <|
    match vars.get? name with
    | some v => pure v
    | none => throw (.runtime (.undefinedVariable name) span)
  | .unary span op operand => within depth span do
    let v ← evaluate vars (depth + 1) operand
    settle span (op.apply v)
  | .binary span op left right => within depth span do
    let l ← evaluate vars (depth + 1) left
    match op.decided? l with
    | some v => pure v
    | none =>
      let r ← evaluate vars (depth + 1) right
      settle span (op.apply l r)
  | .conditional span condition yes no => within depth span do
    let c ← evaluate vars (depth + 1) condition
    if c.isTruthy then evaluate vars (depth + 1) yes
    else evaluate vars (depth + 1) no
  | .call span name arguments => within depth span do
    let args ← evaluateAll vars (depth + 1) arguments
    locate span (call name args)

/-- The values of expressions, evaluated from left to right. -/
def evaluateAll (vars : Variables) (depth : Nat) : List Expr → Effectful Fault (List Value)
  | [] => pure []
  | e :: es => do
    let v ← evaluate vars depth e
    let vs ← evaluateAll vars depth es
    return v :: vs

end

end Weave.Lit
