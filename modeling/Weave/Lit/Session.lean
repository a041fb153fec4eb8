import Weave.Lit.Evaluate
import Weave.Lit.Parser
import Weave.Sandbox

set_option autoImplicit false
set_option relaxedAutoImplicit false

/-!
# Sessions

A session runs one piece of code after another. Its variables last, and so do the displays that are
being captured.

## Main definitions

* `Weave.Lit.runProgram` — runs the statements of a program.
* `Weave.Lit.Session` — the state between two pieces of code.
* `Weave.Lit.Session.run` — runs a piece of code.
* `Weave.Lit.sandbox` — the language as a sandbox.
-/

namespace Weave.Lit

/-- What came of running statements: the last value or a fault, and the state in either case. -/
structure RanProgram where
  outcome : Except Fault Value
  vars : Variables
  effects : Effects

/-- The variables after a statement whose expression has a value. -/
def Statement.bind (s : Statement) (v : Value) (vars : Variables) : Variables :=
  match s with
  | assign _ name _ => vars.set name v
  | expression _ => vars

/-- Runs statements up to the first one that fails; `last` is the value of the statement before
them. -/
def runStatements (last : Value) : Program → Variables → Effects → RanProgram
  | [], vars, effects => { outcome := .ok last, vars, effects }
  | s :: rest, vars, effects =>
    match (evaluate vars 0 s.value).run effects with
    | (.ok v, effects) => runStatements v rest (s.bind v vars) effects
    | (.error fault, effects) => { outcome := .error fault, vars, effects }

/-- **Runs a program.** A program without statements has the unit value. -/
def runProgram (program : Program) (vars : Variables) (effects : Effects) : RanProgram :=
  runStatements .unit program vars effects

/-- Parses a code and runs it; a code that departs from the grammar has no effect. -/
def runCode (code : Text) (vars : Variables) (effects : Effects) : RanProgram :=
  match parse code with
  | .ok program => runProgram program vars effects
  | .error fault => { outcome := .error (.syntactic fault), vars, effects }

/-- The state between two pieces of code: the variables, and the displays captured so far, the
newest capture first. -/
structure Session where
  vars : Variables := []
  captures : List (List Bundle) := []

namespace Session

/-- Begins a capture. -/
def pushDisplay (s : Session) : Session :=
  { s with captures := [] :: s.captures }

/-- Ends the newest capture. -/
def popDisplay (s : Session) : Option (List Bundle) × Session :=
  (s.captures.head?, { s with captures := s.captures.tail })

/-- **Runs a piece of code.** What it displays goes to the newest capture. The unit value counts as
no value. -/
def run (code : Text) (s : Session) : Ran Session Value Fault :=
  let ran := runCode code s.vars { output := [], displays? := s.captures.head? }
  { outcome := ran.outcome.map fun v => if v.kind = .unit then none else some v
    output := ran.effects.output.toBytes
    state := {
      vars := ran.vars
      captures := ran.effects.displays?.toList ++ s.captures.tail } }

end Session

/-- **The language as a sandbox.** -/
def sandbox : Sandbox Session Value Fault where
  pushDisplay := Session.pushDisplay
  popDisplay := Session.popDisplay
  run := Session.run
  shows := Value.shows
  faultMessage := Fault.message

end Weave.Lit
