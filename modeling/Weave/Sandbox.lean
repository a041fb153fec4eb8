import Weave.Mime
import Weave.Text.Blank
import Weave.Text.Lines

set_option autoImplicit false
set_option relaxedAutoImplicit false

/-!
# Running blocks of code

Blocks of code are run in a sandbox, whose state lasts from one block to the next. While a block is
run, what it asks to be displayed is captured. The value of a block is left out if its code ends in
a semicolon.

## Main definitions

* `Weave.Sandbox` — what is asked of a sandbox.
* `Weave.execute` — runs one block of code.
* `Weave.endsWithSemicolon` — whether code ends in a semicolon, comments aside.
-/

namespace Weave

/-- The outcome of running code: a value, if there is one, or a fault; what was written meanwhile;
and the state afterwards. -/
structure Ran (σ ν ε : Type) where
  outcome : Except ε (Option ν)
  output : Bytes
  state : σ

/-- A code without its comment: what stands before the first hash outside of a string. -/
def stripComment (inString escaped : Bool) : Text → Text
  | [] => []
  | c :: t =>
    if escaped then c :: stripComment inString false t
    else if c = '\\' ∧ inString then c :: stripComment inString true t
    else if c = '"' then c :: stripComment (!inString) false t
    else if c = '#' ∧ !inString then []
    else c :: stripComment inString false t

/-- Whether the last line of a code that is more than a comment ends in a semicolon. Every line is
read as if it began outside of a string. -/
def endsWithSemicolon (code : Text) : Bool :=
  let bare := (Text.lines code).map fun line => Text.trimEnd (stripComment false false line)
  match bare.reverse.find? (· ≠ []) with
  | some line => Text.endsWith [';'] line
  | none => false

/-- A sandbox with states `σ`, values `ν` and faults `ε`. Its displays are a stack. -/
structure Sandbox (σ ν ε : Type) where
  /-- Captures what is displayed from now on, beginning with nothing. -/
  pushDisplay : σ → σ
  /-- Ends the newest capture and returns what it holds. -/
  popDisplay : σ → Option (List Bundle) × σ
  /-- Runs a code. -/
  run : Text → σ → Ran σ ν ε
  /-- How a value is shown. -/
  shows : ν → Mime → Option Payload
  /-- The wording of a fault. -/
  faultMessage : ε → Text
  /-- Whether the value of a code is left out. -/
  suppresses : σ → Text → Bool := fun _ => endsWithSemicolon

/-- What came of a block of code. -/
structure Executed (ν : Type) where
  /-- What was written, standard output and errors together. -/
  output : Text
  /-- The value, unless there is none or it is left out. -/
  value? : Option ν
  /-- What was displayed, in order. -/
  displays : List Bundle

/-- A block of code that faulted. -/
structure BlockFault (ε : Type) where
  code : Text
  cause : ε

/-- The wording of a fault of a block, with its code. -/
def BlockFault.message {σ ν ε : Type} (sandbox : Sandbox σ ν ε) (fault : BlockFault ε) : Text :=
  sandbox.faultMessage fault.cause ++
    "\nwhen executing the following code block\n\n```\n".toList ++ fault.code ++ "\n```".toList

/-- **Runs one block of code**, capturing what it displays. -/
def execute {σ ν ε : Type} (sandbox : Sandbox σ ν ε) (code : Text) (state : σ) :
    Except (BlockFault ε) (Executed ν) × σ :=
  let ran := sandbox.run code (sandbox.pushDisplay state)
  let (displays, state) := sandbox.popDisplay ran.state
  match ran.outcome with
  | .error cause => (.error { code, cause }, state)
  | .ok value? =>
    (.ok {
      output := Text.ofBytesReplacing ran.output
      value? := if sandbox.suppresses state code then none else value?
      displays := displays.getD [] }, state)

end Weave
