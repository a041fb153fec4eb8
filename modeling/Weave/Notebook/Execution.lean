import Weave.Bytes.Base64
import Weave.Notebook.Basic
import Weave.Sandbox

set_option autoImplicit false
set_option relaxedAutoImplicit false

/-!
# Running notebooks

The cells of code are run one after another, in one sandbox. A cell that was run is numbered and
holds what came of it; a cell that faults stays as it was, and so do the cells after it.

## Main definitions

* `Weave.Notebook.bundleData` — the representations of a value as a notebook holds them.
* `Weave.Notebook.runCells` — runs cells.
* `Weave.Notebook.run` — runs a notebook.
-/

namespace Weave.Notebook

variable {σ ν ε : Type}

/-- A representation as a notebook holds it: bytes in base 64, and a text as a string or, for the
kinds that are read by lines, as a list of its lines. -/
def payloadData (mime : Mime) : Payload → Json
  | .binary bytes => .string bytes.base64
  | .text t => if mime.isLineSplit then .array (t.pieces.map .string) else .string t

/-- **The representations of a value** as a notebook holds them. -/
def bundleData (bundle : Bundle) : Json.Fields :=
  Json.putAll (bundle.map fun (mime, payload) => (mime.name, payloadData mime payload)) []

/-- The outputs of the cell with a number. -/
def outputsOf (sandbox : Sandbox σ ν ε) (count : Nat) (done : Executed ν) : List Output :=
  let streams :=
    if done.output = [] then [] else [Output.stream "stdout".toList done.output.pieces]
  let displays := done.displays.map fun bundle => Output.displayData (bundleData bundle) []
  let results := done.value?.toList.map fun v =>
    Output.executeResult count (bundleData (Bundle.of (sandbox.shows v))) []
  streams ++ displays ++ results

/-- What came of running cells: the fault of the cell that was not run to its end, the cells, and
the state afterwards. -/
structure RanCells (σ ε : Type) where
  fault? : Option (BlockFault ε)
  cells : List Cell
  state : σ

/-- **Runs cells**, of which the first one of code gets the number `count + 1`. -/
def runCells (sandbox : Sandbox σ ν ε) (count : Nat) : List Cell → σ → RanCells σ ε
  | [], state => { fault? := none, cells := [], state }
  | .markdown metadata source :: cells, state =>
    let ran := runCells sandbox count cells state
    { ran with cells := .markdown metadata source :: ran.cells }
  | .code count? metadata outputs source :: cells, state =>
    match execute sandbox source.flatten state with
    | (.error fault, state) =>
      { fault? := some fault, cells := .code count? metadata outputs source :: cells, state }
    | (.ok done, state) =>
      let outputs := outputsOf sandbox (count + 1) done
      let ran := runCells sandbox (count + 1) cells state
      { ran with cells := .code (some (count + 1)) metadata outputs source :: ran.cells }

/-- **Runs a notebook** from a state of the sandbox: the notebook afterwards, and the fault that the
run stopped at. -/
def run (sandbox : Sandbox σ ν ε) (nb : Notebook) (state : σ) : Option (BlockFault ε) × Notebook :=
  let ran := runCells sandbox 0 nb.cells state
  (ran.fault?, { nb with cells := ran.cells })

end Weave.Notebook
