import Weave.Chunk.Cut
import Weave.Chunk.Normalize
import Weave.Filter
import Weave.Notebook.Building
import Weave.Notebook.Execution
import Weave.Page
import Weave.Script

set_option autoImplicit false
set_option relaxedAutoImplicit false

/-!
# Artifacts

From a source to what is made of it: the text is filtered and cut into chunks, and these are put
together for the target.

## Main definitions

* `Weave.Hooks` — what is done to the source before, and to the artifact afterwards.
* `Weave.prepare` — the chunks of a source for a target.
* `Weave.script`, `Weave.page`, `Weave.notebook` — the artifacts of a source.
-/

namespace Weave

/-- What is done to the source before, and to the artifact afterwards. -/
structure Hooks where
  preprocess : Text → Text := id
  postprocess : Text → Text := id
  postprocessNotebook : Notebook → Notebook := id

/-- The prose that credits the tool. -/
def credit : Target → Text
  | .script => "# This file was generated using literate.".toList
  | .markdown => "# ---\n#\n# *This page was generated using literate.*".toList
  | .notebook => "# *This notebook was generated using literate.*".toList

/-- A source with the credit in a chunk of its own at the end, if it is asked for. -/
def addCredit (target : Target) (s : Settings) (source : Text) : Text :=
  if s.credit then source ++ "\n#-\n".toList ++ credit target ++ ['\n'] else source

/-- **The chunks of a source** for a target. -/
def prepare (target : Target) (s : Settings) (hooks : Hooks) (source : Text) : List Chunk :=
  let text := filter target s (addCredit target s (hooks.preprocess source))
  Chunk.normalize (!target.allowsContinuation) (Chunk.cut target.allowsContinuation text)

/-- **The script of a source.** -/
def script (s : Settings) (hooks : Hooks) (source : Text) : Text :=
  hooks.postprocess (Script.ofChunks s.keepComments (prepare .script s hooks source))

/-- **The page of a source.** If its code is run, images are saved by `write`. -/
def page {σ ν ε : Type} {m : Type → Type} [Monad m]
    (write : Text → Bytes → m (Except FileFault Unit)) (sandbox : Sandbox σ ν ε) (state : σ)
    (s : Settings) (hooks : Hooks) (source : Text) : m (Except (Failure ε) Text) := do
  let cs := prepare .markdown s hooks source
  if s.executesFor .markdown then
    let text ← Page.ofRunChunks write sandbox state s cs
    return text.map hooks.postprocess
  else return .ok (hooks.postprocess (Page.ofChunks s cs))

/-- Runs a notebook that is to be run as a whole. -/
def runNotebook {σ ν ε : Type} (sandbox : Sandbox σ ν ε) (state : σ) (nb : Notebook) :
    Except (Failure ε) Notebook :=
  match nb.run sandbox state with
  | (some fault, _) => .error (.execution fault)
  | (none, nb) => .ok nb

/-- **The notebook of a source.** -/
def notebook {σ ν ε : Type} (sandbox : Sandbox σ ν ε) (state : σ) (s : Settings) (hooks : Hooks)
    (source : Text) : Except (Failure ε) Notebook := do
  let nb ← Notebook.ofChunks s (prepare .notebook s hooks source)
  let nb ← if s.executesFor .notebook then runNotebook sandbox state nb else .ok nb
  return hooks.postprocessNotebook nb

end Weave
