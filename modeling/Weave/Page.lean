import Weave.Bytes.Digest
import Weave.Chunk.Basic
import Weave.Failure

set_option autoImplicit false
set_option relaxedAutoImplicit false

/-!
# Pages

A page shows the prose of a source, and its code between fences. If the code is run, what comes of a
block follows it: an image, which is saved to a file of its own, or a text.

A block of code that extends over several chunks is run once, when its last chunk is reached. A
block that is still open at the last chunk of code ends there.

## Main definitions

* `Weave.Page.sections` — chunks, each with the code that is run after it.
* `Weave.Page.Shown` — what a page shows of a block that was run.
* `Weave.Page.imageName` — the name of the file of an image.
* `Weave.Page.ofChunks` — the page of a list of chunks whose code is not run.
* `Weave.Page.ofRunChunks` — the page of a list of chunks whose code is run.

## Main results

* `Weave.Page.map_chunk_sections` — the sections of a page are its chunks in order.
-/

namespace Weave.Page

variable {σ ν ε : Type}

/-! ## Sections -/

/-- A chunk and the code that is run after it. -/
structure Section where
  chunk : Chunk
  code? : Option Text
deriving DecidableEq, Repr

/-- **The sections of a page.** The first argument is the code of the chunks before, which is still
to be run. -/
def sections (pending : Text) : List Chunk → List Section
  | [] => []
  | .prose lines :: cs => { chunk := .prose lines, code? := none } :: sections pending cs
  | .code lines continuation :: cs =>
    let code := pending ++ Text.unrows lines ++ ['\n']
    if continuation = .terminated ∨ cs.all (fun c => !c.isCode) then
      { chunk := .code lines continuation, code? := some code.trimEnd } :: sections [] cs
    else { chunk := .code lines continuation, code? := none } :: sections code cs

/-- **The sections are the chunks** in order. -/
@[simp] theorem map_chunk_sections (pending : Text) (cs : List Chunk) :
    (sections pending cs).map Section.chunk = cs := by
  induction cs generalizing pending with
  | nil => rfl
  | cons c cs ih =>
    cases c with
    | prose lines => simp [sections, ih]
    | code lines continuation =>
      simp only [sections]
      split <;> simp [ih]

/-! ## Results -/

/-- What a page shows of a block that was run. -/
inductive Shown where
  | nothing
  | image (mime : Mime) (payload : Payload)
  | markdown (t : Text)
  | plain (t : Text)
deriving DecidableEq, Repr

/-- The image of a value, of the kind that is preferred. -/
def imageOf? (shows : Mime → Option Payload) : Option (Mime × Payload) :=
  Mime.images.findSome? fun mime => (shows mime).map fun payload => (mime, payload)

/-- What is shown of a value: an image, or else a text. -/
def Shown.ofValue (shows : Mime → Option Payload) : Shown :=
  match imageOf? shows, shows .markdown, shows .plain with
  | some (mime, payload), _, _ => image mime payload
  | none, some (.text t), _ => markdown t
  | none, _, some (.text t) => plain t
  | none, _, _ => nothing

/-- **What is shown of a block**: its value, or else what it has written. -/
def Shown.ofBlock (sandbox : Sandbox σ ν ε) (done : Executed ν) : Shown :=
  match done.value? with
  | some v => ofValue (sandbox.shows v)
  | none => if done.output.trim = [] then nothing else plain done.output

/-- **The name of the file of an image**: the beginning of the digest of the code, so that a page
that is made again overwrites its own images. -/
def imageName (code : Text) (mime : Mime) : Text :=
  Bytes.hex (code.toBytes.digest.take 8) ++ mime.extension

/-- The lines between which a text is shown as it is. -/
def plainFence : Text :=
  "```".toList

/-- What is shown, as it stands on the page. -/
def Shown.text (code : Text) : Shown → Text
  | nothing => []
  | image mime _ => "\n![](".toList ++ imageName code mime ++ ")\n".toList
  | markdown t => '\n' :: t.trimEnd ++ ['\n']
  | plain t =>
    '\n' :: plainFence ++ '\n' :: t.trimEndBy (· == '\n') ++ '\n' :: plainFence ++ ['\n']

/-- Saves what is shown to a file, if it is an image. -/
def Shown.save {m : Type → Type} [Monad m] (write : Text → Bytes → m (Except FileFault Unit))
    (code : Text) : Shown → m (Except FileFault Unit)
  | image mime payload => write (imageName code mime) payload.bytes
  | _ => pure (.ok ())

/-- **Runs the code of sections**: what is shown of each of them, as it stands on the page. Images
are saved as soon as they are there. -/
def results {m : Type → Type} [Monad m] (write : Text → Bytes → m (Except FileFault Unit))
    (sandbox : Sandbox σ ν ε) : List Section → σ → m (Except (Failure ε) (List Text))
  | [], _ => pure (.ok [])
  | s :: rest, state =>
    match s.code? with
    | none => do
      let shown ← results write sandbox rest state
      return shown.map ([] :: ·)
    | some code =>
      match execute sandbox code state with
      | (.error fault, _) => pure (.error (.execution fault))
      | (.ok done, state) => do
        let shown := Shown.ofBlock sandbox done
        match ← shown.save write code with
        | .error fault => return .error (.file fault)
        | .ok () =>
          let more ← results write sandbox rest state
          return more.map (shown.text code :: ·)

/-! ## Pages -/

/-- What is added to the fence of a block that goes on. -/
def continuationMark : Text :=
  "; continued = true".toList

/-- A chunk as it stands on the page. -/
def chunkText (s : Settings) : Chunk → Text
  | .prose lines => Text.writeLines (lines.map ProseLine.plain)
  | .code lines continuation =>
    let mark := if continuation = .continued then continuationMark else []
    Text.writeLines ((s.fence.1 ++ mark) :: lines ++ [s.fence.2])

/-- What a page begins with if the documentation tool is told where it can be edited. -/
def header (s : Settings) : Text :=
  match s.documenter, s.editUrl? with
  | true, some url =>
    "```@meta\nEditURL = \"".toList ++ url ++ "\"\n```\n\n".toList
  | _, _ => []

/-- **Puts a page together** from its chunks and what is shown of each of them. -/
def assemble (s : Settings) (cs : List Chunk) (shown : List Text) : Text :=
  Text.endInOneLineFeed <|
    header s ++ (cs.zip shown).flatMap fun (c, t) => chunkText s c ++ t ++ ['\n']

/-- **The page of a list of chunks** whose code is not run. -/
def ofChunks (s : Settings) (cs : List Chunk) : Text :=
  assemble s cs (cs.map fun _ => [])

/-- **The page of a list of chunks** whose code is run, from a state of the sandbox. -/
def ofRunChunks {m : Type → Type} [Monad m] (write : Text → Bytes → m (Except FileFault Unit))
    (sandbox : Sandbox σ ν ε) (state : σ) (s : Settings) (cs : List Chunk) :
    m (Except (Failure ε) Text) := do
  let shown ← results write sandbox (sections [] cs) state
  return shown.map (assemble s cs)

end Weave.Page
