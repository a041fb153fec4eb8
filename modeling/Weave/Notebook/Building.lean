import Weave.Chunk.Basic
import Weave.Notebook.CellHeader

set_option autoImplicit false
set_option relaxedAutoImplicit false

/-!
# Building notebooks

Every chunk makes a cell. If its first line is the head of a cell, the line gives the metadata of
the cell and is no part of its source.

## Main definitions

* `Weave.Notebook.cellOfChunk` — the cell of a chunk.
* `Weave.Notebook.ofChunks` — the notebook of a list of chunks.
-/

namespace Weave.Notebook

variable {ε : Type}

/-- The kind of cell that a chunk makes. -/
def kindOfChunk : Chunk → CellKind
  | .prose _ => .markdown
  | .code _ _ => .code

/-- The lines of a chunk as they stand in a cell. -/
def linesOfChunk : Chunk → List Text
  | .prose lines => lines.map ProseLine.plain
  | .code lines _ => lines

/-- **The cell of a chunk.** -/
def cellOfChunk (c : Chunk) : Except (Failure ε) Cell :=
  let kind := kindOfChunk c
  match linesOfChunk c with
  | [] => .ok (.fresh kind [] [])
  | first :: rest =>
    match CellHeader.ofLine? first with
    | none => .ok (.fresh kind [] (sourceLines (first :: rest)))
    | some (.error e) => .error e
    | some (.ok header) =>
      match header.fitsKind kind with
      | .error e => .error e
      | .ok () => .ok (.fresh kind header.metadata (sourceLines rest))

/-- The cells of chunks; the first chunk that has none is what fails. -/
def cellsOfChunks : List Chunk → Except (Failure ε) (List Cell)
  | [] => .ok []
  | c :: cs =>
    match cellOfChunk c with
    | .error e => .error e
    | .ok cell =>
      match cellsOfChunks cs with
      | .error e => .error e
      | .ok cells => .ok (cell :: cells)

/-- **The notebook of a list of chunks.** -/
def ofChunks (s : Settings) (cs : List Chunk) : Except (Failure ε) Notebook :=
  (cellsOfChunks cs).map fun cells => { empty s with cells }

end Weave.Notebook
