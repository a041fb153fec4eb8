import Weave.Json.Reader
import Weave.Json.Record
import Weave.Notebook.Basic
import Weave.Number.Power

set_option autoImplicit false
set_option relaxedAutoImplicit false

/-!
# Reading notebooks

## Main definitions

* `Weave.Notebook.read?` — the notebook that a text holds.
-/

namespace Weave.Notebook

/-- The numbers of 64 bits. -/
def countBound : Nat :=
  twoTo 64

/-- The numbers of 32 bits. -/
def versionBound : Nat :=
  twoTo 32

/-- The kinds of outputs. -/
inductive OutputKind where
  | stream
  | displayData
  | executeResult

/-- The kind of outputs that a tag names, or gives the number of. -/
def OutputKind.ofTag? : Json → Option OutputKind
  | .string t =>
    if t = "stream".toList then some stream
    else if t = "display_data".toList then some displayData
    else if t = "execute_result".toList then some executeResult
    else none
  | .number (.natural 0) => some stream
  | .number (.natural 1) => some displayData
  | .number (.natural 2) => some executeResult
  | _ => none

/-- Reads an output. -/
def Output.ofJson? (j : Json) : Option Output := do
  let (tag, body) ← j.tagged? "output_type".toList
  match ← OutputKind.ofTag? tag with
  | .stream =>
    match ← body.parts? ["name".toList, "text".toList] with
    | [some name, some text] => return stream (← name.text?) (← text.texts?)
    | _ => none
  | .displayData =>
    match ← body.parts? ["data".toList, "metadata".toList] with
    | [some data, some metadata] => return displayData (← data.map?) (← metadata.map?)
    | _ => none
  | .executeResult =>
    match ← body.parts? ["execution_count".toList, "data".toList, "metadata".toList] with
    | [some count, some data, some metadata] =>
      return executeResult (← count.natural? countBound) (← data.map?) (← metadata.map?)
    | _ => none

/-- Reads all outputs of a cell. -/
def outputsOfJson? : Json → Option (List Output)
  | .array items => items.mapM Output.ofJson?
  | _ => none

/-- Reads the number of a cell, which may be missing or null. -/
def countOfJson? : Option Json → Option (Option Nat)
  | none => some none
  | some .null => some none
  | some j => (j.natural? countBound).map some

/-- Reads a cell. -/
def Cell.ofJson? (j : Json) : Option Cell := do
  let (tag, body) ← j.tagged? "cell_type".toList
  match ← CellKind.ofName? (← tag.text?) with
  | .markdown =>
    match ← body.parts? ["metadata".toList, "source".toList] with
    | [some metadata, some source] => return markdown (← metadata.map?) (← source.texts?)
    | _ => none
  | .code =>
    match ← body.parts?
        ["execution_count".toList, "metadata".toList, "outputs".toList, "source".toList] with
    | [count?, some metadata, some outputs, some source] =>
      return code (← countOfJson? count?) (← metadata.map?) (← outputsOfJson? outputs)
        (← source.texts?)
    | _ => none

/-- Reads the cells of a notebook. -/
def cellsOfJson? : Json → Option (List Cell)
  | .array items => items.mapM Cell.ofJson?
  | _ => none

/-- The names of the parts of a notebook. -/
def partNames : List Text :=
  ["cells".toList, "metadata".toList, "nbformat".toList, "nbformat_minor".toList]

/-- Reads a notebook. -/
def ofJson? (j : Json) : Option Notebook := do
  match ← j.parts? partNames with
  | [some cells, some metadata, some major, some minor] =>
    return {
      cells := ← cellsOfJson? cells
      metadata := ← metadata.map?
      major := ← major.natural? versionBound
      minor := ← minor.natural? versionBound }
  | _ => none

/-- The JSON of a text that holds a notebook. Fields that are no part of a notebook are only
skimmed. -/
def jsonOf? (t : Text) : Option Json :=
  match Json.readFields? partNames.contains t with
  | some fields => some (.object fields)
  | none => Json.read? t

/-- **The notebook that a text holds.** -/
def read? (t : Text) : Option Notebook :=
  (jsonOf? t).bind ofJson?

end Weave.Notebook
