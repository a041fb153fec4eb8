import Weave.Json.Basic
import Weave.Settings

set_option autoImplicit false
set_option relaxedAutoImplicit false

/-!
# Notebooks

A notebook is a list of cells. Only cells of code have outputs and are numbered when they are run.

## Main definitions

* `Weave.Notebook`, `Weave.Notebook.Cell`, `Weave.Notebook.Output` — notebooks and their parts.
* `Weave.Notebook.empty` — a notebook without cells.
* `Weave.Notebook.sourceLines` — the source of a cell from its lines.
-/

namespace Weave

/-- What came of running a cell. -/
inductive Notebook.Output where
  /-- What was written. -/
  | stream (name : Text) (text : List Text)
  /-- What was displayed. -/
  | displayData (data metadata : Json.Fields)
  /-- The value of the cell. -/
  | executeResult (count : Nat) (data metadata : Json.Fields)

/-- The kinds of cells. -/
inductive Notebook.CellKind where
  | markdown
  | code
deriving DecidableEq, Repr

/-- A cell. Its source is a list of lines, which keep their line feeds. -/
inductive Notebook.Cell where
  | markdown (metadata : Json.Fields) (source : List Text)
  | code (count? : Option Nat) (metadata : Json.Fields) (outputs : List Notebook.Output)
    (source : List Text)

/-- A notebook, with the version of its format. -/
structure Notebook where
  cells : List Notebook.Cell
  metadata : Json.Fields
  major : Nat
  minor : Nat

namespace Notebook

namespace CellKind

/-- The name of a kind of cells. -/
def name : CellKind → Text
  | markdown => "markdown".toList
  | code => "code".toList

/-- The kind with a name. -/
def ofName? (t : Text) : Option CellKind :=
  if t = markdown.name then some markdown
  else if t = code.name then some code
  else none

/-- A text names a kind of cell if it is the name of this kind. -/
theorem ofName?_eq_some_iff {t : Text} {k : CellKind} : ofName? t = some k ↔ t = k.name := by
  constructor
  · intro h
    unfold ofName? at h
    split at h
    next ht => cases h; exact ht
    next =>
      split at h
      next ht => cases h; exact ht
      next => cases h
  · rintro rfl
    cases k <;> decide

end CellKind

namespace Cell

/-- Whether a cell holds code. -/
def isCode : Cell → Bool
  | markdown _ _ => false
  | code _ _ _ _ => true

/-- The lines of a cell. -/
def source : Cell → List Text
  | markdown _ source => source
  | code _ _ _ source => source

/-- The outputs of a cell. -/
def outputs : Cell → List Output
  | markdown _ _ => []
  | code _ _ outputs _ => outputs

/-- A cell that was not run yet. -/
def fresh (kind : CellKind) (metadata : Json.Fields) (source : List Text) : Cell :=
  match kind with
  | .markdown => markdown metadata source
  | .code => code none metadata [] source

end Cell

/-- The cells that hold code. -/
def codeCells (nb : Notebook) : List Cell :=
  nb.cells.filter Cell.isCode

/-- What a notebook says of the language of its code. -/
def languageMetadata (language : Text) : Json.Fields :=
  [("kernelspec".toList, .object
      [("display_name".toList, .string language), ("language".toList, .string language),
        ("name".toList, .string language)]),
    ("language_info".toList, .object
      [("file_extension".toList, .string ('.' :: language)),
        ("mimetype".toList, .string ("text/x-".toList ++ language)),
        ("name".toList, .string language)])]

/-- **A notebook without cells.** -/
def empty (s : Settings) : Notebook where
  cells := []
  metadata := languageMetadata s.language
  major := 4
  minor := 2

/-- The source of a cell from its lines: every line but the last gets a line feed. -/
def sourceLines : List Text → List Text
  | [] => []
  | [l] => [l]
  | l :: ls => (l ++ ['\n']) :: sourceLines ls

/-- **The source** reads as the lines with line feeds between them. -/
theorem flatten_sourceLines (ls : List Text) :
    (sourceLines ls).flatten = List.intercalate ['\n'] ls := by
  induction ls with
  | nil => rfl
  | cons l ls ih =>
    cases ls with
    | nil => simp [sourceLines, List.intercalate]
    | cons m ls => simpa [sourceLines, List.intercalate] using ih

end Notebook

end Weave
