import Weave.Failure
import Weave.Json.Reader
import Weave.Text.Blank

set_option autoImplicit false
set_option relaxedAutoImplicit false

/-!
# Heads of cells

The first line of a chunk can be the head of a cell: two percent signs, and then a label, the kind
of the cell in brackets, and an object of metadata, each of which can be left out.

## Main definitions

* `Weave.Notebook.CellHeader` — what the head of a cell says.
* `Weave.Notebook.CellHeader.ofLine?` — reads a line that is one.
* `Weave.Notebook.CellHeader.fitsKind` — whether the head agrees with the cell.
* `Weave.Notebook.CellHeader.metadata` — the metadata of the cell.
-/

namespace Weave.Notebook

/-- What the head of a cell says. -/
structure CellHeader where
  label? : Option Text
  kind? : Option CellKind
  data : Json.Fields

namespace CellHeader

variable {ε : Type}

/-- The kind that is declared in brackets. -/
def kindOf (head : Text) : Except (Failure ε) (Option CellKind) :=
  match head.dropWhile (· ≠ '[') with
  | [] => .ok none
  | _ :: rest =>
    if rest.contains ']' then
      let word := rest.takeWhile (· ≠ ']')
      match CellKind.ofName? word with
      | some kind => .ok (some kind)
      | none => .error (.configuration (.unknownKind word))
    else .error (.configuration (.unclosedKind head))

/-- The label, which stands before the brackets. -/
def labelOf (head : Text) : Option Text :=
  let label := Text.trim (head.takeWhile (· ≠ '['))
  if label = [] then none else some label

/-- The metadata that a payload writes; an empty payload writes none. -/
def dataOf (payload : Text) : Except (Failure ε) Json.Fields :=
  if payload = [] then .ok []
  else
    match Json.read? payload with
    | some (.object fields) => .ok (Json.canonicalFields fields)
    | _ => .error (.serialization (.cellMetadata payload))

/-- Reads what follows the percent signs. The payload begins at the first opening brace. -/
def ofBody (body : Text) : Except (Failure ε) CellHeader := do
  let head := Text.trim (body.takeWhile (· ≠ '\x7b'))
  let payload := Text.trim (body.dropWhile (· ≠ '\x7b'))
  let kind? ← kindOf head
  let data ← dataOf payload
  return { label? := labelOf head, kind?, data }

/-- **Reads the head of a cell**, if the line is one: two percent signs, with a blank after them
unless they end the line. -/
def ofLine? (line : Text) : Option (Except (Failure ε) CellHeader) :=
  match Text.stripPrefix? "%%".toList line.trimStart with
  | some rest => if rest = [] ∨ rest.startsBlank then some (ofBody rest.trim) else none
  | none => none

/-- Fails if another kind is declared than the cell is of. -/
def fitsKind (header : CellHeader) (actual : CellKind) : Except (Failure ε) Unit :=
  match header.kind? with
  | some declared =>
    if declared = actual then .ok ()
    else .error (.configuration (.conflictingKind declared actual))
  | none => .ok ()

/-- The metadata of a cell: the label is its name, unless the payload gives another one. -/
def metadata (header : CellHeader) : Json.Fields :=
  let name : Json.Fields := (header.label?.map fun l => ("name".toList, Json.string l)).toList
  Json.putAll header.data name

end CellHeader

end Weave.Notebook
