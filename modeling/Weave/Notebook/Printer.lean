import Weave.Json.Printer
import Weave.Notebook.Basic

set_option autoImplicit false
set_option relaxedAutoImplicit false

/-!
# Writing notebooks

## Main definitions

* `Weave.Notebook.toJson` — a notebook as JSON, its fields in their usual order.
* `Weave.Notebook.write` — a notebook as the text of a file.
-/

namespace Weave.Notebook

/-- A list of texts. -/
def ofTexts (ts : List Text) : Json :=
  .array (ts.map .string)

/-- A natural number. -/
def ofNatural (n : Nat) : Json :=
  .number (.natural n)

/-- An output as JSON. -/
def Output.toJson : Output → Json
  | stream name text =>
    .object [("output_type".toList, .string "stream".toList), ("name".toList, .string name),
      ("text".toList, ofTexts text)]
  | displayData data metadata =>
    .object [("output_type".toList, .string "display_data".toList), ("data".toList, .object data),
      ("metadata".toList, .object metadata)]
  | executeResult count data metadata =>
    .object [("output_type".toList, .string "execute_result".toList),
      ("execution_count".toList, ofNatural count), ("data".toList, .object data),
      ("metadata".toList, .object metadata)]

/-- A cell as JSON. -/
def Cell.toJson : Cell → Json
  | markdown metadata source =>
    .object [("cell_type".toList, .string CellKind.markdown.name),
      ("metadata".toList, .object metadata), ("source".toList, ofTexts source)]
  | code count? metadata outputs source =>
    .object [("cell_type".toList, .string CellKind.code.name),
      ("execution_count".toList, (count?.map ofNatural).getD .null),
      ("metadata".toList, .object metadata), ("outputs".toList, .array (outputs.map Output.toJson)),
      ("source".toList, ofTexts source)]

/-- **A notebook as JSON.** -/
def toJson (nb : Notebook) : Json :=
  .object [("cells".toList, .array (nb.cells.map Cell.toJson)),
    ("metadata".toList, .object nb.metadata), ("nbformat".toList, ofNatural nb.major),
    ("nbformat_minor".toList, ofNatural nb.minor)]

/-- **A notebook as the text of a file**, laid out on lines. -/
def write (nb : Notebook) : Text :=
  Json.layout 0 nb.toJson ++ ['\n']

end Weave.Notebook
