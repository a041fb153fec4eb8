import Weave.Notebook.Printer
import Weave.Notebook.Reader
import Weave.Proofs.Json.Records

set_option autoImplicit false
set_option relaxedAutoImplicit false

/-!
# Notebooks that are written and read

A notebook that is written as the text of a file is read again as it was, if its numbers are
integers of 64 bits and it is not nested deeper than the reader goes.

## Main definitions

* `Weave.Notebook.maps` — the metadata and the data of a notebook.
* `Weave.Notebook.WellFormed` — what holds of every notebook that can be made.

## Main results

* `Weave.Notebook.Output.ofJson?_toJson`, `Weave.Notebook.Cell.ofJson?_toJson`,
  `Weave.Notebook.ofJson?_toJson` — a notebook and its parts are read from their JSON.
* `Weave.Notebook.read?_write` — a notebook is read from the text that it is written as.
-/

namespace Weave.Notebook

open Json (isIntegral_array_iff isIntegral_object_iff map?_object)

/-- The maps of an output. -/
def Output.maps : Output → List Json.Fields
  | stream _ _ => []
  | displayData data metadata => [data, metadata]
  | executeResult _ data metadata => [data, metadata]

/-- The maps of a cell and of its outputs. -/
def Cell.maps : Cell → List Json.Fields
  | markdown metadata _ => [metadata]
  | code _ metadata outputs _ => metadata :: outputs.flatMap Output.maps

/-- **The maps of a notebook**: its metadata, and the metadata and the data of its parts. -/
def maps (nb : Notebook) : List Json.Fields :=
  nb.metadata :: nb.cells.flatMap Cell.maps

/-- **What holds of every notebook** that can be made: its metadata and data are maps, which keep
their keys in order and every key once, as are all objects in them, and the numbers of its version
have 32 bits. -/
structure WellFormed (nb : Notebook) : Prop where
  ordered : ∀ map ∈ nb.maps, (Json.object map).isOrdered = true
  major_lt : nb.major < versionBound
  minor_lt : nb.minor < versionBound

/-! ## Texts and numbers -/

/-- A list of texts that is written can be read. -/
lemma texts?_ofTexts (ts : List Text) : (ofTexts ts).texts? = some ts :=
  mapM_map_eq_some fun _ _ => rfl

/-- A natural number that is written can be read, if it is in bounds. -/
lemma natural?_ofNatural {n bound : Nat} (h : n < bound) : (ofNatural n).natural? bound = some n :=
  if_pos h

/-- A number that is written as an integer of 64 bits is one. -/
lemma lt_countBound_of_isIntegral {n : Nat} (h : (ofNatural n).isIntegral = true) :
    n < countBound := by
  have hle : n ≤ Json.maxWord := of_decide_eq_true h
  exact Nat.lt_of_le_of_lt hle (by decide)

/-! ## Outputs -/

/-- **An output** is read from its JSON.

**Proof sketch.** By the kind of the output. Each field is read from its own JSON: texts by
`texts?_ofTexts`, maps as they are ordered, and the count as it is within its bound. -/
lemma Output.ofJson?_toJson {o : Output} (ho : o.toJson.isIntegral = true)
    (hmaps : ∀ map ∈ o.maps, (Json.object map).isOrdered = true) :
    Output.ofJson? o.toJson = some o := by
  cases o with
  | stream name text =>
    have hparts : Output.ofJson? (stream name text).toJson =
        (ofTexts text).texts?.bind fun text => some (stream name text) := rfl
    rw [hparts, texts?_ofTexts]
    rfl
  | displayData data metadata =>
    have hparts : Output.ofJson? (displayData data metadata).toJson =
        (Json.object data).map?.bind fun data => (Json.object metadata).map?.bind fun metadata =>
          some (displayData data metadata) := rfl
    rw [hparts, map?_object (hmaps data (by simp [maps])),
      map?_object (hmaps metadata (by simp [maps]))]
    rfl
  | executeResult count data metadata =>
    have hcount : count < countBound :=
      lt_countBound_of_isIntegral <|
        isIntegral_object_iff.1 ho ("execution_count".toList, ofNatural count) (by simp)
    have hparts : Output.ofJson? (executeResult count data metadata).toJson =
        ((ofNatural count).natural? countBound).bind fun count =>
          (Json.object data).map?.bind fun data => (Json.object metadata).map?.bind fun metadata =>
            some (executeResult count data metadata) := rfl
    rw [hparts, natural?_ofNatural hcount, map?_object (hmaps data (by simp [maps])),
      map?_object (hmaps metadata (by simp [maps]))]
    rfl

/-! ## Cells -/

/-- The number of a cell is read again, whether there is one or not. -/
lemma countOfJson?_getD {count? : Option Nat}
    (h : ((count?.map ofNatural).getD .null).isIntegral = true) :
    countOfJson? (some ((count?.map ofNatural).getD .null)) = some count? := by
  cases count? with
  | none => rfl
  | some count =>
    have hcount : count < countBound := lt_countBound_of_isIntegral h
    have hnatural : countOfJson? (some (ofNatural count)) =
        ((ofNatural count).natural? countBound).map some := rfl
    rw [Option.map_some, Option.getD_some, hnatural, natural?_ofNatural hcount]
    rfl

/-- **A cell** is read from its JSON.

**Proof sketch.** By the kind of the cell. Each field is read from its own JSON, and the outputs one
by one (`Output.ofJson?_toJson`). -/
lemma Cell.ofJson?_toJson {c : Cell} (hc : c.toJson.isIntegral = true)
    (hmaps : ∀ map ∈ c.maps, (Json.object map).isOrdered = true) :
    Cell.ofJson? c.toJson = some c := by
  cases c with
  | markdown metadata source =>
    have hparts : Cell.ofJson? (markdown metadata source).toJson =
        (Json.object metadata).map?.bind fun metadata => (ofTexts source).texts?.bind fun source =>
          some (markdown metadata source) := rfl
    rw [hparts, map?_object (hmaps metadata (by simp [maps])), texts?_ofTexts]
    rfl
  | code count? metadata outputs source =>
    have hfields := isIntegral_object_iff.1 hc
    have hcount := countOfJson?_getD <|
      hfields ("execution_count".toList, (count?.map ofNatural).getD .null) (by simp)
    have houtputs : outputsOfJson? (.array (outputs.map Output.toJson)) = some outputs := by
      have hitems := isIntegral_array_iff.1 <|
        hfields ("outputs".toList, .array (outputs.map Output.toJson)) (by simp)
      refine mapM_map_eq_some fun o ho => Output.ofJson?_toJson ?_ fun map hmap => ?_
      · exact hitems o.toJson (List.mem_map_of_mem ho)
      · exact hmaps map (List.mem_cons_of_mem _ (List.mem_flatMap_of_mem ho hmap))
    have hparts : Cell.ofJson? (code count? metadata outputs source).toJson =
        (countOfJson? (some ((count?.map ofNatural).getD .null))).bind fun count? =>
          (Json.object metadata).map?.bind fun metadata =>
            (outputsOfJson? (.array (outputs.map Output.toJson))).bind fun outputs =>
              (ofTexts source).texts?.bind fun source =>
                some (code count? metadata outputs source) := rfl
    rw [hparts, hcount, map?_object (hmaps metadata (by simp [maps])), houtputs, texts?_ofTexts]
    rfl

/-! ## Notebooks -/

/-- **A notebook** is read from its JSON. -/
lemma ofJson?_toJson {nb : Notebook} (hnb : nb.WellFormed) (hv : nb.toJson.isIntegral = true) :
    ofJson? nb.toJson = some nb := by
  have hcells : cellsOfJson? (.array (nb.cells.map Cell.toJson)) = some nb.cells := by
    have hitems := isIntegral_array_iff.1 <|
      isIntegral_object_iff.1 hv ("cells".toList, .array (nb.cells.map Cell.toJson)) (by simp)
    refine mapM_map_eq_some fun c hc => Cell.ofJson?_toJson ?_ fun map hmap => ?_
    · exact hitems c.toJson (List.mem_map_of_mem hc)
    · exact hnb.ordered map (List.mem_cons_of_mem _ (List.mem_flatMap_of_mem hc hmap))
  have hmetadata := map?_object (hnb.ordered nb.metadata List.mem_cons_self)
  have hparts : ofJson? nb.toJson =
      (cellsOfJson? (.array (nb.cells.map Cell.toJson))).bind fun cells =>
        (Json.object nb.metadata).map?.bind fun metadata =>
          ((ofNatural nb.major).natural? versionBound).bind fun major =>
            ((ofNatural nb.minor).natural? versionBound).bind fun minor =>
              some { cells, metadata, major, minor } := rfl
  rw [hparts, hcells, hmetadata, natural?_ofNatural hnb.major_lt, natural?_ofNatural hnb.minor_lt]
  rfl

/-- **A notebook survives being written and read**, if all numbers in it are integers of 64 bits
and it is nested no deeper than the reader goes.

**Proof sketch.** The fields of the notebook are read again from their layout
(`Json.readFields?_layout`), and the notebook from its fields, part by part (`ofJson?_toJson`). -/
theorem read?_write {nb : Notebook} (hnb : nb.WellFormed) (hv : nb.toJson.isIntegral = true)
    (hd : nb.toJson.depth ≤ Json.depthLimit) : read? nb.write = some nb := by
  have hwanted : ∀ field ∈ [("cells".toList, Json.array (nb.cells.map Cell.toJson)),
      ("metadata".toList, .object nb.metadata), ("nbformat".toList, ofNatural nb.major),
      ("nbformat_minor".toList, ofNatural nb.minor)], partNames.contains field.1 = true := by
    simp [partNames]
  have hfields := Json.readFields?_layout hwanted hv hd
  have hjson : jsonOf? nb.write = some nb.toJson := by
    rw [jsonOf?, write, toJson, hfields]
  rw [read?, hjson, Option.bind_some, ofJson?_toJson hnb hv]

/-- A notebook with a cell of each kind, whose metadata is nested. -/
def calculation : Notebook where
  cells :=
    [.markdown [("tags".toList, .array [.string "a \"b\"".toList, .null, .bool true])]
      ["# Title\n".toList, "\ttext".toList],
    .code (some 1) [("level".toList, .number (.negative 3))]
      [.stream "stdout".toList ["½\n".toList],
        .executeResult 1 [("text/plain".toList, .array [.string "2".toList])] []]
      ["1 + 1".toList]]
  metadata := languageMetadata "lit".toList
  major := 4
  minor := 2

/-- The notebook of a calculation that is written can be read. -/
theorem read?_write_calculation : read? calculation.write = some calculation :=
  read?_write ⟨by decide, by decide, by decide⟩ (by decide) (by decide)

end Weave.Notebook
