import Mathlib.Data.List.Forall2
import Weave.Notebook.Building
import Weave.Proofs.Json.Maps
import Weave.Proofs.Notebook.HeadFaults

set_option autoImplicit false
set_option relaxedAutoImplicit false

/-!
# Chunks and their cells

A notebook has one cell for each chunk, in the same order. Whether a chunk makes a cell depends on
its first line only: if that is meant as the head of a cell it must be one, and must not declare the
other kind. The first chunk that makes no cell decides what is said of the whole list.

## Main definitions

* `Weave.Notebook.CellHeader.IsSaidBy` — what a line says as the head of a cell.
* `Weave.Notebook.Misheaded` — why a chunk makes no cell.
* `Weave.Notebook.Becomes` — what is asked of the cell of a chunk.

## Main results

* `Weave.Notebook.cellOfChunk_eq_error_iff`, `Weave.Notebook.becomes_of_cellOfChunk` — what a chunk
  makes.
* `Weave.Notebook.cellsOfChunks_eq_error_iff`, `Weave.Notebook.cellsOfChunks_eq_ok_iff` — what the
  chunks of a list make, one after another.
* `Weave.Notebook.ofChunks_cell_by_cell` — the notebook of a list of chunks.
-/

namespace Weave.Notebook

open CellHeader (IsHead Announces Malformed Layout ofLine?)

variable {ε : Type}

/-! ## Cells -/

namespace Cell

/-- The kind of a cell. -/
def kind : Cell → CellKind
  | markdown _ _ => .markdown
  | code _ _ _ _ => .code

/-- The number of a cell; only cells of code that were run have one. -/
def count? : Cell → Option Nat
  | markdown _ _ => none
  | code count? _ _ _ => count?

/-- The metadata of a cell. -/
def metadata : Cell → Json.Fields
  | markdown metadata _ => metadata
  | code _ metadata _ _ => metadata

section Fresh

variable (k : CellKind) (metadata : Json.Fields) (source : List Text)

/-- A new cell is of the kind that it is made for. -/
@[simp] lemma kind_fresh : (fresh k metadata source).kind = k := by
  cases k <;> rfl

/-- A new cell has the source that it is made with. -/
@[simp] lemma source_fresh : (fresh k metadata source).source = source := by
  cases k <;> rfl

/-- A new cell has the metadata that it is made with. -/
@[simp] lemma metadata_fresh : (fresh k metadata source).metadata = metadata := by
  cases k <;> rfl

/-- A new cell has no outputs. -/
@[simp] lemma outputs_fresh : (fresh k metadata source).outputs = [] := by
  cases k <;> rfl

/-- A new cell was not run. -/
@[simp] lemma count?_fresh : (fresh k metadata source).count? = none := by
  cases k <;> rfl

end Fresh

end Cell

/-! ## Sources -/

/-- A source has as many strings as lines. -/
lemma length_sourceLines (ls : List Text) : (sourceLines ls).length = ls.length := by
  induction ls with
  | nil => rfl
  | cons l ls ih =>
    cases ls with
    | nil => rfl
    | cons m ls => exact congrArg Nat.succ ih

/-- **Every string of a source** but the last one ends in a line feed. -/
lemma getLast?_of_mem_dropLast_sourceLines {ls : List Text} {t : Text}
    (h : t ∈ (sourceLines ls).dropLast) : t.getLast? = some '\n' := by
  induction ls with
  | nil => cases h
  | cons l ls ih =>
    cases ls with
    | nil => cases h
    | cons m ls =>
      have hne : sourceLines (m :: ls) ≠ [] := by
        rw [← List.length_pos_iff, length_sourceLines]
        exact Nat.succ_pos _
      rw [sourceLines, List.dropLast_cons_of_ne_nil hne] at h
      · rcases List.mem_cons.1 h with rfl | h
        · simp
        · exact ih h
      · exact List.cons_ne_nil m ls

/-! ## Heads and metadata -/

/-- **What a line says** as the head of a cell: it can be cut into parts that say it. -/
def CellHeader.IsSaidBy (header : CellHeader) (line : Text) : Prop :=
  ∃ l : Layout, l.line = line ∧ l.Spells header ∧ l.Cut

/-- What a line says of a cell is what is read from it. -/
lemma CellHeader.isSaidBy_iff {header : CellHeader} {line : Text} :
    header.IsSaidBy line ↔ ofLine? (ε := ε) line = some (.ok header) :=
  ofLine?_eq_ok_iff.symm

/-- **The metadata of a cell with a head**: a map with the entries of the payload, and with the
label as the name unless the payload has an entry of that name. Without a head there are none. -/
def IsMetadataOf (header? : Option CellHeader) (metadata : Json.Fields) : Prop :=
  match header? with
  | none => metadata = []
  | some header => Json.Ordered metadata ∧ ∀ key, metadata.lookup key =
      (header.data.lookup key).or
        (if key = "name".toList then header.label?.map Json.string else none)

/-- Without a head a cell has no metadata. -/
lemma isMetadataOf_none : IsMetadataOf none [] :=
  rfl

/-- The payload of a head is a map. -/
lemma CellHeader.IsSaidBy.ordered_data {line : Text} {header : CellHeader}
    (h : header.IsSaidBy line) : Json.Ordered header.data := by
  obtain ⟨l, -, hspells, -⟩ := h
  rcases hspells.payload with ⟨-, hdata⟩ | ⟨fields, -, -, -, hdata⟩
  · exact hdata ▸ List.Pairwise.nil
  · exact hdata ▸ Json.ordered_canonicalFields fields

/-- **The metadata of a head** are what they should be, if its payload is a map. -/
lemma CellHeader.isMetadataOf_metadata {header : CellHeader} (h : Json.Ordered header.data) :
    IsMetadataOf (some header) header.metadata := by
  cases hlabel : header.label? with
  | none =>
    have hmetadata : header.metadata = Json.putAll header.data [] := by
      rw [metadata, hlabel]
      rfl
    refine ⟨hmetadata ▸ Json.Ordered.putAll List.Pairwise.nil _, fun key => ?_⟩
    rw [hmetadata, Json.lookup_putAll h, hlabel, Option.map_none, ite_self, List.lookup_nil]
  | some label =>
    have hmetadata : header.metadata =
        Json.putAll header.data [("name".toList, .string label)] := by
      rw [metadata, hlabel]
      rfl
    refine ⟨hmetadata ▸ Json.Ordered.putAll (List.pairwise_singleton _ _) _, fun key => ?_⟩
    rw [hmetadata, Json.lookup_putAll h, Json.lookup_cons, hlabel, Option.map_some, List.lookup_nil]

/-! ## One chunk -/

/-- **Why a chunk makes no cell**: its first line is meant as the head of a cell, but it cannot be
read, or it declares the other kind. -/
inductive Misheaded (c : Chunk) : Failure ε → Prop where
  | unreadable {line body : Text} {lines : List Text} {e : Failure ε} :
      linesOfChunk c = line :: lines → Announces line body → Malformed body e → Misheaded c e
  | otherKind {line : Text} {lines : List Text} {header : CellHeader} {declared : CellKind} :
      linesOfChunk c = line :: lines → header.IsSaidBy line → header.kind? = some declared →
      declared ≠ kindOfChunk c →
      Misheaded c (.configuration (.conflictingKind declared (kindOfChunk c)))

/-- **A cell that is made of lines and a head**: it is of the kind, its source reads as the lines,
and it was not run. -/
structure Cell.IsMadeOf (cell : Cell) (kind : CellKind) (header? : Option CellHeader)
    (lines : List Text) : Prop where
  kind : cell.kind = kind
  metadata : IsMetadataOf header? cell.metadata
  flatten_source : cell.source.flatten = Text.unrows lines
  length_source : cell.source.length = lines.length
  lineFeed : ∀ t ∈ cell.source.dropLast, t.getLast? = some '\n'
  outputs : cell.outputs = []
  count : cell.count? = none

/-- **What becomes of a chunk.** -/
inductive Becomes (c : Chunk) (cell : Cell) : Prop where
  /-- If the first line is not meant as the head of a cell, all lines are the source. -/
  | whole : (∀ line ∈ (linesOfChunk c).head?, ¬ IsHead line) →
      cell.IsMadeOf (kindOfChunk c) none (linesOfChunk c) → Becomes c cell
  /-- If it is, the lines after it are the source. -/
  | headed {line : Text} {lines : List Text} {header : CellHeader} :
      linesOfChunk c = line :: lines → IsHead line → header.IsSaidBy line →
      cell.IsMadeOf (kindOfChunk c) (some header) lines → Becomes c cell

/-- A cell that was not run yet is made of what it is made from. -/
lemma Cell.isMadeOf_fresh {header? : Option CellHeader} {metadata : Json.Fields}
    (h : IsMetadataOf header? metadata) (kind : CellKind) (lines : List Text) :
    (Cell.fresh kind metadata (sourceLines lines)).IsMadeOf kind header? lines where
  kind := Cell.kind_fresh _ _ _
  metadata := by rwa [Cell.metadata_fresh]
  flatten_source := by rw [Cell.source_fresh, flatten_sourceLines, Text.unrows]
  length_source := by rw [Cell.source_fresh, length_sourceLines]
  lineFeed := by
    rw [Cell.source_fresh]
    exact fun _ => getLast?_of_mem_dropLast_sourceLines
  outputs := Cell.outputs_fresh _ _ _
  count := Cell.count?_fresh _ _ _

/-- **A head does not fit** exactly if it declares another kind. -/
lemma CellHeader.fitsKind_eq_error_iff {header : CellHeader} {kind : CellKind} {e : Failure ε} :
    header.fitsKind kind = .error e ↔ ∃ declared, header.kind? = some declared ∧ declared ≠ kind ∧
      e = .configuration (.conflictingKind declared kind) := by
  unfold fitsKind
  split
  next declared hkind =>
    split
    next hfits => simp [hkind, hfits]
    next hother => simpa [hkind, hother] using eq_comm
  next hkind => simp [hkind]

section OneChunk

variable {c : Chunk} {line : Text} {lines : List Text}

/-- A chunk whose first line is read as a head: the head must be of the kind of the chunk. -/
lemma cellOfChunk_of_header {header : CellHeader} (hlines : linesOfChunk c = line :: lines)
    (h : ofLine? (ε := ε) line = some (.ok header)) :
    cellOfChunk (ε := ε) c = (header.fitsKind (kindOfChunk c)).map fun _ =>
      .fresh (kindOfChunk c) header.metadata (sourceLines lines) := by
  simp only [cellOfChunk, hlines, h]
  cases header.fitsKind (ε := ε) (kindOfChunk c) <;> rfl

/-- A chunk without a head is a cell as a whole. -/
lemma cellOfChunk_of_not_isHead (h : ∀ line ∈ (linesOfChunk c).head?, ¬ IsHead line) :
    cellOfChunk (ε := ε) c =
      .ok (.fresh (kindOfChunk c) [] (sourceLines (linesOfChunk c))) := by
  cases hlines : linesOfChunk c with
  | nil => simp only [cellOfChunk, hlines, sourceLines]
  | cons line lines =>
    rw [hlines] at h
    have hnone := (CellHeader.ofLine?_eq_none_iff (ε := ε)).2 (h line rfl)
    simp only [cellOfChunk, hlines, hnone]

/-- A chunk with a reason against it makes no cell. -/
lemma cellOfChunk_of_misheaded {e : Failure ε} (h : Misheaded c e) : cellOfChunk c = .error e := by
  rcases h with ⟨hlines, hbody, he⟩ | ⟨hlines, hsaid, hkind, hother⟩
  · have hread := CellHeader.ofLine?_eq_error_iff.2 ⟨_, hbody, he⟩
    simp only [cellOfChunk, hlines, hread]
  · rw [cellOfChunk_of_header hlines (CellHeader.isSaidBy_iff.1 hsaid),
      CellHeader.fitsKind_eq_error_iff.2 ⟨_, hkind, hother, rfl⟩]
    rfl

/-- **What a chunk makes**: there is a reason against a cell, or the chunk makes the cell that it
should.

**Proof sketch.** A chunk without a head is the whole of its cell. With one, the head is read or not
(`CellHeader.ofBody_eq_error_iff`), and what is read fits the kind of the chunk or not
(`CellHeader.fitsKind_eq_error_iff`). -/
lemma misheaded_or_becomes (c : Chunk) : (∃ e : Failure ε, Misheaded c e) ∨
    ∃ cell, cellOfChunk (ε := ε) c = .ok cell ∧ Becomes c cell := by
  by_cases hhead : ∀ line ∈ (linesOfChunk c).head?, ¬ IsHead line
  · exact .inr ⟨_, cellOfChunk_of_not_isHead hhead,
      .whole hhead (Cell.isMadeOf_fresh isMetadataOf_none _ _)⟩
  · simp only [not_forall, not_not] at hhead
    obtain ⟨line, hline, body, hbody⟩ := hhead
    obtain ⟨lines, hlines⟩ := List.head?_eq_some_iff.1 hline
    have hread := CellHeader.ofLine?_of_announces (ε := ε) hbody
    cases hresult : CellHeader.ofBody (ε := ε) body with
    | error e =>
      exact .inl ⟨e, .unreadable hlines hbody (CellHeader.ofBody_eq_error_iff.1 hresult)⟩
    | ok header =>
      rw [hresult] at hread
      have hsaid := CellHeader.isSaidBy_iff.2 hread
      cases hfits : header.fitsKind (ε := ε) (kindOfChunk c) with
      | error e =>
        obtain ⟨declared, hkind, hother, -⟩ := CellHeader.fitsKind_eq_error_iff.1 hfits
        exact .inl ⟨_, .otherKind hlines hsaid hkind hother⟩
      | ok u =>
        refine .inr ⟨_, by rw [cellOfChunk_of_header hlines hread, hfits]; rfl, ?_⟩
        exact .headed hlines ⟨body, hbody⟩ hsaid <|
          Cell.isMadeOf_fresh (CellHeader.isMetadataOf_metadata hsaid.ordered_data) _ _

/-- **A chunk makes no cell** exactly for one of the reasons. -/
theorem cellOfChunk_eq_error_iff {e : Failure ε} : cellOfChunk c = .error e ↔ Misheaded c e := by
  refine ⟨fun h => ?_, cellOfChunk_of_misheaded⟩
  rcases misheaded_or_becomes (ε := ε) c with ⟨e', he'⟩ | ⟨cell, hcell, -⟩
  · exact Except.error.inj (h.symm.trans (cellOfChunk_of_misheaded he')) ▸ he'
  · cases h.symm.trans hcell

/-- **A chunk makes the cell** that it should. -/
theorem becomes_of_cellOfChunk {cell : Cell} (h : cellOfChunk (ε := ε) c = .ok cell) :
    Becomes c cell := by
  rcases misheaded_or_becomes (ε := ε) c with ⟨e, he⟩ | ⟨cell', hcell, hbecomes⟩
  · cases h.symm.trans (cellOfChunk_of_misheaded he)
  · exact Except.ok.inj (h.symm.trans hcell) ▸ hbecomes

/-- A chunk makes a cell if there is no reason against it. -/
lemma exists_cellOfChunk_iff :
    (∃ cell, cellOfChunk (ε := ε) c = .ok cell) ↔ ∀ e : Failure ε, ¬ Misheaded c e := by
  simp only [← cellOfChunk_eq_error_iff]
  cases cellOfChunk (ε := ε) c <;> simp

end OneChunk

/-! ## Lists of chunks -/

section Lists

variable {c : Chunk} {cs : List Chunk}

/-- If the first chunk cannot be made a cell, then this is the failure of all of them. -/
lemma cellsOfChunks_cons_of_error {e : Failure ε} (h : cellOfChunk c = .error e) :
    cellsOfChunks (c :: cs) = .error e := by
  rw [cellsOfChunks, h]

/-- If the first chunk is made a cell, then it is the first one. -/
lemma cellsOfChunks_cons_of_ok {cell : Cell} (h : cellOfChunk (ε := ε) c = .ok cell) :
    cellsOfChunks (ε := ε) (c :: cs) = (cellsOfChunks cs).map (cell :: ·) := by
  rw [cellsOfChunks, h]
  cases cellsOfChunks (ε := ε) cs <;> rfl

/-- **A list of chunks makes no cells** if one of the chunks makes none; the first one of these
decides.

**Proof sketch.** Induction on the chunks. If the first one makes no cell, it decides, and no chunk
stands before it. If it makes one, the first chunk that makes none is among the others. -/
theorem cellsOfChunks_eq_error_iff {e : Failure ε} :
    cellsOfChunks cs = .error e ↔ ∃ before c after, cs = before ++ c :: after ∧
      (∀ b ∈ before, ∃ cell, cellOfChunk (ε := ε) b = .ok cell) ∧ cellOfChunk c = .error e := by
  induction cs with
  | nil => simp [cellsOfChunks]
  | cons c cs ih =>
    cases hc : cellOfChunk (ε := ε) c with
    | error e' =>
      rw [cellsOfChunks_cons_of_error hc, Except.error.injEq]
      constructor
      · rintro rfl
        exact ⟨[], c, cs, rfl, nofun, hc⟩
      · rintro ⟨before, b, after, hcs, hbefore, hb⟩
        cases before with
        | nil =>
          obtain ⟨rfl, -⟩ := List.cons.inj hcs
          exact Except.error.inj (hc.symm.trans hb)
        | cons b' before =>
          obtain ⟨rfl, -⟩ := List.cons.inj hcs
          obtain ⟨cell, hcell⟩ := hbefore c List.mem_cons_self
          cases hc.symm.trans hcell
    | ok cell =>
      have hrest : cellsOfChunks (c :: cs) = .error e ↔ cellsOfChunks cs = .error e := by
        rw [cellsOfChunks_cons_of_ok hc]
        cases cellsOfChunks (ε := ε) cs <;> simp [Except.map]
      rw [hrest, ih]
      constructor
      · rintro ⟨before, b, after, rfl, hbefore, hb⟩
        refine ⟨c :: before, b, after, rfl, ?_, hb⟩
        rw [List.forall_mem_cons]
        exact ⟨⟨cell, hc⟩, hbefore⟩
      · rintro ⟨before, b, after, hcs, hbefore, hb⟩
        cases before with
        | nil =>
          obtain ⟨rfl, -⟩ := List.cons.inj hcs
          cases hc.symm.trans hb
        | cons b' before =>
          rw [List.forall_mem_cons] at hbefore
          exact ⟨before, b, after, (List.cons.inj hcs).2, hbefore.2, hb⟩

/-- **A list of chunks makes cells** if every chunk does, and then it is cell by cell. -/
theorem cellsOfChunks_eq_ok_iff {cells : List Cell} :
    cellsOfChunks (ε := ε) cs = .ok cells ↔
      List.Forall₂ (fun c cell => cellOfChunk (ε := ε) c = .ok cell) cs cells := by
  induction cs generalizing cells with
  | nil => rw [cellsOfChunks, Except.ok.injEq, List.forall₂_nil_left_iff, eq_comm]
  | cons c cs ih =>
    cases hc : cellOfChunk (ε := ε) c with
    | error e =>
      rw [cellsOfChunks_cons_of_error hc, List.forall₂_cons_left_iff]
      simp [hc]
    | ok cell =>
      rw [cellsOfChunks_cons_of_ok hc, List.forall₂_cons_left_iff]
      simp only [hc, ← ih]
      cases hcs : cellsOfChunks (ε := ε) cs <;> simp [Except.map, eq_comm]

/-- **The notebook of a list of chunks.** It fails exactly if a chunk is headed by a line that is
meant as the head of a cell and cannot be read, or declares the other kind, and the first such chunk
decides how. If not, there is one cell for each chunk, in order.

**Proof sketch.** The chunks make cells one by one, and the first that makes none decides
(`cellsOfChunks_eq_error_iff`). A chunk makes none exactly if it is misheaded
(`cellOfChunk_eq_error_iff`), and otherwise it makes the cell that it becomes
(`becomes_of_cellOfChunk`). -/
theorem ofChunks_cell_by_cell (s : Settings) (cs : List Chunk) :
    ((∃ e, ofChunks (ε := ε) s cs = .error e) ↔ ∃ c ∈ cs, ∃ e : Failure ε, Misheaded c e) ∧
    (∀ e : Failure ε, ofChunks s cs = .error e ↔ ∃ before c after, cs = before ++ c :: after ∧
      (∀ b ∈ before, ∀ e' : Failure ε, ¬ Misheaded b e') ∧ Misheaded c e) ∧
    ((∃ c ∈ cs, ∃ e : Failure ε, Misheaded c e) ∨ ∃ cells,
      ofChunks (ε := ε) s cs = .ok { empty s with cells } ∧ List.Forall₂ Becomes cs cells) := by
  have hfails (e : Failure ε) : ofChunks s cs = .error e ↔ ∃ before c after,
      cs = before ++ c :: after ∧ (∀ b ∈ before, ∀ e' : Failure ε, ¬ Misheaded b e') ∧
        Misheaded c e := by
    have hcells : ofChunks s cs = .error e ↔ cellsOfChunks cs = .error e := by
      rw [ofChunks]
      cases cellsOfChunks (ε := ε) cs <;> simp [Except.map]
    simp only [hcells, cellsOfChunks_eq_error_iff, exists_cellOfChunk_iff, cellOfChunk_eq_error_iff]
  have hfirst : (∃ e, ofChunks (ε := ε) s cs = .error e) →
      ∃ c ∈ cs, ∃ e : Failure ε, Misheaded c e := by
    rintro ⟨e, he⟩
    obtain ⟨before, c, after, rfl, -, hc⟩ := (hfails e).1 he
    exact ⟨c, by simp, e, hc⟩
  cases hcells : cellsOfChunks (ε := ε) cs with
  | error e =>
    have he : ofChunks s cs = .error e := by rw [ofChunks, hcells]; rfl
    have hc := hfirst ⟨e, he⟩
    exact ⟨⟨hfirst, fun _ => ⟨e, he⟩⟩, hfails, .inl hc⟩
  | ok cells =>
    have hok : ofChunks (ε := ε) s cs = .ok { empty s with cells } := by rw [ofChunks, hcells]; rfl
    have heach : List.Forall₂ (fun c cell => (∀ e : Failure ε, ¬ Misheaded c e) ∧ Becomes c cell)
        cs cells :=
      (cellsOfChunks_eq_ok_iff.1 hcells).imp fun c cell hcell =>
        ⟨exists_cellOfChunk_iff.1 ⟨cell, hcell⟩, becomes_of_cellOfChunk hcell⟩
    obtain ⟨hheaded, hbecomes⟩ := (List.forall₂_and_left cs cells).1 heach
    refine ⟨⟨hfirst, ?_⟩, hfails, .inr ⟨cells, hok, hbecomes⟩⟩
    rintro ⟨c, hc, e, he⟩
    exact absurd he (hheaded c hc e)

end Lists

end Weave.Notebook
