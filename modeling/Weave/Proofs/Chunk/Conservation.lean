import Weave.Chunk.Cut
import Weave.Chunk.Normalize
import Weave.Proofs.Text.Rows
import Weave.Script

set_option autoImplicit false
set_option relaxedAutoImplicit false

/-!
# No line is lost

Cutting a source into chunks and bringing these into normal form moves lines from chunk to chunk and
drops some that say nothing. Written in the form of a source again, the chunks have the same lines
as the source, in the same order, as far as these have content.

## Main definitions

* `Weave.Text.content?` — what a line says: nothing if it is blank or a marker alone.
* `Weave.Text.kept?` — a line of a source as the chunks keep it.
* `Weave.Chunk.sourceLines` — the lines of a chunk in the form of a source.
* `Weave.Chunk.gather` — what a chunk holds, by what a line of prose and a line of code hold.

## Main results

* `Weave.Chunk.gather_foldl_addLine` — what is added to chunks comes after what is there.
* `Weave.Chunk.flatMap_sourceLines_cut` — cutting keeps every line but the marks.
* `Weave.Chunk.flatMap_sourceLines_mergeContinued` — merging keeps every line.
* `Weave.Chunk.contents_normalize` — normal form keeps every line with content.
* `Weave.Chunk.contents_normalize_cut` — so the chunks of a source have its lines, and so has its
  script with comments.

## Design

A line of prose is blank if it holds no text, but then it is written as its indent and a marker. It
has no content only because the indent is blank, which is so in the chunks of a text and not in any
chunks; `Weave.Chunk.IsIndented` says so.
-/

namespace Weave

/-! ## Content -/

namespace Text

/-- **What a line says**: the line without blanks at its end, or nothing if it is blank or a comment
marker alone. -/
def content? (line : Text) : Option Text :=
  if line.trim = [] ∨ line.trim = ['#'] then none else some line.trimEnd

/-- What lines say. -/
def contents (ls : List Text) : List Text :=
  ls.filterMap content?

/-- **A line of a source as the chunks keep it.** A mark is not kept, and a doubled comment marker
before a blank or before the end of the line loses one of its hashes. -/
def kept? (line : Text) : Option Text :=
  let rest := line.trimStart
  if startsWith "#-".toList rest ∨ startsWith "#+".toList rest then none
  else if rest = "##".toList ∨ startsWith "## ".toList rest then
    some (line.takeWhile isBlank ++ rest.tail)
  else some line

/-- No lines say nothing. -/
@[simp] lemma contents_nil : contents [] = [] :=
  rfl

/-- What lines say is followed by what the lines after them say. -/
@[simp] lemma contents_append (a b : List Text) : contents (a ++ b) = contents a ++ contents b :=
  List.filterMap_append

/-- An empty line says nothing. -/
lemma content?_nil : content? [] = none := by
  decide

/-- Blanks at the end of a line say nothing. -/
lemma content?_append_blanks {z : Text} (hz : ∀ c ∈ z, isBlank c = true) (line : Text) :
    content? (line ++ z) = content? line := by
  rw [content?, content?, trim_append_blanks hz, trimEnd_append_blanks hz]

/-- A line says the same without the blanks at its end. -/
lemma content?_trimEnd (line : Text) : content? line.trimEnd = content? line := by
  rw [content?, content?, trim_trimEnd, trimEnd_trimEnd]

/-- A carriage return at the end of a line says nothing. -/
lemma content?_append_return (line : Text) : content? (line ++ ['\r']) = content? line :=
  content?_append_blanks (List.forall_mem_singleton.2 rfl) line

/-- An indented comment marker says nothing. -/
lemma content?_indented_hash {indent : Text} (h : ∀ c ∈ indent, isBlank c = true) :
    content? (indent ++ ['#']) = none := by
  have htrim : trim (indent ++ ['#']) = ['#'] := by
    rw [trim_blanks_append h]
    decide
  rw [content?, if_pos (.inr htrim)]

/-- What the lines of a text say can be read off its rows. -/
lemma contents_lines (t : Text) : contents (lines t) = contents (rows t) :=
  filterMap_lines content?_nil content?_append_return t

end Text

/-! ## Lines in the form of a source -/

/-- A line of prose says what its comment says that is not trimmed. -/
lemma ProseLine.content?_toComment (l : ProseLine) :
    l.toComment.content? = Text.content? (l.indent ++ '#' :: ' ' :: l.text) := by
  rw [toComment, Text.content?_trimEnd, List.append_assoc]
  rfl

/-- A blank line of prose with a blank indent says nothing. -/
lemma ProseLine.content?_toComment_of_isBlank {l : ProseLine} (h : l.isBlank = true)
    (hindent : ∀ c ∈ l.indent, Weave.isBlank c = true) : l.toComment.content? = none := by
  have htext : l.text = [] := List.isEmpty_iff.1 h
  have hsplit : l.indent ++ '#' :: ' ' :: l.text = (l.indent ++ ['#']) ++ [' '] := by
    simp [htext]
  rw [content?_toComment, hsplit, Text.content?_append_blanks (List.forall_mem_singleton.2 rfl),
    Text.content?_indented_hash hindent]

/-- The lines that a line of a source adds to the chunks, in the form of a source. -/
def SourceLine.sourceLines : SourceLine → List Text
  | cut => []
  | join => []
  | prose line => [line.toComment]
  | code line => [line]

/-- **A line of a source** says the same in the chunks as in the source, if it is kept.

**Proof sketch.** The line is an indent and a rest, whose beginning decides on both sides. Only
prose is written otherwise than it was read, and it differs by blanks at the end. -/
lemma SourceLine.contents_sourceLines_ofText (line : Text) :
    Text.contents (SourceLine.ofText line).sourceLines = Text.contents line.kept?.toList := by
  have hline : line.takeWhile isBlank ++ line.dropWhile isBlank = line :=
    List.takeWhile_append_dropWhile
  have hindent : ∀ c ∈ line.takeWhile isBlank, isBlank c = true := fun _ => List.mem_takeWhile_imp
  unfold SourceLine.ofText Text.kept? Text.trimStart Text.trimStartBy
  dsimp only
  generalize line.takeWhile isBlank = indent at *
  generalize line.dropWhile isBlank = rest at *
  subst hline
  have hneg {p : Text} (hp : ∀ r, rest ≠ p ++ r) : ¬Text.startsWith p rest = true := fun h => by
    obtain ⟨r, hr⟩ := Text.startsWith_iff.1 h
    exact hp r hr
  split
  case h_1 => rfl
  case h_2 => rfl
  case h_3 =>
    have hblank : (ProseLine.mk indent []).toComment.content? = none :=
      ProseLine.content?_toComment_of_isBlank rfl hindent
    have hbare : Text.content? (indent ++ ['#']) = none := Text.content?_indented_hash hindent
    simp [sourceLines, Text.startsWith, Text.stripPrefix?, Text.contents, hblank, hbare]
  case h_4 text =>
    have hsame := ProseLine.content?_toComment { indent, text }
    simp [sourceLines, Text.startsWith, Text.stripPrefix?, Text.contents,
      List.filterMap_cons, hsame]
  case h_5 => rfl
  case h_6 => rfl
  case h_7 hcut hjoin _ _ htwo hdoubled =>
    have htwo' : rest ≠ "##".toList := htwo
    have hdoubled' := hneg (p := "## ".toList) fun r => hdoubled r
    rw [if_neg (not_or.2 ⟨hneg fun r => hcut r, hneg fun r => hjoin r⟩),
      if_neg (not_or.2 ⟨htwo', hdoubled'⟩)]
    rfl

/-- What a line of a source holds, by what prose and code hold. -/
def SourceLine.gather {β : Type} (ofProse : ProseLine → List β) (ofCode : Text → List β) :
    SourceLine → List β
  | cut => []
  | join => []
  | prose line => ofProse line
  | code line => ofCode line

namespace Chunk

/-- The lines of a chunk in the form of a source. -/
def sourceLines : Chunk → List Text
  | prose lines => lines.map ProseLine.toComment
  | code lines _ => lines

/-- The lines of chunks that stand newest first. -/
def linesSoFar (newest : List Chunk) : List Text :=
  newest.reverse.flatMap sourceLines

/-- The lines of the newest chunk come last. -/
@[simp] lemma linesSoFar_cons (c : Chunk) (cs : List Chunk) :
    linesSoFar (c :: cs) = linesSoFar cs ++ c.sourceLines := by
  simp [linesSoFar]

/-! ## Cutting -/

section Gather

variable {β : Type} (ofProse : ProseLine → List β) (ofCode : Text → List β)

/-- What the lines of a chunk hold, by what prose and code hold. -/
def gather : Chunk → List β
  | prose lines => lines.flatMap ofProse
  | code lines _ => lines.flatMap ofCode

/-- Marking code as going on keeps what the chunks hold. -/
lemma gather_continueFirstCode (cs : List Chunk) :
    (continueFirstCode cs).reverse.flatMap (gather ofProse ofCode) =
      cs.reverse.flatMap (gather ofProse ofCode) := by
  induction cs with
  | nil => rfl
  | cons c cs ih => cases c <;> simp [continueFirstCode, ih, gather]

/-- **A line that is added** comes after the lines that are there. -/
lemma gather_addLine (allow : Bool) (newest : List Chunk) (l : SourceLine) :
    (addLine allow newest l).reverse.flatMap (gather ofProse ofCode) =
      newest.reverse.flatMap (gather ofProse ofCode) ++ l.gather ofProse ofCode := by
  have hempty (c : Chunk) : c.emptyLike.gather ofProse ofCode = [] := by
    cases c <;> rfl
  cases l with
  | cut =>
    cases newest with
    | nil => rfl
    | cons c cs => simp [addLine, SourceLine.gather, hempty]
  | join =>
    cases allow <;>
      simp [addLine, noCode, gather, SourceLine.gather, gather_continueFirstCode]
  | prose line =>
    unfold addLine
    dsimp only
    split <;> simp [gather, SourceLine.gather]
  | code line =>
    unfold addLine
    dsimp only
    split <;> simp [gather, SourceLine.gather]

/-- **Lines that are added** one after another come after the lines that are there. -/
lemma gather_foldl_addLine (allow : Bool) (ls : List SourceLine) (newest : List Chunk) :
    (ls.foldl (addLine allow) newest).reverse.flatMap (gather ofProse ofCode) =
      newest.reverse.flatMap (gather ofProse ofCode) ++
        ls.flatMap (SourceLine.gather ofProse ofCode) := by
  induction ls generalizing newest with
  | nil => simp
  | cons l ls ih => rw [List.foldl_cons, ih, gather_addLine, List.flatMap_cons,
      List.append_assoc]

/-- The chunk that a source begins with holds nothing yet. -/
lemma gather_firstFor (l? : Option SourceLine) :
    [firstFor l?].reverse.flatMap (gather ofProse ofCode) = [] := by
  unfold firstFor
  split <;> rfl

end Gather

/-- **Cutting keeps every line** but the marks, in order. -/
theorem flatMap_sourceLines_cut (allow : Bool) (t : Text) :
    (cut allow t).flatMap sourceLines =
      (Text.lines t).flatMap fun line => (SourceLine.ofText line).sourceLines := by
  have hchunk : sourceLines = gather (fun l => [l.toComment]) fun l => [l] := by
    funext c
    cases c <;> simp [sourceLines, gather, List.map_eq_flatMap]
  have hline :
      SourceLine.sourceLines = SourceLine.gather (fun l => [l.toComment]) fun l => [l] := by
    funext l
    cases l <;> rfl
  simp only [cut, hchunk, hline]
  rw [gather_foldl_addLine, gather_firstFor, List.nil_append, List.flatMap_map]

/-- **The chunks of a text** say what its lines say that are kept. -/
theorem contents_cut (allow : Bool) (t : Text) :
    Text.contents ((cut allow t).flatMap sourceLines) =
      Text.contents ((Text.lines t).filterMap Text.kept?) := by
  rw [flatMap_sourceLines_cut]
  induction Text.lines t with
  | nil => rfl
  | cons line ls ih =>
    have hkept : (line :: ls).filterMap Text.kept? =
        line.kept?.toList ++ ls.filterMap Text.kept? := by
      rw [List.filterMap_cons]
      cases line.kept? <;> rfl
    rw [List.flatMap_cons, Text.contents_append, ih, SourceLine.contents_sourceLines_ofText, hkept,
      Text.contents_append]

/-! ## Indents -/

/-- Whether only blanks stand before the comment markers of a chunk. -/
def IsIndented : Chunk → Prop
  | prose lines => ∀ l ∈ lines, ∀ c ∈ l.indent, Weave.isBlank c = true
  | code _ _ => True

/-- What is read as a line of prose has a blank indent. -/
lemma indent_of_ofText {line : Text} {l : ProseLine} (h : SourceLine.ofText line = .prose l) :
    ∀ c ∈ l.indent, Weave.isBlank c = true := by
  unfold SourceLine.ofText at h
  dsimp only at h
  split at h
  case h_3 | h_4 =>
    obtain rfl := SourceLine.prose.inj h
    exact fun _ => List.mem_takeWhile_imp
  all_goals simp at h

/-- Chunks keep their indents when code is marked as going on. -/
lemma isIndented_continueFirstCode {cs : List Chunk} (h : ∀ c ∈ cs, c.IsIndented) :
    ∀ c ∈ continueFirstCode cs, c.IsIndented := by
  induction cs with
  | nil => exact h
  | cons c cs ih =>
    simp only [List.forall_mem_cons] at h
    cases c with
    | prose lines => simpa [continueFirstCode] using ⟨h.1, ih h.2⟩
    | code lines continuation => simpa [continueFirstCode] using ⟨trivial, h.2⟩

/-- A line with a blank indent is added to chunks with blank indents.

**Proof sketch.** By the line. It goes to the end of the newest chunk, or begins a chunk of its own;
only a line of prose has an indent, which is blank by hypothesis. -/
lemma isIndented_addLine {allow : Bool} {newest : List Chunk} {l : SourceLine}
    (hl : ∀ line, l = .prose line → ∀ c ∈ line.indent, Weave.isBlank c = true)
    (h : ∀ c ∈ newest, c.IsIndented) : ∀ c ∈ addLine allow newest l, c.IsIndented := by
  have hempty (c : Chunk) : c.emptyLike.IsIndented := by
    cases c <;> simp [emptyLike, noProse, noCode, IsIndented]
  cases l with
  | cut =>
    cases newest with
    | nil => simp [addLine, noCode, IsIndented]
    | cons c cs => simpa [addLine, hempty] using h
  | join =>
    cases allow with
    | false => simpa [addLine, noCode, IsIndented] using h
    | true => simpa [addLine, noCode, IsIndented] using isIndented_continueFirstCode h
  | prose line =>
    have hline := hl line rfl
    unfold addLine
    dsimp only
    split
    next lines cs =>
      simp only [List.forall_mem_cons, IsIndented] at h ⊢
      refine ⟨fun l hl => ?_, h.2⟩
      rcases List.mem_append.1 hl with hl | hl
      · exact h.1 l hl
      · exact List.mem_singleton.1 hl ▸ hline
    next => simpa [IsIndented] using ⟨hline, h⟩
  | code line =>
    unfold addLine
    dsimp only
    split
    next lines continuation cs => simpa [IsIndented] using h
    next => simpa [IsIndented] using h

/-- **The chunks of a text** have blank indents. -/
theorem isIndented_cut (allow : Bool) (t : Text) : ∀ c ∈ cut allow t, c.IsIndented := by
  have hfold (ls : List Text) (newest : List Chunk) (h : ∀ c ∈ newest, c.IsIndented) :
      ∀ c ∈ (ls.map SourceLine.ofText).foldl (addLine allow) newest, c.IsIndented := by
    induction ls generalizing newest with
    | nil => exact h
    | cons line ls ih => exact ih _ (isIndented_addLine (fun _ => indent_of_ofText) h)
  have hfirst (l? : Option SourceLine) : ∀ c ∈ [firstFor l?], c.IsIndented := by
    unfold firstFor
    split <;> simp [noProse, noCode, IsIndented]
  intro c hc
  exact hfold _ _ (hfirst _) c (List.mem_reverse.1 hc)

/-! ## Normal form -/

/-- What a list holds is not changed by trimming elements that hold nothing. -/
lemma filterMap_trimList {α β : Type} {f : α → Option β} {p : α → Bool} {l : List α}
    (h : ∀ a ∈ l, p a = true → f a = none) : (trimList p l).filterMap f = l.filterMap f := by
  have hdrop (l : List α) (h : ∀ a ∈ l, p a = true → f a = none) :
      (l.dropWhile p).filterMap f = l.filterMap f := by
    induction l with
    | nil => rfl
    | cons a l ih =>
      simp only [List.forall_mem_cons] at h
      rw [List.dropWhile_cons]
      split
      next hp => rw [ih h.2, List.filterMap_cons, h.1 hp]
      next => rfl
  have hmem : ∀ a ∈ (l.dropWhile p).reverse, p a = true → f a = none := fun a ha =>
    h a ((List.dropWhile_suffix p).subset (List.mem_reverse.1 ha))
  rw [trimList, List.filterMap_reverse, hdrop _ hmem, List.filterMap_reverse, List.reverse_reverse,
    hdrop l h]

/-- A chunk without blank lines at its ends says the same. -/
lemma contents_trimBlank {c : Chunk} (hc : c.IsIndented) :
    Text.contents c.trimBlank.sourceLines = Text.contents c.sourceLines := by
  cases c with
  | prose lines =>
    simp only [trimBlank, sourceLines, Text.contents, List.filterMap_map]
    exact filterMap_trimList fun l hl hblank =>
      ProseLine.content?_toComment_of_isBlank hblank (hc l hl)
  | code lines continuation =>
    exact filterMap_trimList fun l _ hblank => by
      rw [List.isEmpty_iff.1 hblank, Text.content?_nil]

/-- A blank chunk says nothing. -/
lemma contents_of_isBlank {c : Chunk} (hc : c.IsIndented) (h : c.isBlank = true) :
    Text.contents c.sourceLines = [] := by
  cases c with
  | prose lines =>
    simp only [sourceLines, Text.contents, List.filterMap_map, List.filterMap_eq_nil_iff]
    exact fun l hl =>
      ProseLine.content?_toComment_of_isBlank (List.all_eq_true.1 h l hl) (hc l hl)
  | code lines continuation =>
    simp only [sourceLines, Text.contents, List.filterMap_eq_nil_iff]
    exact fun l hl => by
      rw [List.isEmpty_iff.1 (List.all_eq_true.1 h l hl), Text.content?_nil]

/-- **Dropping and trimming** leave what the chunks say. -/
lemma contents_trimmed {cs : List Chunk} (h : ∀ c ∈ cs, c.IsIndented) :
    Text.contents (((cs.filter fun c => !c.isBlank).map trimBlank).flatMap sourceLines) =
      Text.contents (cs.flatMap sourceLines) := by
  induction cs with
  | nil => rfl
  | cons c cs ih =>
    simp only [List.forall_mem_cons] at h
    rw [List.flatMap_cons, Text.contents_append, List.filter_cons, ← ih h.2]
    cases hb : c.isBlank with
    | true => simp [contents_of_isBlank h.1 hb]
    | false => simp [contents_trimBlank h.1]

/-- Marking the code that is broken off keeps every line. -/
lemma flatMap_sourceLines_continueIndented (cs : List Chunk) :
    (continueIndented cs).flatMap sourceLines = cs.flatMap sourceLines := by
  induction cs with
  | nil => rfl
  | cons c cs ih => cases c <;> simp [continueIndented, ih, sourceLines]

/-- **A chunk that is taken in** comes after the lines that are there. -/
lemma linesSoFar_add (m : Merging) (c : Chunk) :
    linesSoFar (m.add c).newest = linesSoFar m.newest ++ c.sourceLines := by
  obtain ⟨newest, isOpen⟩ := m
  unfold Merging.add
  dsimp only
  split <;> simp [sourceLines]

/-- **Merging keeps every line**, in order. -/
theorem flatMap_sourceLines_mergeContinued (cs : List Chunk) :
    (mergeContinued cs).flatMap sourceLines = cs.flatMap sourceLines := by
  have hfold (m : Merging) : linesSoFar (cs.foldl Merging.add m).newest =
      linesSoFar m.newest ++ cs.flatMap sourceLines := by
    induction cs generalizing m with
    | nil => simp
    | cons c cs ih => rw [List.foldl_cons, ih, linesSoFar_add, List.flatMap_cons,
        List.append_assoc]
  exact hfold { newest := [], isOpen := false }

/-- **Normal form** leaves what chunks with blank indents say. -/
theorem contents_normalize (merge : Bool) {cs : List Chunk} (h : ∀ c ∈ cs, c.IsIndented) :
    Text.contents ((normalize merge cs).flatMap sourceLines) =
      Text.contents (cs.flatMap sourceLines) := by
  cases merge with
  | false =>
    simp only [normalize, Bool.false_eq_true, if_false]
    rw [flatMap_sourceLines_continueIndented, contents_trimmed h]
  | true =>
    simp only [normalize, if_true]
    rw [flatMap_sourceLines_mergeContinued, flatMap_sourceLines_continueIndented,
      contents_trimmed h]

/-! ## Line feeds -/

/-- What is added for a line without line feeds has none.

**Proof sketch.** The line is an indent and a rest, neither of which has a line feed. A line of code
is added as it is. A comment is made of parts of the line, and trimming adds nothing to them. -/
lemma not_mem_of_mem_sourceLines_ofText {line l : Text} (hline : '\n' ∉ line)
    (h : l ∈ (SourceLine.ofText line).sourceLines) : '\n' ∉ l := by
  have hsplit : line.takeWhile Weave.isBlank ++ line.dropWhile Weave.isBlank = line :=
    List.takeWhile_append_dropWhile
  have hcomment (p : ProseLine) (hi : '\n' ∉ p.indent) (ht : '\n' ∉ p.text) :
      '\n' ∉ p.toComment := fun hmem => by
    obtain ⟨z, hz, -⟩ := Text.exists_eq_trimEnd_append (p.indent ++ "# ".toList ++ p.text)
    have : '\n' ∈ p.indent ++ "# ".toList ++ p.text := hz ▸ List.mem_append_left z hmem
    simp [hi, ht] at this
  unfold SourceLine.ofText at h
  dsimp only at h
  generalize line.takeWhile Weave.isBlank = indent at *
  generalize line.dropWhile Weave.isBlank = rest at *
  subst hsplit
  simp only [List.mem_append, not_or] at hline
  split at h
  case h_1 | h_2 => simp [SourceLine.sourceLines] at h
  case h_3 =>
    obtain rfl := List.mem_singleton.1 h
    exact hcomment _ hline.1 (by simp)
  case h_4 text =>
    obtain rfl := List.mem_singleton.1 h
    exact hcomment _ hline.1 fun ht => hline.2 (by simp [ht])
  case h_5 | h_6 =>
    obtain rfl := List.mem_singleton.1 h
    simpa using hline
  case h_7 =>
    obtain rfl := List.mem_singleton.1 h
    simpa using hline

/-- No line of the chunks of a text holds a line feed. -/
lemma not_mem_of_mem_cut {allow : Bool} {t l : Text}
    (h : l ∈ (cut allow t).flatMap sourceLines) : '\n' ∉ l := by
  rw [flatMap_sourceLines_cut, List.mem_flatMap] at h
  obtain ⟨line, hline, hl⟩ := h
  exact not_mem_of_mem_sourceLines_ofText (Text.not_mem_of_mem_lines hline) hl

/-- Trimming adds nothing. -/
lemma trimList_sublist {α : Type} (p : α → Bool) (l : List α) : (trimList p l).Sublist l :=
  (List.reverse_sublist.2 (List.dropWhile_sublist p)).trans
    (by simpa using List.dropWhile_sublist p)

/-- Normal form adds no lines. -/
lemma mem_of_mem_normalize {cs : List Chunk} {l : Text}
    (h : l ∈ (normalize false cs).flatMap sourceLines) : l ∈ cs.flatMap sourceLines := by
  have htrim (c : Chunk) : c.trimBlank.sourceLines.Sublist c.sourceLines := by
    cases c with
    | prose lines => exact (trimList_sublist _ _).map _
    | code lines continuation => exact trimList_sublist _ _
  simp only [normalize, Bool.false_eq_true, if_false] at h
  rw [flatMap_sourceLines_continueIndented, List.mem_flatMap] at h
  obtain ⟨c, hc, hl⟩ := h
  obtain ⟨d, hd, rfl⟩ := List.mem_map.1 hc
  exact List.mem_flatMap.2 ⟨d, List.mem_of_mem_filter hd, (htrim d).subset hl⟩

end Chunk

/-! ## Scripts -/

/-- A script with comments is written from the lines of its chunks. -/
lemma Script.ofChunks_eq (cs : List Chunk) :
    Script.ofChunks true cs = Text.endInOneLineFeed
      (cs.flatMap fun c => Text.writeLines c.sourceLines ++ ['\n']) := by
  have hlines : Script.linesOfChunk? true = fun c => some c.sourceLines := by
    funext c
    cases c <;> rfl
  rw [Script.ofChunks, hlines, List.filterMap_eq_map', List.flatMap_map]

/-- **A script with comments** says what its chunks say. -/
theorem Script.contents_ofChunks {cs : List Chunk}
    (h : ∀ l ∈ cs.flatMap Chunk.sourceLines, '\n' ∉ l) :
    Text.contents (Text.lines (Script.ofChunks true cs)) =
      Text.contents (cs.flatMap Chunk.sourceLines) := by
  rw [Text.contents_lines, Script.ofChunks_eq, Text.contents,
    Text.filterMap_rows_endInOneLineFeed Text.content?_nil]
  induction cs with
  | nil => rfl
  | cons c cs ih =>
    have hc : ∀ l ∈ c.sourceLines, '\n' ∉ l := fun l hl => h l (by simp [hl])
    rw [List.flatMap_cons, List.flatMap_cons, List.append_assoc, List.singleton_append,
      Text.rows_append, Text.rows_writeLines hc, List.filterMap_append,
      ih fun l hl => h l (List.mem_append_right _ hl), List.filterMap_append]
    simp [Text.contents, Text.content?_nil]

/-! ## Sources -/

/-- **No line is lost** by chunking. Whether or not continuation is allowed and blocks are merged,
the chunks of a text say what its lines say that are kept, in the same order; so does its script
with comments.

**Proof sketch.** Chunking adds each line that is kept to a chunk (`contents_cut`), and normalizing
takes away blank lines alone, which say nothing (`contents_normalize`). The lines of the script are
those of the chunks, with empty lines between them (`Script.contents_ofChunks`). -/
theorem Chunk.contents_normalize_cut (allow merge : Bool) (t : Text) :
    Text.contents ((normalize merge (cut allow t)).flatMap sourceLines) =
        Text.contents ((Text.lines t).filterMap Text.kept?) ∧
      Text.contents (Text.lines (Script.ofChunks true (normalize false (cut allow t)))) =
        Text.contents ((Text.lines t).filterMap Text.kept?) := by
  have hchunks (merge : Bool) :
      Text.contents ((normalize merge (cut allow t)).flatMap sourceLines) =
        Text.contents ((Text.lines t).filterMap Text.kept?) := by
    rw [contents_normalize merge (isIndented_cut allow t), contents_cut]
  refine ⟨hchunks merge, ?_⟩
  rw [Script.contents_ofChunks fun l hl => not_mem_of_mem_cut (mem_of_mem_normalize hl), hchunks]

end Weave
