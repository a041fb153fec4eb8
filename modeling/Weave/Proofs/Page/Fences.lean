import Weave.Chunk.Normalize
import Weave.Proofs.Page.Images
import Weave.Proofs.Page.Running
import Weave.Proofs.Text.Rows

set_option autoImplicit false
set_option relaxedAutoImplicit false

/-!
# Fences

Who reads a page takes for a block what stands between an opening line and the first closing line
after it. The code of a chunk and the text of a result are put between such lines as they are. So a
block is read as it was written if and only if none of its own lines is the closing line.

## Main definitions

* `Weave.Page.blockRows?` — the rows of a block, as they are read off a page.
* `Weave.Page.ofParts` — a page of chunks, each with the block that was run after it.
* `Weave.Page.upToCode`, `Weave.Page.upToResult` — where the blocks of a page begin.

## Main results

* `Weave.Page.blockRows?_upToCode`, `Weave.Page.blockRows?_upToResult` — what is read of the code of
  a chunk and of a result.
* `Weave.Page.blockRows?_eq_some_iff` — when it is what was written.
* `Weave.Page.blockRows?_ne_rows` — it need not be.

## Design

A page ends in one line feed, whatever line feeds its last part ends in. This takes away none of the
closing lines, as they do not end in a line feed themselves.
-/

namespace Weave

namespace Text

/-- **One line feed at the end** keeps every line that ends in another character.

**Proof sketch.** What is trimmed away consists of line feeds, so the character stands in what is
kept. Then the line feed after it is kept too, or is the one that is put at the end. -/
lemma exists_endInOneLineFeed_eq {t u v : Text} {c : Char} (ht : t = u ++ c :: '\n' :: v)
    (hc : c ≠ '\n') : ∃ w, endInOneLineFeed t = u ++ c :: '\n' :: w := by
  obtain ⟨z, hz, hfeeds⟩ := exists_eq_trimEndBy_append (p := (· == '\n')) t
  set body := trimEndBy (· == '\n') t with hbody
  have hsplit : body ++ z = (u ++ [c]) ++ '\n' :: v := by
    rw [← hz, ht, List.append_assoc]
    rfl
  -- The character stands in the body, as what is trimmed away are line feeds.
  obtain ⟨w, hw, hrest⟩ : ∃ w, body = (u ++ [c]) ++ w ∧ '\n' :: v = w ++ z := by
    rcases List.append_eq_append_iff.1 hsplit with ⟨w, hu, hzw⟩ | ⟨w, hu, hzw⟩
    · rcases List.eq_nil_or_concat w with rfl | ⟨w, d, rfl⟩
      · exact ⟨[], by simpa using hu.symm, by simpa using hzw.symm⟩
      · have hd : c = d := by
          rw [List.concat_eq_append, ← List.append_assoc] at hu
          exact (List.append_inj' hu rfl).2 |> List.singleton_inj.1
        have hmem : c ∈ z := by simp [hzw, hd]
        exact absurd (by simpa using hfeeds c hmem) hc
    · exact ⟨w, hu, hzw⟩
  have hne : body ≠ [] := by simp [hw]
  have hend : endInOneLineFeed t = body ++ ['\n'] := by
    rw [endInOneLineFeed, ← hbody]
    exact if_neg hne
  cases w with
  | nil => exact ⟨[], by simp [hend, hw]⟩
  | cons d w =>
    obtain ⟨rfl, -⟩ := List.cons.inj hrest
    exact ⟨w ++ ['\n'], by simp [hend, hw]⟩

/-- The rows of lines that are written before a text are those of the lines and those of the
text. -/
lemma rows_writeLines_append (ls : List Text) (t : Text) :
    rows (writeLines ls ++ t) = ls.flatMap rows ++ rows t := by
  induction ls with
  | nil => rfl
  | cons l ls ih =>
    have hl : writeLines (l :: ls) ++ t = l ++ '\n' :: (writeLines ls ++ t) := by
      simp [writeLines]
    rw [hl, rows_append, ih, List.flatMap_cons, List.append_assoc]

/-- **Lines are their own rows** up to the first closing line if and only if none of them is a
closing line or holds a line feed. -/
lemma takeWhile_flatMap_rows_eq_iff {close : Text} {ls : List Text} :
    (ls.flatMap rows).takeWhile (· ≠ close) = ls ↔ ∀ l ∈ ls, '\n' ∉ l ∧ l ≠ close := by
  constructor
  · intro h l hl
    rw [← h] at hl
    obtain ⟨m, -, hrow⟩ := List.mem_flatMap.1 (List.takeWhile_subset _ hl)
    exact ⟨not_mem_of_mem_fields hrow, by simpa using List.mem_takeWhile_imp hl⟩
  · intro h
    have hrows : ls.flatMap rows = ls := by
      induction ls with
      | nil => rfl
      | cons l ls ih =>
        rw [List.forall_mem_cons] at h
        rw [List.flatMap_cons, rows_eq_singleton h.1.1, ih h.2, List.singleton_append]
    rw [hrows]
    exact List.takeWhile_eq_self_iff.2 fun l hl => by simpa using (h l hl).2

end Text

namespace Page

/-! ## Blocks as they are read -/

/-- **The rows of a block** whose opening line ends where the text `opened` ends that the page
begins with: the rows up to the first one that is the closing line, if there is one. -/
def blockRows? (close opened page : Text) : Option (List Text) :=
  (Text.stripPrefix? opened page).bind fun rest =>
    if (Text.rows rest).contains close then some ((Text.rows rest).takeWhile (· ≠ close)) else none

/-- **A block that is closed** is read up to the first of its rows that is the closing line. -/
lemma blockRows?_eq {close opened rest : Text} {rs more : List Text}
    (h : Text.rows rest = rs ++ close :: more) :
    blockRows? close opened (opened ++ rest) = some (rs.takeWhile (· ≠ close)) := by
  have hstrip : Text.stripPrefix? opened (opened ++ rest) = some rest :=
    Text.stripPrefix?_eq_some_iff.2 rfl
  have hmem : (Text.rows rest).contains close = true := by simp [h]
  have htake : (rs ++ close :: more).takeWhile (· ≠ close) = rs.takeWhile (· ≠ close) := by
    rw [List.takeWhile_append]
    split
    next hall =>
      rw [List.takeWhile_cons_of_neg (by simp), List.append_nil,
        (List.takeWhile_prefix _).eq_of_length hall]
    next => rfl
  rw [blockRows?, hstrip, Option.bind_some, if_pos hmem, h, htake]

/-! ## Pages in parts -/

variable {σ ν ε ω : Type}

/-- A chunk, and the block that was run after it, if one was. -/
abbrev Part := Chunk × Option Block

/-- Parts as they stand on the page. -/
def partsText (s : Settings) (parts : List Part) : Text :=
  parts.flatMap fun (c, block?) => chunkText s c ++ blockText block? ++ ['\n']

/-- **The page of chunks**, each with the block that was run after it. -/
def ofParts (s : Settings) (parts : List Part) : Text :=
  Text.endInOneLineFeed (header s ++ partsText s parts)

/-- **A page up to the code of a chunk** that comes after some parts: the end of the line that opens
it. -/
def upToCode (s : Settings) (before : List Part) (continuation : Continuation) : Text :=
  let mark := if continuation = .continued then continuationMark else []
  header s ++ partsText s before ++ s.fence.1 ++ mark ++ ['\n']

/-- **A page up to the result after a chunk** that comes after some parts: the end of its opening
line. -/
def upToResult (s : Settings) (before : List Part) (c : Chunk) : Text :=
  header s ++ partsText s before ++ chunkText s c ++ '\n' :: plainFence ++ ['\n']

/-- What is shown after the chunks of a page makes it a page of parts. -/
lemma assemble_map_blockText (s : Settings) (cs : List Chunk) (blocks : List (Option Block)) :
    assemble s cs (blocks.map blockText) = ofParts s (cs.zip blocks) := by
  rw [assemble, List.zip_map_right, List.flatMap_map, ofParts, partsText]
  rfl

/-- Nothing is shown after the chunks of a page whose code is not run. -/
lemma ofChunks_eq_ofParts (s : Settings) (cs : List Chunk) :
    ofChunks s cs = ofParts s (cs.map fun c => (c, none)) := by
  have hzip : cs.zip (cs.map fun _ => (none : Option Block)) = cs.map fun c => (c, none) := by
    induction cs with
    | nil => rfl
    | cons c cs ih => simpa using ih
  have hshown : (cs.map fun _ => ([] : Text)) = (cs.map fun _ => none).map blockText := by
    simp [blockText]
  rw [ofChunks, hshown, assemble_map_blockText, hzip]

/-- **The blocks of a run without a fault**, and what is shown of them.

**Proof sketch.** Induction on the sections. A section without code shows nothing. The block of any
other section is run to its end, as there is no fault, and the run goes on in the state that it
leaves. -/
lemma exists_outcomes_of_executeAll {sandbox : Sandbox σ ν ε} {ss : List Section} {state : σ}
    (h : (executeAll sandbox (ss.filterMap Section.code?) state).fault? = none) :
    ∃ blocks, outcomes sandbox ss state = .ok blocks ∧ blocks.length = ss.length ∧
      shownOf sandbox ss (executeAll sandbox (ss.filterMap Section.code?) state).done =
        blocks.map blockText := by
  induction ss generalizing state with
  | nil => exact ⟨[], rfl, rfl, rfl⟩
  | cons s ss ih =>
    obtain ⟨chunk, code?⟩ := s
    cases code? with
    | none =>
      obtain ⟨blocks, hblocks, hlength, hshown⟩ := ih h
      refine ⟨none :: blocks, ?_, congrArg Nat.succ hlength, congrArg ([] :: ·) hshown⟩
      rw [outcomes, hblocks]
      rfl
    | some code =>
      have hcodes : (Section.mk chunk (some code) :: ss).filterMap Section.code? =
          code :: ss.filterMap Section.code? := rfl
      rw [hcodes] at h ⊢
      rcases hrun : execute sandbox code state with ⟨fault | done, next⟩
      · rw [executeAll_cons_of_error hrun] at h
        cases h
      · rw [executeAll_cons_of_ok hrun] at h ⊢
        obtain ⟨blocks, hblocks, hlength, hshown⟩ := ih h
        refine ⟨some ⟨code, Shown.ofBlock sandbox done⟩ :: blocks, ?_,
          congrArg Nat.succ hlength, ?_⟩
        · rw [outcomes]
          simp only [hrun, hblocks]
          rfl
        · exact congrArg ((Shown.ofBlock sandbox done).text code :: ·) hshown

/-- **A page whose code is run** is a page of the chunks and the blocks that were run after them.

**Proof sketch.** The page is made, so all images were saved and no block has faulted. Then the page
is assembled from what the blocks show (`ofRunChunks_eq`, `exists_outcomes_of_executeAll`). -/
lemma exists_ofParts_of_ofRunChunks {write : Text → Bytes → StateM ω (Except FileFault Unit)}
    {sandbox : Sandbox σ ν ε} {state : σ} {s : Settings} {cs : List Chunk} {world last : ω}
    {page : Text} (h : ofRunChunks write sandbox state s cs world = (.ok page, last)) :
    ∃ blocks, outcomes sandbox (sections [] cs) state = .ok blocks ∧ blocks.length = cs.length ∧
      page = ofParts s (cs.zip blocks) := by
  have hpage : (ofRunChunks write sandbox state s cs world).1 = .ok page := by rw [h]
  have hsaved : ∀ fault,
      (ofRunChunks write sandbox state s cs world).1 ≠ .error (.file fault) := by
    intro fault hfault
    rw [hpage] at hfault
    cases hfault
  have hran := ofRunChunks_eq hsaved
  rw [hpage, ofRan] at hran
  split at hran
  next => cases hran
  next hfault =>
    obtain ⟨blocks, hblocks, hlength, hshown⟩ := exists_outcomes_of_executeAll hfault
    have hsections : (sections [] cs).length = cs.length := by
      rw [← List.length_map (f := Section.chunk), map_chunk_sections]
    refine ⟨blocks, hblocks, hlength.trans hsections, ?_⟩
    rw [← assemble_map_blockText, ← hshown]
    exact Except.ok.inj hran

/-! ## What is read off a page -/

variable {s : Settings} {parts before after : List Part}

/-- The closing line of the code of a page, unless it is chosen freely. -/
lemma fence_snd (hs : s.codeFence? = none) : s.fence.2 = plainFence := by
  rw [Settings.fence, hs]
  cases s.documenter <;> rfl

/-- The page of parts in the middle of which a closing line is ended. -/
lemma exists_ofParts_eq {opened rest more : Text}
    (h : header s ++ partsText s parts = opened ++ (rest ++ plainFence ++ '\n' :: more)) :
    ∃ w, ofParts s parts = opened ++ (rest ++ plainFence ++ '\n' :: w) := by
  have hfence : plainFence = "``".toList ++ ['`'] := rfl
  obtain ⟨w, hw⟩ := Text.exists_endInOneLineFeed_eq (t := header s ++ partsText s parts)
    (u := opened ++ rest ++ "``".toList) (c := '`') (v := more)
    (by rw [h, hfence]; simp) (by decide)
  exact ⟨w, by rw [ofParts, hw, hfence]; simp⟩

/-- A closing line on a line of its own is a row of its own. -/
lemma rows_append_plainFence (t w : Text) :
    Text.rows (t ++ '\n' :: (plainFence ++ '\n' :: w)) =
      Text.rows t ++ plainFence :: Text.rows w := by
  rw [Text.rows_append, Text.rows_cons (by decide)]

/-- **What is read of the code of a chunk**: the rows of its lines up to the first closing line. -/
theorem blockRows?_upToCode (hs : s.codeFence? = none) {lines : List Text}
    {continuation : Continuation} {block? : Option Block}
    (hparts : parts = before ++ (.code lines continuation, block?) :: after) :
    blockRows? plainFence (upToCode s before continuation) (ofParts s parts) =
      some ((lines.flatMap Text.rows).takeWhile (· ≠ plainFence)) := by
  have hpage : header s ++ partsText s parts = upToCode s before continuation ++
      (Text.writeLines lines ++ plainFence ++
        '\n' :: (blockText block? ++ '\n' :: partsText s after)) := by
    simp [hparts, partsText, upToCode, chunkText, fence_snd hs, Text.writeLines]
  obtain ⟨w, hw⟩ := exists_ofParts_eq hpage
  have hrows : Text.rows (Text.writeLines lines ++ plainFence ++ '\n' :: w) =
      lines.flatMap Text.rows ++ plainFence :: Text.rows w := by
    rw [List.append_assoc, Text.rows_writeLines_append, Text.rows_cons (by decide)]
  rw [hw]
  exact blockRows?_eq hrows

/-- **What is read of a result**: the rows of its text up to the first closing line. -/
theorem blockRows?_upToResult {c : Chunk} {code t : Text}
    (hparts : parts = before ++ (c, some ⟨code, .plain t⟩) :: after) :
    blockRows? plainFence (upToResult s before c) (ofParts s parts) =
      some ((Text.rows (t.trimEndBy (· == '\n'))).takeWhile (· ≠ plainFence)) := by
  set shown := t.trimEndBy (· == '\n') with hshown
  have hpage : header s ++ partsText s parts = upToResult s before c ++
      ((shown ++ ['\n']) ++ plainFence ++ '\n' :: '\n' :: partsText s after) := by
    simp [hparts, partsText, upToResult, blockText, Shown.text, ← hshown]
  obtain ⟨w, hw⟩ := exists_ofParts_eq hpage
  have hrows : Text.rows (shown ++ ['\n'] ++ plainFence ++ '\n' :: w) =
      Text.rows shown ++ plainFence :: Text.rows w := by
    rw [← rows_append_plainFence]
    simp
  rw [hw]
  exact blockRows?_eq hrows

/-- **The code of a chunk is read as it was written** if and only if none of its lines is the line
that closes it or holds a line feed. -/
lemma blockRows?_upToCode_eq_lines_iff (hs : s.codeFence? = none) {lines : List Text}
    {continuation : Continuation} {block? : Option Block}
    (hparts : parts = before ++ (.code lines continuation, block?) :: after) :
    blockRows? plainFence (upToCode s before continuation) (ofParts s parts) = some lines ↔
      ∀ l ∈ lines, '\n' ∉ l ∧ l ≠ plainFence := by
  rw [blockRows?_upToCode hs hparts, Option.some.injEq]
  exact Text.takeWhile_flatMap_rows_eq_iff

/-- **A result is read as it was written** if and only if none of its rows is the closing line. -/
lemma blockRows?_upToResult_eq_rows_iff {c : Chunk} {code t : Text}
    (hparts : parts = before ++ (c, some ⟨code, .plain t⟩) :: after) :
    blockRows? plainFence (upToResult s before c) (ofParts s parts) =
        some (Text.rows (t.trimEndBy (· == '\n'))) ↔
      plainFence ∉ Text.rows (t.trimEndBy (· == '\n')) := by
  rw [blockRows?_upToResult hparts, Option.some.injEq, List.takeWhile_eq_self_iff]
  constructor
  · intro h hmem
    simpa using h plainFence hmem
  · intro h row hrow
    have hne : row ≠ plainFence := fun heq => h (heq ▸ hrow)
    simpa using hne

/-- **When the blocks of a page are read as they were written.** On a page whose fences are not
chosen freely, the rows from the opening line of a chunk of code up to the first closing line are
the lines of the chunk if and only if none of these is the closing line or holds a line feed. If the
code is run, the rows from the opening line of a plain result up to the first closing line are those
of its text, without the line feeds at the end, if and only if none of these is the closing line.

**Proof sketch.** A page is made of parts, with results or without (`ofChunks_eq_ofParts`,
`exists_ofParts_of_ofRunChunks`). Cut after an opening line, it goes on with the lines of the block
and the closing line, so the rows up to the first closing line are these lines exactly if none of
them is the closing line or holds a line feed. -/
theorem blockRows?_eq_some_iff (hs : s.codeFence? = none) (cs : List Chunk) :
    (∀ before lines continuation after, cs = before ++ .code lines continuation :: after →
      (blockRows? plainFence (upToCode s (before.map fun c => (c, none)) continuation)
          (ofChunks s cs) = some lines ↔
        ∀ l ∈ lines, '\n' ∉ l ∧ l ≠ plainFence)) ∧
    ∀ (write : Text → Bytes → StateM ω (Except FileFault Unit)) (sandbox : Sandbox σ ν ε)
      (state : σ) (world last : ω) (page : Text),
      ofRunChunks write sandbox state s cs world = (.ok page, last) →
      ∃ blocks, outcomes sandbox (sections [] cs) state = .ok blocks ∧
        blocks.length = cs.length ∧
        (∀ before lines continuation block? after,
          cs.zip blocks = before ++ (.code lines continuation, block?) :: after →
          (blockRows? plainFence (upToCode s before continuation) page = some lines ↔
            ∀ l ∈ lines, '\n' ∉ l ∧ l ≠ plainFence)) ∧
        ∀ before c code t after, cs.zip blocks = before ++ (c, some ⟨code, .plain t⟩) :: after →
          (blockRows? plainFence (upToResult s before c) page =
              some (Text.rows (t.trimEndBy (· == '\n'))) ↔
            plainFence ∉ Text.rows (t.trimEndBy (· == '\n'))) := by
  refine ⟨fun before lines continuation after hcs => ?_, ?_⟩
  · have hparts : (cs.map fun c => ((c, none) : Part)) =
        (before.map fun c => (c, none)) ++
          (.code lines continuation, none) :: after.map fun c => (c, none) := by
      rw [hcs, List.map_append, List.map_cons]
    rw [ofChunks_eq_ofParts]
    exact blockRows?_upToCode_eq_lines_iff hs hparts
  · intro write sandbox state world last page hrun
    obtain ⟨blocks, hblocks, hlength, rfl⟩ := exists_ofParts_of_ofRunChunks hrun
    refine ⟨blocks, hblocks, hlength, ?_, ?_⟩
    · intro before lines continuation block? after hparts
      exact blockRows?_upToCode_eq_lines_iff hs hparts
    · intro before c code t after hparts
      exact blockRows?_upToResult_eq_rows_iff hparts

/-- A program that prints a text of three lines, the second of which is `middle`. -/
def printing (middle : Text) : Chunk :=
  .code ["println(\"".toList, middle, "\")".toList] .terminated

/-- Lines that only begin like the closing line do not close a block. -/
theorem blockRows?_eq_some_nearlyClosed :
    let cs := [printing "```lit".toList]
    let page := "```lit\nprintln(\"\n```lit\n\")\n```\n\n```\n\n```lit\n```\n".toList
    ({} : Settings).codeFence? = none ∧
      (∃ last, ofRunChunks (writeInto []) Lit.sandbox {} {} cs Tree.bare = (.ok page, last)) ∧
      blockRows? plainFence (upToCode {} [] .terminated) page =
        some ["println(\"".toList, "```lit".toList, "\")".toList] ∧
      blockRows? plainFence (upToResult {} [] (printing "```lit".toList)) page =
        some [[], "```lit".toList] := by
  intro cs page
  obtain ⟨last, hrun⟩ : ∃ last,
      ofRunChunks (writeInto []) Lit.sandbox {} {} cs Tree.bare = (.ok page, last) :=
    ⟨_, Prod.ext (eq_ok_of_toOption (by decide +kernel)) rfl⟩
  have houtcomes : outcomes Lit.sandbox (sections [] cs) {} =
      .ok [some ⟨"println(\"\n```lit\n\")".toList, .plain "\n```lit\n\n".toList⟩] :=
    eq_ok_of_toOption (by decide +kernel)
  obtain ⟨-, hread⟩ := blockRows?_eq_some_iff (s := {}) rfl cs
  obtain ⟨blocks, hblocks, -, hcode, hresult⟩ := hread _ _ _ _ _ _ hrun
  cases hblocks.symm.trans houtcomes
  refine ⟨rfl, ⟨last, hrun⟩, ?_, ?_⟩
  · exact (hcode [] _ _ _ [] rfl).2 (by decide)
  · exact (hresult [] _ _ _ [] rfl).2 (by decide)

/-- **A block need not be read as it was written**: a closing line in it ends it, be it in the code
of a chunk or in what is shown of it. -/
theorem blockRows?_ne_rows :
    let cs := [printing plainFence]
    let page := "```lit\nprintln(\"\n```\n\")\n```\n\n```\n\n```\n```\n".toList
    Chunk.normalize false cs = cs ∧ ({} : Settings).codeFence? = none ∧
      (∃ last, ofRunChunks (writeInto []) Lit.sandbox {} {} cs Tree.bare = (.ok page, last)) ∧
      outcomes Lit.sandbox (sections [] cs) {} =
        .ok [some ⟨"println(\"\n```\n\")".toList, .plain "\n```\n\n".toList⟩] ∧
      blockRows? plainFence (upToCode {} [] .terminated) page = some ["println(\"".toList] ∧
      blockRows? plainFence (upToResult {} [] (printing plainFence)) page = some [[]] := by
  intro cs page
  refine ⟨by decide, rfl, ?run, ?shown, by decide, by decide⟩
  case run => exact ⟨_, Prod.ext (eq_ok_of_toOption (by decide +kernel)) rfl⟩
  case shown => exact eq_ok_of_toOption (by decide +kernel)

end Page

end Weave
