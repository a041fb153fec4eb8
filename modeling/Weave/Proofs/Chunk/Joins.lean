import Weave.Proofs.Chunk.Merging

set_option autoImplicit false
set_option relaxedAutoImplicit false

/-!
# Marks that join code

A mark that joins makes the block of code before it go on. It is put on the newest chunk of code,
and this need not be the one with the last line of code that was written: a mark that cuts begins a
new chunk of code when it comes after code, and a blank line does when it comes after prose. Such a
chunk has nothing in it, and the mark is lost with it.

## Main definitions

* `Weave.SourceLine.writtenCode`, `Weave.Chunk.writtenCode` — lines of code that are not empty.
* `Weave.SourceLine.joinsCode` — whether a mark that joins reaches back to the code before.

## Main results

* `Weave.Chunk.foldl_addLine_append` — lines leave the chunks below the newest code as they are.
* `Weave.Chunk.exists_foldl_addLine_joins` — the chunk of code that lines up to a mark follow.
* `Weave.Chunk.isContinued_iff_joinsCode` — when the code before a mark that joins goes on.
* `Weave.Chunk.not_isContinued_blankAfterProse` — it need not go on.
-/

namespace Weave

/-! ## Lines -/

/-- The line of code that a line of a source adds, if it is not empty. -/
def SourceLine.writtenCode : SourceLine → List Text
  | code line => [line].filter fun l => !l.isEmpty
  | _ => []

/-- Whether the next mark that joins, in lines that follow prose, comes before any line of code. -/
def SourceLine.joinsOverProse : List SourceLine → Bool
  | [] => false
  | join :: _ => true
  | code _ :: _ => false
  | cut :: ls => joinsOverProse ls
  | prose _ :: ls => joinsOverProse ls

/-- **Whether the next mark that joins reaches back**, in lines that follow a line of code, to the
chunk of this line. After more code it still does, after prose no line of code may come before it,
and a mark that cuts begins another chunk of code. -/
def SourceLine.joinsCode : List SourceLine → Bool
  | [] => false
  | join :: _ => true
  | cut :: _ => false
  | code _ :: ls => joinsCode ls
  | prose _ :: ls => joinsOverProse ls

/-- What comes after a mark that joins makes no difference to it. -/
lemma SourceLine.joinsOverProse_append_join (between after : List SourceLine) :
    joinsOverProse (between ++ join :: after) = joinsOverProse (between ++ [join]) := by
  induction between with
  | nil => rfl
  | cons l between ih => cases l <;> first | rfl | exact ih

namespace Chunk

/-- The lines of code of a chunk that are not empty. -/
def writtenCode (c : Chunk) : List Text :=
  c.codeLines.filter fun l => !l.isEmpty

variable {allow : Bool} {l : Text} {between after : List SourceLine}

/-! ## Chunks below the newest code -/

/-- Among chunks with code the first one is found whatever comes after them. -/
lemma continueFirstCode_append {front : List Chunk} (h : front.any isCode = true)
    (rest : List Chunk) : continueFirstCode (front ++ rest) = continueFirstCode front ++ rest := by
  induction front with
  | nil => cases h
  | cons c front ih =>
    cases c with
    | prose lines => exact congrArg (prose lines :: ·) (ih h)
    | code lines continuation => rfl

/-- Chunks of prose are passed over. -/
lemma continueFirstCode_append_code {front : List Chunk} (h : front.any isCode = false)
    (lines : List Text) (continuation : Continuation) (rest : List Chunk) :
    continueFirstCode (front ++ code lines continuation :: rest) =
      front ++ code lines .continued :: rest := by
  induction front with
  | nil => rfl
  | cons c front ih =>
    cases c with
    | prose lines => exact congrArg (prose lines :: ·) (ih h)
    | code lines continuation => cases h

/-- There is still code among chunks when a line has been added. -/
lemma any_isCode_addLine {front : List Chunk} (h : front.any isCode = true) (l : SourceLine) :
    (addLine allow front l).any isCode = true := by
  cases l with
  | cut => simp [addLine, h]
  | join => rfl
  | prose line =>
    unfold addLine
    dsimp only
    split <;> simpa [isCode] using h
  | code line =>
    unfold addLine
    dsimp only
    split <;> simp [isCode]

/-- A line leaves the chunks below the newest code as they are. -/
lemma addLine_append {front : List Chunk} (h : front.any isCode = true) (rest : List Chunk)
    (l : SourceLine) : addLine allow (front ++ rest) l = addLine allow front l ++ rest := by
  obtain ⟨c, cs, rfl⟩ : ∃ c cs, front = c :: cs :=
    List.exists_cons_of_ne_nil (by rintro rfl; cases h)
  cases l with
  | cut => rfl
  | join =>
    cases allow with
    | false => rfl
    | true => exact congrArg (noCode :: ·) (continueFirstCode_append h rest)
  | prose line => cases c <;> rfl
  | code line => cases c <;> rfl

/-- **Lines leave the chunks below the newest code** as they are. -/
theorem foldl_addLine_append {front : List Chunk} (h : front.any isCode = true)
    (rest : List Chunk) (ls : List SourceLine) :
    ls.foldl (addLine allow) (front ++ rest) = ls.foldl (addLine allow) front ++ rest := by
  induction ls generalizing front with
  | nil => rfl
  | cons l ls ih =>
    rw [List.foldl_cons, addLine_append h, ih (any_isCode_addLine h l), List.foldl_cons]

/-! ## The chunk before a mark -/

/-- The mark that says that code goes on, if it is put on. -/
def markedIf (joins : Bool) (continuation : Continuation) : Continuation :=
  if joins then .continued else continuation

/-- **Code with prose after it** is marked if the next mark that joins comes before any line of
code.

**Proof sketch.** By the lines. Prose and marks that cut put chunks of prose before the code. The
first line of code and the first mark that joins begin a chunk of code, and from then on the code
below is left as it is. -/
lemma exists_foldl_addLine_prose (ls : List SourceLine) (ps : List ProseLine) (front : List Chunk)
    (hfront : front.any isCode = false) (lines : List Text) (continuation : Continuation)
    (rest : List Chunk) :
    ∃ newer, ls.foldl (addLine true) (prose ps :: (front ++ code lines continuation :: rest)) =
      newer ++ code lines (markedIf (SourceLine.joinsOverProse ls) continuation) :: rest := by
  have hprose (ps : List ProseLine) : (prose ps :: front).any isCode = false := hfront
  induction ls generalizing ps front with
  | nil => exact ⟨prose ps :: front, rfl⟩
  | cons l ls ih =>
    rw [List.foldl_cons]
    cases l with
    | cut => exact ih [] (prose ps :: front) (hprose ps) fun _ => hprose ps
    | prose p => exact ih (ps ++ [p]) front hfront hprose
    | join =>
      have hjoin : addLine true (prose ps :: (front ++ code lines continuation :: rest)) .join =
          (noCode :: prose ps :: front) ++ code lines .continued :: rest :=
        congrArg (noCode :: ·)
          (continueFirstCode_append_code (hprose ps) lines continuation rest)
      rw [hjoin, foldl_addLine_append rfl]
      exact ⟨_, rfl⟩
    | code line =>
      have hcode : addLine true (prose ps :: (front ++ code lines continuation :: rest))
          (.code line) = (code [line] .terminated :: prose ps :: front) ++
            code lines continuation :: rest := rfl
      rw [hcode, foldl_addLine_append rfl]
      exact ⟨_, rfl⟩

/-- Below a chunk of code that a mark begins, code is left as it is. -/
lemma exists_foldl_addLine_noCode (ls : List SourceLine) (lines : List Text)
    (continuation : Continuation) (rest : List Chunk) :
    ∃ newer blanks, (∀ line ∈ blanks, line = []) ∧
      ls.foldl (addLine allow) (noCode :: code lines continuation :: rest) =
        newer ++ code (lines ++ blanks) continuation :: rest := by
  have hfront : [noCode].any isCode = true := rfl
  refine ⟨ls.foldl (addLine allow) [noCode], [], List.forall_mem_nil _, ?_⟩
  rw [List.append_nil]
  exact foldl_addLine_append hfront _ ls

/-- **The chunk of code that lines up to a mark that joins follow**: blank lines of code are added
to it, and it is marked if the mark reaches back to it. What comes after the mark leaves it as it
is.

**Proof sketch.** Induction on the lines before the mark. A blank line of code is added to the
chunk. A mark decides at once, and with prose the mark joins over it (`exists_foldl_addLine_prose`);
after either nothing more is added to the chunk. -/
theorem exists_foldl_addLine_joins (hbetween : ∀ line, .code line ∈ between → line = [])
    (after : List SourceLine) (lines : List Text) (continuation : Continuation)
    (rest : List Chunk) :
    ∃ newer blanks, (∀ line ∈ blanks, line = []) ∧
      (between ++ .join :: after).foldl (addLine true) (code lines continuation :: rest) =
        newer ++ code (lines ++ blanks)
          (markedIf (SourceLine.joinsCode (between ++ [.join])) continuation) :: rest := by
  induction between generalizing lines with
  | nil => exact exists_foldl_addLine_noCode after lines .continued rest
  | cons l between ih =>
    have hrest : ∀ line, .code line ∈ between → line = [] := fun line hline =>
      hbetween line (List.mem_cons_of_mem l hline)
    rw [List.cons_append, List.foldl_cons]
    cases l with
    | cut => exact exists_foldl_addLine_noCode _ lines continuation rest
    | join => exact exists_foldl_addLine_noCode _ lines .continued rest
    | prose p =>
      obtain ⟨newer, hnewer⟩ := exists_foldl_addLine_prose (between ++ .join :: after) [p] [] rfl
        lines continuation rest
      rw [SourceLine.joinsOverProse_append_join] at hnewer
      exact ⟨newer, [], List.forall_mem_nil _, by rw [List.append_nil]; exact hnewer⟩
    | code line =>
      obtain rfl := hbetween line List.mem_cons_self
      obtain ⟨newer, blanks, hblanks, hfold⟩ := ih hrest (lines ++ [[]])
      rw [List.append_assoc] at hfold
      exact ⟨newer, [] :: blanks, List.forall_mem_cons.2 ⟨rfl, hblanks⟩, hfold⟩

/-- The newest chunk is never marked. -/
lemma isContinued_newest_addLine {newest : List Chunk}
    (h : newest.head?.any isContinued = false) (l : SourceLine) :
    (addLine allow newest l).head?.any isContinued = false := by
  cases l with
  | cut =>
    rcases newest with _ | ⟨_ | _, _⟩ <;> rfl
  | join => rfl
  | prose line =>
    unfold addLine
    dsimp only
    split <;> rfl
  | code line =>
    unfold addLine
    dsimp only
    split
    next lines continuation cs => cases continuation <;> exact h
    next => rfl

/-- **Cutting keeps every line of code** that is not empty. -/
lemma flatMap_writtenCode_foldl_addLine (allow : Bool) (ls : List SourceLine)
    (first : Option SourceLine) :
    (ls.foldl (addLine allow) [firstFor first]).reverse.flatMap writtenCode =
      ls.flatMap SourceLine.writtenCode := by
  have hchunk : writtenCode = gather (fun _ => []) fun l => [l].filter fun l => !l.isEmpty := by
    funext c
    cases c with
    | prose lines => simp [writtenCode, codeLines, gather]
    | code lines continuation =>
      rw [writtenCode, codeLines, gather, ← List.filter_flatMap, List.flatMap_singleton']
  have hline : SourceLine.writtenCode =
      SourceLine.gather (fun _ => []) fun l => [l].filter fun l => !l.isEmpty := by
    funext l
    cases l <;> rfl
  rw [hchunk, hline, gather_foldl_addLine, gather_firstFor, List.nil_append]

/-- A line of code ends the newest chunk, which is not marked. -/
lemma exists_addLine_code (allow : Bool) (before : List SourceLine) (first : Option SourceLine)
    (l : Text) :
    ∃ lines older, addLine allow (before.foldl (addLine allow) [firstFor first]) (.code l) =
      code (lines ++ [l]) .terminated :: older := by
  have hunmarked :
      (before.foldl (addLine allow) [firstFor first]).head?.any isContinued = false := by
    have hfirst : [firstFor first].head?.any isContinued = false := by
      unfold firstFor
      split <;> rfl
    generalize [firstFor first] = newest at hfirst ⊢
    induction before generalizing newest with
    | nil => exact hfirst
    | cons b before ih => exact ih _ (isContinued_newest_addLine hfirst b)
  generalize before.foldl (addLine allow) [firstFor first] = newest at hunmarked ⊢
  rcases newest with _ | ⟨lines | ⟨lines, _ | _⟩, older⟩
  · exact ⟨[], [], rfl⟩
  · exact ⟨[], prose lines :: older, rfl⟩
  · exact ⟨lines, older, rfl⟩
  · cases hunmarked

/-! ## Normal form -/

/-- Empty lines at the end are trimmed away, and a line that is not empty stops trimming. -/
lemma trimList_append_blanks {blanks : List Text} (hblanks : ∀ line ∈ blanks, line = [])
    (hl : l ≠ []) (lines : List Text) :
    trimList List.isEmpty (lines ++ [l] ++ blanks) = lines.dropWhile List.isEmpty ++ [l] := by
  have hvisible : l.isEmpty = false := by simpa using hl
  induction blanks using List.reverseRecOn with
  | nil =>
    rw [List.append_nil, trimList, List.dropWhile_append]
    split
    next h =>
      rw [List.isEmpty_iff] at h
      simp [h, hvisible]
    next => simp [hvisible]
  | append_singleton blanks line ih =>
    rw [List.forall_mem_append, List.forall_mem_singleton] at hblanks
    rw [← List.append_assoc, trimList_concat (List.isEmpty_iff.2 hblanks.2), ih hblanks.1]

/-- Trimming blank lines keeps the lines of code that are not empty. -/
lemma writtenCode_trimBlank (c : Chunk) : c.trimBlank.writtenCode = c.writtenCode := by
  cases c with
  | prose lines => rfl
  | code lines continuation =>
    rw [writtenCode, writtenCode, ← List.filterMap_eq_filter]
    exact filterMap_trimList fun l _ hempty => by simp [Option.guard, hempty]

/-- A blank chunk has no line of code that is not empty. -/
lemma writtenCode_of_isBlank {c : Chunk} (h : c.isBlank = true) : c.writtenCode = [] := by
  cases c with
  | prose lines => rfl
  | code lines continuation =>
    rw [writtenCode, List.filter_eq_nil_iff]
    intro l hl
    simp [List.all_eq_true.1 h l hl]

/-- Dropping and trimming chunks keep the lines of code that are not empty. -/
lemma flatMap_writtenCode_trimmed (cs : List Chunk) :
    (trimmed cs).flatMap writtenCode = cs.flatMap writtenCode := by
  rw [trimmed, List.flatMap_map]
  induction cs with
  | nil => rfl
  | cons c cs ih =>
    rw [List.filter_cons, List.flatMap_cons, ← ih]
    cases hc : c.isBlank with
    | true => rw [writtenCode_of_isBlank hc]; rfl
    | false => rw [← writtenCode_trimBlank]; rfl

/-- Code that is broken off is marked chunk by chunk. -/
lemma exists_continueIndented_append (cs ds : List Chunk) :
    ∃ marked, continueIndented (cs ++ ds) = marked ++ continueIndented ds ∧
      marked.flatMap writtenCode = cs.flatMap writtenCode := by
  induction cs with
  | nil => exact ⟨[], rfl, rfl⟩
  | cons c cs ih =>
    obtain ⟨marked, hmarked, hwritten⟩ := ih
    cases c with
    | prose lines =>
      refine ⟨prose lines :: marked, congrArg (prose lines :: ·) hmarked, ?_⟩
      rw [List.flatMap_cons, hwritten, List.flatMap_cons]
    | code lines continuation =>
      rw [List.cons_append, continueIndented, hmarked]
      refine ⟨_ :: marked, rfl, ?_⟩
      rw [List.flatMap_cons, hwritten, List.flatMap_cons]
      rfl

/-- **A chunk of code in normal form**, whose last lines are blank, goes on if it is marked, or if
its last line that is not empty or the beginning of the next chunk of code is indented.

**Proof sketch.** Trimming splits at the chunk and takes its blank lines away
(`trimList_append_blanks`); marking splits there too (`exists_continueIndented_append`). Whether the
next chunk of code is indented does not depend on marks. -/
lemma exists_normalize_eq_append {blanks : List Text} (hblanks : ∀ line ∈ blanks, line = [])
    (hl : l ≠ []) (older newer : List Chunk) (lines : List Text) (continuation : Continuation) :
    ∃ ds visible last,
      normalize false (older ++ code (lines ++ [l] ++ blanks) continuation :: newer) =
        ds ++ code (visible ++ [l]) last :: normalize false newer ∧
      ds.flatMap writtenCode ++ writtenCode (code (visible ++ [l]) last) =
        older.flatMap writtenCode ++ writtenCode (code (lines ++ [l]) continuation) ∧
      (last = .continued ↔ continuation = .continued ∨ l.startsBlank = true ∨
        nextOpensIndented (normalize false newer) = true) := by
  have hnormal (cs : List Chunk) : normalize false cs = continueIndented (trimmed cs) := rfl
  have hblank : (code (lines ++ [l] ++ blanks) continuation).isBlank = false := by
    simp [isBlank, hl]
  have hends : endsIndented (lines.dropWhile List.isEmpty ++ [l]) = l.startsBlank := by
    simp [endsIndented]
  obtain ⟨marked, hmarked, hwritten⟩ := exists_continueIndented_append (trimmed older)
    (code (lines.dropWhile List.isEmpty ++ [l]) continuation :: trimmed newer)
  rw [continueIndented, hends] at hmarked
  refine ⟨marked, lines.dropWhile List.isEmpty,
    if l.startsBlank || nextOpensIndented (trimmed newer) then .continued else continuation,
    ?_, ?_, ?_⟩
  · rw [hnormal, ← List.singleton_append, trimmed_append, trimmed_append, trimmed_singleton, hblank,
      trimBlank, trimList_append_blanks hblanks hl]
    exact hmarked
  · have htrim : (code (lines ++ [l]) continuation).trimBlank =
        code (lines.dropWhile List.isEmpty ++ [l]) continuation := by
      have hedges := trimList_append_blanks (List.forall_mem_nil _) hl lines
      rw [List.append_nil] at hedges
      rw [trimBlank, hedges]
    rw [hwritten, flatMap_writtenCode_trimmed, ← writtenCode_trimBlank (code (lines ++ [l]) _),
      htrim]
    rfl
  · rw [hnormal, nextOpensIndented_continueIndented, ← Bool.or_eq_true]
    split
    next hgoesOn => simp [hgoesOn]
    next hends => simp [hends]

/-- **When the code before a mark that joins goes on.** Let a line of code that is not empty be
followed by blank lines of code, prose and marks, and then by a mark that joins. In normal form the
chunk that the line stands in goes on exactly if the first of the marks that join reaches back to
it, or an indented line stands where it is broken off.

**Proof sketch.** The line of code stands at the end of the newest chunk when it is read
(`exists_addLine_code`). What comes after it adds blank lines to that chunk and marks it if a mark
reaches back to it (`exists_foldl_addLine_joins`). Then `exists_normalize_eq_append` says when it
goes on in normal form. -/
theorem isContinued_iff_joinsCode {t : Text} {before : List SourceLine}
    (hlines : (Text.lines t).map SourceLine.ofText =
      before ++ .code l :: (between ++ .join :: after))
    (hl : l ≠ []) (hbetween : ∀ line, .code line ∈ between → line = []) :
    ∃ ds lines continuation es,
      normalize false (cut true t) = ds ++ code (lines ++ [l]) continuation :: es ∧
      (ds ++ [code (lines ++ [l]) continuation]).flatMap writtenCode =
        before.flatMap SourceLine.writtenCode ++ [l] ∧
      (continuation = .continued ↔ SourceLine.joinsCode (between ++ [.join]) = true ∨
        l.startsBlank = true ∨ nextOpensIndented es = true) := by
  obtain ⟨first, hcut⟩ : ∃ first, cut true t =
      ((between ++ .join :: after).foldl (addLine true)
        (addLine true (before.foldl (addLine true) [firstFor first]) (.code l))).reverse :=
    ⟨_, by rw [cut_eq, newestFirst, hlines, List.foldl_append, List.foldl_cons]⟩
  have hcode := flatMap_writtenCode_foldl_addLine true (before ++ [.code l]) first
  obtain ⟨lines, older, hline⟩ := exists_addLine_code true before first l
  obtain ⟨newer, blanks, hblanks, hjoin⟩ := exists_foldl_addLine_joins hbetween after
    (lines ++ [l]) .terminated older
  obtain ⟨ds, visible, last, hnormal, hwritten, hgoesOn⟩ := exists_normalize_eq_append hblanks hl
    older.reverse newer.reverse lines
    (markedIf (SourceLine.joinsCode (between ++ [.join])) .terminated)
  refine ⟨ds, visible, last, normalize false newer.reverse, ?_, ?_, ?_⟩
  · rw [hcut, hline, hjoin, List.reverse_append, List.reverse_cons, List.append_assoc,
      List.singleton_append, hnormal]
  · rw [List.foldl_append, List.foldl_cons, hline, List.foldl_nil, List.reverse_cons,
      List.flatMap_append, List.flatMap_singleton, List.flatMap_append,
      List.flatMap_singleton] at hcode
    have hlast : SourceLine.writtenCode (.code l) = [l] := by simp [SourceLine.writtenCode, hl]
    rw [hlast] at hcode
    rw [List.flatMap_append, List.flatMap_singleton, hwritten, ← hcode]
    rfl
  · rw [hgoesOn, markedIf]
    cases SourceLine.joinsCode (between ++ [.join]) <;> simp

/-- Prose alone stands before the mark. -/
theorem isContinued_iff_joinsCode_acrossProse :
    let t := "x = 1\n# between\n#+\ny = 2\n".toList
    (Text.lines t).map SourceLine.ofText =
        [] ++ .code "x = 1".toList :: ([.prose ⟨[], "between".toList⟩] ++
          .join :: [.code "y = 2".toList]) ∧
      ∃ ds lines es, normalize false (cut true t) =
          ds ++ code (lines ++ ["x = 1".toList]) .continued :: es ∧
        (ds ++ [code (lines ++ ["x = 1".toList]) .continued]).flatMap writtenCode =
          ["x = 1".toList] := by
  intro t
  have hlines : (Text.lines t).map SourceLine.ofText =
      [] ++ .code "x = 1".toList :: ([.prose ⟨[], "between".toList⟩] ++
        .join :: [.code "y = 2".toList]) := by decide
  refine ⟨hlines, ?_⟩
  obtain ⟨ds, lines, continuation, es, hnormal, hwritten, hgoesOn⟩ :=
    isContinued_iff_joinsCode hlines (by decide) (by simp)
  obtain rfl : continuation = .continued := hgoesOn.2 (.inl rfl)
  exact ⟨ds, lines, es, hnormal, hwritten⟩

/-- **The code before a mark that joins need not go on**: a blank line between prose and the mark
begins a chunk of code of its own, which takes the mark and is dropped. -/
theorem not_isContinued_blankAfterProse :
    let t := "x = 1\n# between\n\n#+\ny = 2\n".toList
    (Text.lines t).map SourceLine.ofText =
        [.code "x = 1".toList, .prose ⟨[], "between".toList⟩, .code [], .join,
          .code "y = 2".toList] ∧
      normalize false (cut true t) =
        [code ["x = 1".toList] .terminated, prose [⟨[], "between".toList⟩],
          code ["y = 2".toList] .terminated] := by
  decide

/-- A mark that cuts does the same between code and the mark. -/
example :
    normalize false (cut true "x = 1\n#-\n#+\ny = 2\n".toList) =
      [code ["x = 1".toList] .terminated, code ["y = 2".toList] .terminated] := by
  decide

end Chunk

end Weave
