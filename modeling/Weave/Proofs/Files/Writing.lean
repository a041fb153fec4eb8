import Weave.Proofs.Files.Growth

set_option autoImplicit false
set_option relaxedAutoImplicit false

/-!
# Writing files into a directory

A file that is written can be read, by every path that leads to it, and the other files are not
touched. So after any number of writes into a directory a file holds what was written into it last.
Two names of a directory lead to different files, unless a link or a further name of a file makes
them one.

## Main definitions

* `Weave.Tree.sameFile` — whether two paths lead to one file.
* `Weave.Tree.Plain`, `Weave.Tree.bare` — a tree without links and further names of files.
* `Weave.Tree.writeFiles` — writes files into a directory, one after another.
* `Weave.Tree.lastContents` — what was written last into one of some files.

## Main results

* `Weave.Tree.read_write` — what is written can be read.
* `Weave.Tree.read_write_of_read` — by another path too, if it leads to the same file.
* `Weave.Tree.read_writeFiles` — after many writes the last one counts.
* `Weave.Tree.read_writeFiles_of_plain` — in a plain tree, the last one under the same name.
-/

namespace Weave.Tree

variable {tree next last : Tree} {path other directory name : Text} {contents held : Bytes}

/-! ## One file -/

/-- What is read is what the file holds that the path leads to. -/
lemma read_eq_ok_iff :
    tree.read path = .ok contents ↔
      ∃ place, tree.find path = .ok place ∧ tree.fileAt? place = some contents := by
  rw [read]
  cases tree.find path with
  | error fault => simp
  | ok place =>
    simp only [Except.ok.injEq, exists_eq_left', fileAt?]
    cases tree.get? place with
    | none => simp
    | some node => cases node <;> simp

/-- **Whether two paths lead to one file**, or to one directory. -/
def sameFile (tree : Tree) (path other : Text) : Bool :=
  match tree.find path, tree.find other with
  | .ok place, .ok place' => tree.keptAt place == tree.keptAt place'
  | _, _ => false

/-- Two paths that are found lead to one file if their places are names of one. -/
lemma sameFile_iff {place place' : Place} (hpath : tree.find path = .ok place)
    (hother : tree.find other = .ok place') :
    tree.sameFile path other = true ↔ tree.keptAt place = tree.keptAt place' := by
  rw [sameFile, hpath, hother]
  exact beq_iff_eq

/-- Paths that lead to one file go on to do so, and others do not come to do so. -/
lemma Grows.sameFile_eq {place place' : Place} (h : tree.Grows next)
    (hpath : tree.find path = .ok place) (hother : tree.find other = .ok place') :
    next.sameFile path other = tree.sameFile path other := by
  rw [Bool.eq_iff_iff, sameFile_iff hpath hother,
    sameFile_iff (h.find_eq_ok hpath) (h.find_eq_ok hother), h.keptAt_eq, h.keptAt_eq]

/-- **What is written can be read.** -/
theorem read_write (h : tree.write path contents = .ok next) :
    next.read path = .ok contents := by
  obtain ⟨place, rfl, hfree, hfind⟩ := write_eq_ok h
  exact read_eq_ok_iff.2 ⟨place, hfind, by rw [fileAt?_put hfree, if_pos rfl]⟩

/-- **What is read after a write** by a path that could be read before: what was written, if the
path leads to the same file, or else what was read before. -/
theorem read_write_of_read (h : tree.write other contents = .ok next)
    (hheld : tree.read path = .ok held) :
    next.read path = .ok (if next.sameFile other path then contents else held) := by
  obtain ⟨place, hpath, hfile⟩ := read_eq_ok_iff.1 hheld
  have hpath' := (grows_write h).find_eq_ok hpath
  obtain ⟨written, rfl, hfree, hother⟩ := write_eq_ok h
  refine read_eq_ok_iff.2 ⟨place, hpath', ?_⟩
  rw [fileAt?_put hfree]
  by_cases hkept : tree.keptAt place = tree.keptAt written
  · rw [if_pos hkept, if_pos ((sameFile_iff hother hpath').2 hkept.symm)]
  · rw [if_neg hkept, if_neg fun hsame => hkept ((sameFile_iff hother hpath').1 hsame).symm, hfile]

/-! ## Many files -/

/-- **Writes files into a directory**, one after another. -/
def writeFiles (directory : Text) : List (Text × Bytes) → Tree → Except FileFault Tree
  | [], tree => .ok tree
  | (name, contents) :: files, tree =>
    match tree.write (Path.join directory name) contents with
    | .error fault => .error fault
    | .ok next => writeFiles directory files next

/-- **What was written last** into the files with names of some kind, or else what was held
before. -/
def lastContents (isName : Text → Bool) (held : Bytes) (files : List (Text × Bytes)) : Bytes :=
  ((files.filter fun file => isName file.1).getLast?.map Prod.snd).getD held

/-- What the first file is given is held until another one is written. -/
lemma lastContents_cons (isName : Text → Bool) (held : Bytes) (file : Text × Bytes)
    (files : List (Text × Bytes)) :
    lastContents isName held (file :: files) =
      lastContents isName (if isName file.1 then file.2 else held) files := by
  cases h : isName file.1 with
  | true =>
    simp only [lastContents, List.filter_cons, h, if_true, List.getLast?_cons]
    cases (files.filter fun file => isName file.1).getLast? <;> rfl
  | false => simp [lastContents, h]

/-- Names that are alike among those of the files make no difference. -/
lemma lastContents_congr {isName isName' : Text → Bool} {files : List (Text × Bytes)}
    (h : ∀ file ∈ files, isName file.1 = isName' file.1) (held : Bytes) :
    lastContents isName held files = lastContents isName' held files := by
  rw [lastContents, List.filter_congr h, ← lastContents]

section

variable {files before after : List (Text × Bytes)}

/-- Writing files removes nothing, and the paths of all of them are found afterwards. -/
lemma grows_writeFiles (h : writeFiles directory files tree = .ok last) :
    tree.Grows last ∧
      ∀ file ∈ files, ∃ place, last.find (Path.join directory file.1) = .ok place := by
  induction files generalizing tree with
  | nil =>
    cases h
    exact ⟨.refl _, List.forall_mem_nil _⟩
  | cons file files ih =>
    rw [writeFiles] at h
    split at h
    next => cases h
    next next hwrite =>
      obtain ⟨hgrows, hfound⟩ := ih h
      obtain ⟨place, -, -, hfind⟩ := write_eq_ok hwrite
      exact ⟨(grows_write hwrite).trans hgrows,
        List.forall_mem_cons.2 ⟨⟨place, hgrows.find_eq_ok hfind⟩, hfound⟩⟩

/-- After some writes a file that was there holds what was written into it last.

**Proof sketch.** By writes. Each one changes a single file (`read_write_of_read`), and whether this
is the one in question does not change later (`Grows.sameFile_eq`). -/
lemma read_writeFiles_of_read (h : writeFiles directory files tree = .ok last)
    (hheld : tree.read path = .ok held) :
    last.read path = .ok (lastContents
      (fun other => last.sameFile (Path.join directory other) path) held files) := by
  induction files generalizing tree held with
  | nil =>
    cases h
    exact hheld
  | cons file files ih =>
    rw [writeFiles] at h
    split at h
    next => cases h
    next next hwrite =>
      obtain ⟨place, -, -, hother⟩ := write_eq_ok hwrite
      have hread := read_write_of_read hwrite hheld
      obtain ⟨place', hpath, -⟩ := read_eq_ok_iff.1 hread
      rw [lastContents_cons, (grows_writeFiles h).1.sameFile_eq hother hpath]
      exact ih h hread

/-- Writing some files and then others is writing all of them. -/
lemma writeFiles_append (directory : Text) (files more : List (Text × Bytes)) (tree : Tree) :
    writeFiles directory (files ++ more) tree =
      (writeFiles directory files tree).bind (writeFiles directory more) := by
  induction files generalizing tree with
  | nil => rfl
  | cons file files ih =>
    rw [List.cons_append, writeFiles, writeFiles]
    cases tree.write (Path.join directory file.1) file.2 with
    | error fault => rfl
    | ok next => exact ih next

/-- **After many writes** a file holds what was written into it last: from any one write on, what
this has put there, or what a later one has whose name leads to the same file. -/
theorem read_writeFiles
    (h : writeFiles directory (before ++ (name, contents) :: after) tree = .ok last) :
    last.read (Path.join directory name) = .ok (lastContents
      (fun other => last.sameFile (Path.join directory other) (Path.join directory name)) contents
      after) := by
  rw [writeFiles_append] at h
  cases hbetween : writeFiles directory before tree with
  | error fault =>
    rw [hbetween] at h
    cases h
  | ok between =>
    rw [hbetween] at h
    change writeFiles directory ((name, contents) :: after) between = .ok last at h
    rw [writeFiles] at h
    split at h
    next => cases h
    next next hwrite => exact read_writeFiles_of_read h (read_write hwrite)

/-! ## Plain trees -/

/-- **A plain tree** has no links, and files have no further names. -/
def Plain (tree : Tree) : Prop :=
  tree.links = [] ∧ tree.names = []

/-- The plain tree in which nothing stands but the root. -/
def bare : Tree where
  nodes := []
  home := []

/-- In a plain tree two names of a directory lead to one file only if they are the same. -/
lemma Plain.sameFile_join_eq (h : tree.Plain) {place place' : Place}
    (hname : Path.IsFileName name) (hother : Path.IsFileName other)
    (hfind : tree.find (Path.join directory name) = .ok place)
    (hfind' : tree.find (Path.join directory other) = .ok place') :
    tree.sameFile (Path.join directory other) (Path.join directory name) = (other == name) := by
  have hlink (place : Place) : tree.link? place = none := by rw [link?, h.1, List.lookup_nil]
  have hkept (place : Place) : tree.keptAt place = place := by
    rw [keptAt, h.2, List.lookup_nil, Option.getD_none]
  obtain ⟨above, habove, hplace⟩ := find_join_eq_ok hname hfind
  obtain ⟨above', habove', hplace'⟩ := find_join_eq_ok hother hfind'
  obtain rfl : above' = above := Except.ok.inj (habove'.symm.trans habove)
  rw [Bool.eq_iff_iff, sameFile_iff hfind' hfind, hkept, hkept, hplace (hlink _),
    hplace' (hlink _), List.append_cancel_left_eq, List.singleton_inj, beq_iff_eq]

/-- **After many writes in a plain tree** a file holds what was written last under its name. -/
theorem read_writeFiles_of_plain (hplain : tree.Plain)
    (hfiles : ∀ file ∈ before ++ (name, contents) :: after, Path.IsFileName file.1)
    (h : writeFiles directory (before ++ (name, contents) :: after) tree = .ok last) :
    last.read (Path.join directory name) =
      .ok (lastContents (· == name) contents after) := by
  obtain ⟨hgrows, hfound⟩ := grows_writeFiles h
  have hlast : last.Plain := ⟨hgrows.links.trans hplain.1, hgrows.names.trans hplain.2⟩
  rw [List.forall_mem_append, List.forall_mem_cons] at hfiles hfound
  obtain ⟨-, hname, hafter⟩ := hfiles
  obtain ⟨-, ⟨place, hplace⟩, hfound⟩ := hfound
  rw [read_writeFiles h]
  refine congrArg Except.ok (lastContents_congr (fun file hfile => ?_) contents)
  obtain ⟨place', hplace'⟩ := hfound file hfile
  exact hlast.sameFile_join_eq hname (hafter file hfile) hplace hplace'

end

end Weave.Tree
