import Weave.Proofs.Command.Effects

set_option autoImplicit false
set_option relaxedAutoImplicit false

/-!
# What becomes of the source

The path of the artifact must not be spelled like that of the source. If the name of the artifact is
a single name, no link stands at it, and the source has no further name, then two paths that lead to
the source are spelled alike, and the source is safe from the artifact. But a name may lead
elsewhere, and then the artifact can overwrite the source; and so can an image that has its name.

## Main definitions

* `Weave.Command.LeadsUnseen` — why a path that is spelled otherwise leads to the source.

## Main results

* `Weave.Command.sameSpelling_of_find` — when the path of the artifact is seen to lead to the
  source.
* `Weave.Command.leadsUnseen_of_find` — why it can lead there unseen.
* `Weave.Command.source_of_run` — what becomes of the source in a run.
* `Weave.Command.source_overwritten` — it can be overwritten by the artifact.
-/

namespace Weave.Command

open Weave.Tree (fileSystem refusing)

/-- The name of an artifact is that of a file if it is a single name. -/
lemma isFileName_fileName {r : Request} {s : Settings} (h : '/' ∉ s.name) :
    Path.IsFileName (r.fileName s) := by
  have hextension : '/' ∉ '.' :: r.target.extension ∧ 3 ≤ ('.' :: r.target.extension).length := by
    cases r.target <;> decide
  refine Path.isFileName_of_length ?_ ?_
  · rw [Request.fileName, List.mem_append, not_or]
    exact ⟨h, hextension.1⟩
  · rw [Request.fileName, List.length_append]
    exact Nat.le_add_left_of_le hextension.2

section

variable {r : Request} {s : Settings} {tree : Tree} {directory place : Place}

/-- **When the path of the artifact is seen to lead to the source**: if the name of the artifact is
a single name at which no link stands, then the two paths are spelled alike. -/
lemma sameSpelling_of_find (hname : '/' ∉ s.name) (hplace : ∀ n ∈ place, Path.IsFileName n)
    (hdirectory : tree.Direct directory)
    (hlink : tree.link? (directory ++ [r.fileName s]) = none)
    (hfind : tree.find (r.pathIn s directory) = .ok place) :
    Path.sameSpelling (Path.ofNames true place) (r.pathIn s directory) = true := by
  have hfile : Path.IsFileName (r.fileName s) := isFileName_fileName hname
  have hnames : Path.names (r.pathIn s directory) = directory ++ [r.fileName s] := by
    rw [Request.pathIn, Path.names_join hfile, Path.names_ofNames hdirectory.names]
  have habsolute : Path.isAbsolute (r.pathIn s directory) = true := Path.isAbsolute_join hfile _
  refine (Path.sameSpelling_ofNames_join_iff hfile hplace hdirectory.names).2 ?_
  rw [← hnames]
  refine Tree.find_eq_names habsolute ?_ hfind
  rw [hnames]
  exact hdirectory.concat hfile hlink

/-- **Why a path that is spelled otherwise leads to the source**: the name of the artifact goes
through several names, or a link stands at it, or it is a further name of the source. -/
inductive LeadsUnseen (r : Request) (s : Settings) (tree : Tree) (directory found place : Place) :
    Prop
  | names (mem_name : '/' ∈ s.name)
  | link (link?_ne : tree.link? (directory ++ [r.fileName s]) ≠ none)
  | further (found_ne : found ≠ place)

/-- **When the path of the artifact leads to the source unseen**, there is a cause of it. -/
lemma leadsUnseen_of_find {found : Place} (hhome : tree.Direct tree.home)
    (hplace : tree.find r.file = .ok place) (hdirectory : tree.find r.outdir = .ok directory)
    (hspelling : Path.sameSpelling (Path.ofNames true place) (r.pathIn s directory) = false)
    (hfind : tree.find (r.pathIn s directory) = .ok found) :
    LeadsUnseen r s tree directory found place := by
  by_cases hfound : found = place
  · subst hfound
    by_cases hlink : tree.link? (directory ++ [r.fileName s]) = none
    · refine .names ?_
      by_contra hname
      have halike := sameSpelling_of_find hname (Tree.direct_of_find hhome hplace).names
        (Tree.direct_of_find hhome hdirectory) hlink hfind
      exact absurd (hspelling.symm.trans halike) Bool.false_ne_true
    · exact .link hlink
  · exact .further hfound

end

/-- **What becomes of the source in a run.** Its path leads where it has led before, and the file
there is as it was, unless an image of the page has been saved to it, or the path of the artifact
leads to it unseen. So it is whatever is refused to the run. It is taken that the place where
relative paths begin is reached directly from the root.

**Proof sketch.** If images or the artifact have been written (`generate_eq`), the source is as it
was unless one of them was written to its file. The artifact was only if its path leads to this
file, and as the path is not spelled like that of the source there is a cause of it
(`leadsUnseen_of_find`). -/
theorem source_of_run {arguments : List Text} {r : Request} {tree : Tree} {place : Place}
    {contents : Bytes} {refused? : Tree.Operation → Tree → Option FileFault}
    (hr : Request.read arguments = .ok r)
    (hhome : tree.Direct tree.home) (hfind : tree.find r.file = .ok place)
    (hfile : tree.fileAt? place = some contents) {report : Report} {last : Tree}
    (hrun : run (refusing refused?) arguments tree = (report, last)) :
    last.find r.file = .ok place ∧
      (last.fileAt? place = some contents ∨
        ∃ source s directory, Carries r tree last source s directory ∧
          ((∃ image, Image r s source directory last place image ∧
              last.fileAt? place = some image) ∨
            report.exitCode = 0 ∧ ∃ found, last.find (r.pathIn s directory) = .ok found ∧
              last.keptAt found = last.keptAt place ∧
              LeadsUnseen r s last directory found place)) := by
  rw [run_eq hr] at hrun
  rcases hgenerate : (generate (refusing refused?) r).run tree with ⟨outcome, next⟩
  rw [hgenerate] at hrun
  cases hrun
  rcases generate_eq hgenerate with ⟨-, hnone⟩ |
    ⟨source, s, directory, place', next', hcarries, hplace', hspelling, himages, hend⟩
  · refine ⟨hnone.find_eq_ok hfind, .inl ?_⟩
    rcases hnone.file place with hsame | ⟨image, hfalse, -⟩
    · rw [hsame, hfile]
    · exact hfalse.elim
  have hkept : next'.fileAt? place = some contents ∨
      ∃ image, Image r s source directory next' place image ∧ next'.fileAt? place = some image :=
    (himages.file place).imp_left fun hsame => hsame.trans hfile
  rcases hend with ⟨failure, rfl, rfl⟩ | ⟨text, rfl, hwrite⟩
  · refine ⟨himages.find_eq_ok hfind, hkept.imp_right fun himage => ?_⟩
    exact ⟨source, s, directory, hcarries, .inl himage⟩
  have hwritten := Tree.grows_write hwrite
  have hgrows : tree.Grows next := himages.toGrows.trans hwritten
  have hfound := hgrows.find_eq_ok hfind
  obtain rfl : place' = place := Except.ok.inj (hplace'.symm.trans hfound)
  refine ⟨hfound, ?_⟩
  have hhome' : next.Direct next.home := by
    refine ⟨hgrows.home.symm ▸ hhome.names, fun above habove => ?_⟩
    rw [hgrows.link?_eq]
    exact hhome.links above (hgrows.home ▸ habove)
  obtain ⟨found, rfl, hfree, hleads⟩ := Tree.write_eq_ok hwrite
  rw [Tree.fileAt?_put hfree]
  split
  next hsame =>
    refine .inr ⟨source, s, directory, hcarries, .inr ⟨rfl, found, hleads, hsame.symm, ?_⟩⟩
    exact leadsUnseen_of_find hhome' hfound hcarries.directory_eq hspelling hleads
  next =>
    refine hkept.imp_right fun ⟨image, himage, himage'⟩ => ?_
    exact ⟨source, s, directory, hcarries, .inl ⟨image, himage.mono hwritten, himage'⟩⟩

/-- A source that has a directory beside it. -/
def besideDirectory : Tree where
  nodes := [(["w".toList], .directory), (["w".toList, "sub".toList], .directory),
    (["w".toList, "a.lit".toList], .file (Text.toBytes "# hi\nx = 1\n".toList))]
  home := ["w".toList]

/-- The arguments that ask for a script of the source with a name. -/
def scriptArguments (name : Text) : List Text :=
  ["script".toList, "a.lit".toList, "--name".toList, name]

/-- The script would have the name of the source, and is not made. -/
theorem source_of_run_besideDirectory :
    ∃ report last,
      run fileSystem (scriptArguments "a".toList) besideDirectory = (report, last) ∧
        report.exitCode = 1 ∧ last.find "a.lit".toList = .ok ["w".toList, "a.lit".toList] ∧
        last.fileAt? ["w".toList, "a.lit".toList] =
          some (Text.toBytes "# hi\nx = 1\n".toList) := by
  obtain ⟨r, hr, hfile, htarget⟩ : ∃ r, Request.read (scriptArguments "a".toList) = .ok r ∧
      r.file = "a.lit".toList ∧ r.target = .script := ⟨_, rfl, rfl, rfl⟩
  have hhome : besideDirectory.Direct besideDirectory.home :=
    ⟨List.forall_mem_singleton.2 ⟨by decide, by decide⟩, fun _ _ => rfl⟩
  have hfind : besideDirectory.find r.file = .ok ["w".toList, "a.lit".toList] := by
    rw [hfile]
    rfl
  have hcode : (run fileSystem (scriptArguments "a".toList) besideDirectory).1.exitCode = 1 := by
    decide +kernel
  have hrun : run (refusing fun _ _ => none) (scriptArguments "a".toList) besideDirectory =
      run fileSystem (scriptArguments "a".toList) besideDirectory := by
    rw [Tree.refusing_none]
  obtain ⟨hlast, hend⟩ := source_of_run hr hhome hfind rfl (hrun.trans (Prod.eta _).symm)
  rw [hfile] at hlast
  refine ⟨_, _, (Prod.eta _).symm, hcode, hlast, ?_⟩
  rcases hend with hsame | ⟨source, s, directory, -, ⟨image, himage, -⟩ | ⟨hzero, -⟩⟩
  · exact hsame
  · exact absurd (htarget.symm.trans himage.target_eq) nofun
  · cases hzero.symm.trans hcode

/-- **The source can be overwritten** by the artifact: if its name goes through a directory and
back, then its path is not spelled like that of the source, and leads to it. -/
theorem source_overwritten :
    besideDirectory.find "a.lit".toList = .ok ["w".toList, "a.lit".toList] ∧
      besideDirectory.fileAt? ["w".toList, "a.lit".toList] =
        some (Text.toBytes "# hi\nx = 1\n".toList) ∧
      (run fileSystem (scriptArguments "sub/../a".toList) besideDirectory).1.exitCode = 0 ∧
      (run fileSystem (scriptArguments "sub/../a".toList) besideDirectory).2.fileAt?
          ["w".toList, "a.lit".toList] ≠ some (Text.toBytes "# hi\nx = 1\n".toList) := by
  refine ⟨rfl, by decide +kernel, by decide +kernel, by decide +kernel⟩

end Weave.Command
