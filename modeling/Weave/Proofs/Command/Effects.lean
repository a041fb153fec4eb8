import Weave.Command
import Weave.Proofs.Files.Naming
import Weave.Proofs.Page.Groups

set_option autoImplicit false
set_option relaxedAutoImplicit false

/-!
# What a command writes

A command reads its source and its settings, creates the directory for the artifact, makes the
artifact, and writes it last. Whatever fails on the way, nothing has been written by then but images
of a page.

## Main definitions

* `Weave.Command.Request.fileName`, `Weave.Command.Request.pathIn` — the name of the artifact, and
  its path in a directory.
* `Weave.Command.Image` — the files of the images of a page.
* `Weave.Command.Carries` — the source, the settings and the directory that a request comes to.
* `Weave.Command.MayWrite` — the files that a run may write.

## Main results

* `Weave.Command.generate_eq` — how a request is carried out.
* `Weave.Command.run_writes` — a run writes nothing else, and without success no artifact.
-/

namespace Weave.Command

open Weave.Tree (fileSystem refusing)

/-! ## Steps -/

section

variable {α : Type} {r : Request} {s : Settings} {tree next : Tree}
  {refused? : Tree.Operation → Tree → Option FileFault}

/-- A step on files goes on or ends as the operation does. -/
lemma run_onFiles (failure : FileFault → Failure Lit.Fault)
    (step : StateM Tree (Except FileFault α)) (tree : Tree) :
    (onFiles failure step).run tree = ((step tree).1.mapError failure, (step tree).2) :=
  rfl

/-- Where the wording of a fault is changed, a success is the same success. -/
lemma eq_ok_of_mapError {ε ε' : Type} {f : ε → ε'} {x : Except ε α} {a : α}
    (h : x.mapError f = .ok a) : x = .ok a := by
  cases x with
  | error e => cases h
  | ok b => exact congrArg Except.ok (Except.ok.inj h)

/-- Reading a text leaves the files as they are. -/
lemma readText_snd (path : Text) (tree : Tree) : (fileSystem.readText path tree).2 = tree := by
  rw [FileSystem.readText, bind_apply]
  cases (fileSystem.read path tree).1 with
  | error fault => rfl
  | ok contents =>
    dsimp only
    cases Text.ofBytes? contents <;> rfl

/-- A text is read as it is in the tree, unless that is refused. -/
lemma readText_refusing (path : Text) (tree : Tree) :
    (refusing refused?).readText path tree = fileSystem.readText path tree ∨
      ∃ fault, (refusing refused?).readText path tree = (.error fault, tree) := by
  have hread : (refusing refused?).read path tree = fileSystem.read path tree ∨
      ∃ fault, (refusing refused?).read path tree = (.error fault, tree) :=
    Tree.attempt_apply _ _ tree
  rw [FileSystem.readText, FileSystem.readText, bind_apply, bind_apply]
  rcases hread with heq | ⟨fault, heq⟩
  · exact .inl (by rw [heq])
  · exact .inr ⟨fault, by rw [heq]; rfl⟩

/-- What comes of reading a text. -/
lemma run_readText {failure : FileFault → Failure Lit.Fault} {path : Text}
    {outcome : Except (Failure Lit.Fault) Text}
    (h : (onFiles failure ((refusing refused?).readText path)).run tree = (outcome, next)) :
    tree = next ∧ ∀ t, outcome = .ok t → fileSystem.readText path tree = (.ok t, tree) := by
  rw [run_onFiles] at h
  rcases readText_refusing path tree with heq | ⟨fault, heq⟩
  all_goals
    rw [heq] at h
    cases h
  · refine ⟨(readText_snd path tree).symm, fun t ht => ?_⟩
    exact Prod.ext (eq_ok_of_mapError ht) (readText_snd path tree)
  · exact ⟨rfl, nofun⟩

/-- What comes of reading settings. -/
lemma run_readSettings {config? : Option Text} {outcome : Except (Failure Lit.Fault) Settings}
    (h : (readSettings (refusing refused?) config?).run tree = (outcome, next)) :
    tree = next ∧ ∀ base, outcome = .ok base →
      ((readSettings fileSystem config?).run tree).1 = .ok base := by
  cases config? with
  | none =>
    cases h
    exact ⟨rfl, fun _ hbase => hbase⟩
  | some path =>
    rcases run_bind_eq h with ⟨e, next₁, htext, heq⟩ | ⟨text, next₁, htext, h⟩
    all_goals obtain ⟨rfl, hread⟩ := run_readText htext
    · cases heq
      exact ⟨rfl, nofun⟩
    · cases h
      refine ⟨rfl, fun base hbase => ?_⟩
      rw [readSettings, run_bind, run_onFiles, hread text rfl]
      exact hbase

/-- Where a path is resolved to. -/
lemma run_resolve {path : Text} {outcome : Except (Failure Lit.Fault) Text}
    (h : (onFiles .file ((refusing refused?).resolve path)).run tree = (outcome, next)) :
    tree = next ∧ ∀ text, outcome = .ok text →
      ∃ place, tree.find path = .ok place ∧ text = Path.ofNames true place := by
  have hresolve : (refusing refused?).resolve path tree = (tree.resolve path, tree) ∨
      ∃ fault, (refusing refused?).resolve path tree = (.error fault, tree) :=
    Tree.attempt_apply _ _ tree
  rw [run_onFiles] at h
  rcases hresolve with heq | ⟨fault, heq⟩
  all_goals
    rw [heq] at h
    cases h
  · refine ⟨rfl, fun text htext => ?_⟩
    have hfind : (tree.find path).map (Path.ofNames true) = .ok text := eq_ok_of_mapError htext
    cases hplace : tree.find path with
    | error fault =>
      rw [hplace] at hfind
      cases hfind
    | ok place =>
      rw [hplace] at hfind
      exact ⟨place, rfl, (Except.ok.inj hfind).symm⟩
  · exact ⟨rfl, nofun⟩

/-- A file is written as in the tree, or the files are as they were. -/
lemma write_refusing (path : Text) (contents : Bytes) (tree : Tree) :
    (∃ fault, (refusing refused?).write path contents tree = (.error fault, tree)) ∨
      ∃ next, tree.write path contents = .ok next ∧
        (refusing refused?).write path contents tree = (.ok (), next) := by
  have hwrite : (refusing refused?).write path contents tree =
      Tree.change (·.write path contents) tree ∨
        ∃ fault, (refusing refused?).write path contents tree = (.error fault, tree) :=
    Tree.attempt_apply _ _ tree
  rcases hwrite with heq | hrefused
  · rw [heq, Tree.change_apply]
    cases hnext : tree.write path contents with
    | error fault => exact .inl ⟨fault, rfl⟩
    | ok next => exact .inr ⟨next, rfl, rfl⟩
  · exact .inl hrefused

/-- What comes of writing a file. -/
lemma run_write {path : Text} {contents : Bytes} {outcome : Except (Failure Lit.Fault) Unit}
    (h : (onFiles .file ((refusing refused?).write path contents)).run tree = (outcome, next)) :
    ((∃ failure, outcome = .error failure) ∧ next = tree) ∨
      outcome = .ok () ∧ tree.write path contents = .ok next := by
  rw [run_onFiles] at h
  rcases write_refusing path contents tree with ⟨fault, heq⟩ | ⟨written, hwritten, heq⟩
  all_goals
    rw [heq] at h
    cases h
  · exact .inl ⟨⟨_, rfl⟩, rfl⟩
  · exact .inr ⟨rfl, hwritten⟩

/-- The name of the artifact with its extension. It may go through several names. -/
def Request.fileName (r : Request) (s : Settings) : Text :=
  s.name ++ '.' :: r.target.extension

/-- **The path of the artifact** in the directory at a place. -/
def Request.pathIn (r : Request) (s : Settings) (directory : Place) : Text :=
  Path.join (Path.ofNames true directory) (r.fileName s)

/-- **The directory is created** before the artifact is made, and no file is written. The path of
the artifact is not spelled like that of the source.

**Proof sketch.** By steps (`run_bind_eq`). Creating the directory writes no file, and the two paths
are only looked up afterwards. A step that fails gives no path; at the end the spellings have been
compared. -/
lemma artifactPath_eq {outcome : Except (Failure Lit.Fault) Text}
    (h : (artifactPath (refusing refused?) r s).run tree = (outcome, next)) :
    tree.Writes (fun _ _ => False) next ∧
      ∀ path, outcome = .ok path → ∃ directory place, path = r.pathIn s directory ∧
        next.find r.outdir = .ok directory ∧ next.find r.file = .ok place ∧
        Path.sameSpelling (Path.ofNames true place) path = false := by
  rcases run_bind_eq h with ⟨e, next₁, hcreate, heq⟩ | ⟨_, next₁, hcreate, h⟩
  all_goals
    have hwrites : tree.Writes (fun _ _ => False) next₁ := by
      rw [run_onFiles, Prod.mk.injEq] at hcreate
      exact hcreate.2 ▸ Tree.leads_createDirectories refused? r.outdir tree
  · cases heq
    exact ⟨hwrites, nofun⟩
  rcases run_bind_eq h with ⟨e, next₂, hresolve, heq⟩ | ⟨text, next₂, hresolve, h⟩
  all_goals obtain ⟨rfl, hdirectory⟩ := run_resolve hresolve
  · cases heq
    exact ⟨hwrites, nofun⟩
  obtain ⟨directory, hfind, rfl⟩ := hdirectory text rfl
  rcases run_bind_eq h with ⟨e, next₃, hresolve', heq⟩ | ⟨text, next₃, hresolve', h⟩
  all_goals obtain ⟨rfl, hsource⟩ := run_resolve hresolve'
  · cases heq
    exact ⟨hwrites, nofun⟩
  obtain ⟨place, hplace, rfl⟩ := hsource text rfl
  split at h
  next =>
    cases h
    exact ⟨hwrites, nofun⟩
  next hspelling =>
    cases h
    refine ⟨hwrites, ?_⟩
    rintro path ⟨⟩
    exact ⟨directory, place, rfl, hfind, hplace, Bool.eq_false_iff.2 hspelling⟩

end

/-! ## Images -/

/-- **The files of the images** of a page, one for each group of code and each kind of image. An
image goes to the file that its path leads to: the one with its name in the directory at a place,
unless a link stands there. The file is changed under all of its names. There are no images unless
the code is run. -/
inductive Image (r : Request) (s : Settings) (source : Text) (directory : Place) (last : Tree) :
    Place → Bytes → Prop
  | ofGroup {group : List Chunk} {mime : Mime} {payload : Payload} {found place : Place}
      (target : r.target = .markdown) (executes : s.executesFor .markdown = true)
      (mem_groups : group ∈ Page.codeGroups (prepare .markdown s {} source))
      (mem_images : mime ∈ Mime.images)
      (find_eq : last.find (Path.join r.outdir (Page.imageName (Page.groupText group) mime)) =
        .ok found)
      (found_eq : last.link? (directory ++ [Page.imageName (Page.groupText group) mime]) = none →
        found = directory ++ [Page.imageName (Page.groupText group) mime])
      (keptAt_eq : last.keptAt place = last.keptAt found) :
      Image r s source directory last place payload.bytes

section

variable {r : Request} {s : Settings} {source : Text} {directory : Place} {tree next : Tree}
  {refused? : Tree.Operation → Tree → Option FileFault}

/-- There are images of a page only. -/
lemma Image.target_eq {place : Place} {contents : Bytes}
    (h : Image r s source directory tree place contents) : r.target = .markdown := by
  cases h with
  | ofGroup target => exact target

/-- The file of an image is still its file in a tree from which nothing was removed. -/
lemma Image.mono {place : Place} {contents : Bytes} (hgrows : tree.Grows next)
    (h : Image r s source directory tree place contents) :
    Image r s source directory next place contents := by
  cases h with
  | ofGroup target executes mem_groups mem_images find_eq found_eq keptAt_eq =>
    refine .ofGroup target executes mem_groups mem_images (hgrows.find_eq_ok find_eq) ?_ ?_
    · rw [hgrows.link?_eq]
      exact found_eq
    · rw [hgrows.keptAt_eq, hgrows.keptAt_eq]
      exact keptAt_eq

/-- Saving an image of a group writes its file.

**Proof sketch.** If the file is written, the tree has grown, so the images from before are images
still (`Image.mono`), and the directory leads to the same place. The file is the one in it with the
name of the image. If it is not written, nothing has changed. -/
lemma writes_image {group : List Chunk} {mime : Mime} (payload : Payload)
    (htarget : r.target = .markdown) (hexecutes : s.executesFor .markdown = true)
    (hgroup : group ∈ Page.codeGroups (prepare .markdown s {} source)) (hmime : mime ∈ Mime.images)
    (hdirectory : tree.find r.outdir = .ok directory)
    (hnext : tree.Writes (Image r s source directory next) next) {last : Tree}
    (hlast : ((refusing refused?).write
      (Path.join r.outdir (Page.imageName (Page.groupText group) mime)) payload.bytes next).2 =
        last) :
    tree.Writes (Image r s source directory last) last := by
  set name := Page.imageName (Page.groupText group) mime with hname
  have hfile : Path.IsFileName name := Page.isFileName_imageName hmime _
  rcases write_refusing (Path.join r.outdir name) payload.bytes next with
    ⟨fault, heq⟩ | ⟨written, hwrite, heq⟩
  · rw [heq] at hlast
    obtain rfl : next = last := hlast
    exact hnext
  · rw [heq] at hlast
    obtain rfl : written = last := hlast
    have hgrows := Tree.grows_write hwrite
    refine (hnext.mono fun _ _ => Image.mono hgrows).trans
      (Tree.writes_write hwrite fun found place hfound hkept => ?_)
    have hfind := (hnext.toGrows.trans hgrows).find_eq_ok hdirectory
    exact .ofGroup htarget hexecutes hgroup hmime hfound (Tree.find_join_eq hfile hfind hfound)
      hkept

/-- **Making the artifact** writes nothing but images.

**Proof sketch.** Nothing is written unless a page is made whose code is run. Then every image that
is saved keeps what has been written one of images (`writes_image`), so the run does
(`Page.ofRunChunks_preserves`). -/
lemma artifact_writes (hdirectory : tree.find r.outdir = .ok directory)
    (hnext : ((artifact (refusing refused?) r s source).run tree).2 = next) :
    tree.Writes (Image r s source directory next) next := by
  unfold artifact at hnext
  split at hnext
  next => exact hnext ▸ .refl tree
  next htarget =>
    unfold page at hnext
    dsimp only [ExceptT.run, ExceptT.mk] at hnext
    split at hnext
    next hexecutes =>
      rw [bind_apply, pure_apply] at hnext
      dsimp only at hnext
      rw [← hnext]
      refine Page.ofRunChunks_preserves
        (P := fun next => tree.Writes (Image r s source directory next) next) ?_ _ s (.refl tree)
      intro group hgroup mime hmime payload next hnext
      exact writes_image payload htarget hexecutes hgroup hmime hdirectory hnext rfl
    next => exact hnext ▸ .refl tree
  next => exact hnext ▸ .refl tree

end

/-! ## Requests -/

/-- What is left to do of a request when the path of the artifact is known: to make the artifact,
and to write it there. -/
def finish (fs : FileSystem (StateM Tree)) (r : Request) (s : Settings) (source path : Text) :
    Running (StateM Tree) Text := do
  let text ← artifact fs r s source
  onFiles .file (fs.write path text.toBytes)
  return path

/-- **How a request is finished**: images may be written, and then the artifact, if nothing has
failed.

**Proof sketch.** By the two steps. Making the artifact writes nothing but images
(`artifact_writes`); writing it leaves the files as they were, or comes last. -/
lemma finish_eq {refused? : Tree.Operation → Tree → Option FileFault} {r : Request} {s : Settings}
    {source path : Text} {directory : Place} {tree last : Tree}
    {outcome : Except (Failure Lit.Fault) Text} (hdirectory : tree.find r.outdir = .ok directory)
    (h : (finish (refusing refused?) r s source path).run tree = (outcome, last)) :
    ∃ next, tree.Writes (Image r s source directory next) next ∧
      ((∃ failure, outcome = .error failure ∧ last = next) ∨
        ∃ contents, outcome = .ok path ∧ next.write path contents = .ok last) := by
  rcases run_bind_eq h with ⟨e, next, htext, heq⟩ | ⟨text, next, htext, h⟩
  all_goals
    have himages := artifact_writes hdirectory (congrArg Prod.snd htext)
    refine ⟨next, himages, ?_⟩
  · cases heq
    exact .inl ⟨e, rfl, rfl⟩
  rcases run_bind_eq h with ⟨e, next', hwrite, heq⟩ | ⟨_, next', hwrite, h⟩
  · cases heq
    rcases run_write hwrite with ⟨-, rfl⟩ | ⟨hok, -⟩
    · exact .inl ⟨e, rfl, rfl⟩
    · cases hok
  · cases h
    rcases run_write hwrite with ⟨⟨failure, hfailure⟩, -⟩ | ⟨-, hwritten⟩
    · cases hfailure
    · exact .inr ⟨text.toBytes, rfl, hwritten⟩

/-- **What a request comes to**: its source and its settings, as they were read before anything was
written, and the place of the directory for the artifact. -/
structure Carries (r : Request) (tree last : Tree) (source : Text) (s : Settings)
    (directory : Place) : Prop where
  source_eq : (fileSystem.readText r.file tree).1 = .ok source
  settings_eq : ∃ base, ((readSettings fileSystem r.config?).run tree).1 = .ok base ∧
    s = r.settings base
  directory_eq : last.find r.outdir = .ok directory

/-- **How a request is carried out.** If it does not come to making the artifact, then no file is
written. Else images may be written, and then the artifact, if nothing has failed. The path of the
artifact is not spelled like that of the source.

**Proof sketch.** By steps: the source and the settings are read, which changes nothing
(`run_readText`, `run_readSettings`); the path of the artifact is found, for which directories may
be created (`artifactPath_eq`); the request is finished (`finish_eq`). A step that fails ends the
run. Nothing is ever removed, so the directory and the source are found in the end where they were
found on the way. -/
theorem generate_eq {refused? : Tree.Operation → Tree → Option FileFault} {r : Request}
    {tree last : Tree} {outcome : Except (Failure Lit.Fault) Text}
    (h : (generate (refusing refused?) r).run tree = (outcome, last)) :
    ((∃ failure, outcome = .error failure) ∧ tree.Writes (fun _ _ => False) last) ∨
      ∃ source s directory place next, Carries r tree last source s directory ∧
        last.find r.file = .ok place ∧
        Path.sameSpelling (Path.ofNames true place) (r.pathIn s directory) = false ∧
        tree.Writes (Image r s source directory next) next ∧
        ((∃ failure, outcome = .error failure ∧ last = next) ∨
          ∃ contents, outcome = .ok (r.pathIn s directory) ∧
            next.write (r.pathIn s directory) contents = .ok last) := by
  rcases run_bind_eq h with ⟨e, next₁, hsource, heq⟩ | ⟨source, next₁, hsource, h⟩
  all_goals obtain ⟨rfl, hread⟩ := run_readText hsource
  · cases heq
    exact .inl ⟨⟨e, rfl⟩, .refl _⟩
  rcases run_bind_eq h with ⟨e, next₂, hsettings, heq⟩ | ⟨base, next₂, hsettings, h⟩
  all_goals obtain ⟨rfl, hbase⟩ := run_readSettings hsettings
  · cases heq
    exact .inl ⟨⟨e, rfl⟩, .refl _⟩
  rcases run_bind_eq h with ⟨e, next₃, hpath, heq⟩ | ⟨path, next₃, hpath, h⟩
  · cases heq
    exact .inl ⟨⟨e, rfl⟩, (artifactPath_eq hpath).1⟩
  obtain ⟨hcreated, hpaths⟩ := artifactPath_eq hpath
  obtain ⟨directory, place, rfl, hdirectory, hplace, hspelling⟩ := hpaths path rfl
  change (finish (refusing refused?) r (r.settings base) source _).run next₃ = (outcome, last) at h
  obtain ⟨next, himages, hend⟩ := finish_eq hdirectory h
  have hgrows : next₃.Grows last := by
    rcases hend with ⟨failure, -, rfl⟩ | ⟨contents, -, hwrite⟩
    · exact himages.toGrows
    · exact himages.toGrows.trans (Tree.grows_write hwrite)
  exact .inr ⟨source, r.settings base, directory, place, next,
    ⟨congrArg Prod.fst (hread source rfl), ⟨base, hbase base rfl, rfl⟩,
      hgrows.find_eq_ok hdirectory⟩,
    hgrows.find_eq_ok hplace, hspelling, (hcreated.mono fun _ _ => False.elim).trans himages, hend⟩

/-! ## Runs -/

/-- **The files that a run may write**: the images of the page, and the artifact if the run is a
success. The artifact goes to the file that its path leads to, which is changed under all of its
names. -/
inductive MayWrite (r : Request) (tree last : Tree) (exitCode : Nat) : Place → Bytes → Prop
  | image {source : Text} {s : Settings} {directory place : Place} {contents : Bytes}
      (carries : Carries r tree last source s directory)
      (image : Image r s source directory last place contents) :
      MayWrite r tree last exitCode place contents
  | artifact {source : Text} {s : Settings} {directory found place : Place} (contents : Bytes)
      (carries : Carries r tree last source s directory) (success : exitCode = 0)
      (find_eq : last.find (r.pathIn s directory) = .ok found)
      (keptAt_eq : last.keptAt place = last.keptAt found) :
      MayWrite r tree last exitCode place contents

/-- A run of a request reports how the request was carried out. -/
lemma run_eq {arguments : List Text} {r : Request} (h : Request.read arguments = .ok r)
    (fs : FileSystem (StateM Tree)) (tree : Tree) :
    run fs arguments tree =
      (r.report ((generate fs r).run tree).1, ((generate fs r).run tree).2) := by
  rw [run, h]
  rfl

/-- **A run writes all or nothing**, whatever its arguments and the files are, and whatever is
refused to it. Without a request it changes nothing. With one, no file is changed, created or
removed but the images of the page and, if the run is a success, the artifact; directories are
created, but none is removed, and links stay as they are.

**Proof sketch.** By the two ends of `generate_eq`. Without a request, or before the artifact is
begun, nothing is written. After that images are written; and if the run is a success the artifact
is written last, when the directory and the images stand where they stood on the way, since the tree
only grows. -/
theorem run_writes (refused? : Tree.Operation → Tree → Option FileFault) (arguments : List Text)
    (tree : Tree) :
    (∀ stop, Request.read arguments = .error stop →
      (run (refusing refused?) arguments tree).2 = tree) ∧
    ∀ r, Request.read arguments = .ok r →
      tree.Writes
        (MayWrite r tree (run (refusing refused?) arguments tree).2
          (run (refusing refused?) arguments tree).1.exitCode)
        (run (refusing refused?) arguments tree).2 := by
  refine ⟨fun stop hstop => ?_, fun r hr => ?_⟩
  · rw [run, hstop]
    rfl
  · rw [run_eq hr]
    rcases hrun : (generate (refusing refused?) r).run tree with ⟨outcome, last⟩
    dsimp only
    rcases generate_eq hrun with ⟨-, hnone⟩ | ⟨source, s, directory, place, next, hcarries, -, -,
      himages, hend⟩
    · exact hnone.mono fun _ _ => False.elim
    · rcases hend with ⟨failure, rfl, rfl⟩ | ⟨contents, rfl, hwrite⟩
      · exact himages.mono fun _ _ => .image hcarries
      · have hgrows := Tree.grows_write hwrite
        refine (himages.mono fun _ _ himage => .image hcarries (himage.mono hgrows)).trans ?_
        exact Tree.writes_write hwrite fun _ _ hfound hkept =>
          .artifact contents hcarries rfl hfound hkept

/-- A source of a page whose first block shows an image, and whose second block faults. -/
def brokenSource : Bytes :=
  Text.toBytes "svg(\"a\")\n#-\nmissing\n".toList

/-- The name of the image of the page. -/
def brokenPageImage : Text :=
  Page.imageName "svg(\"a\")".toList .svg

/-- A directory with the source of a page that cannot be made. -/
def brokenPage : Tree where
  nodes := [(["w".toList], .directory), (["w".toList, "a.lit".toList], .file brokenSource)]
  home := ["w".toList]

/-- The arguments that ask for the page of the source. -/
def brokenPageArguments : List Text :=
  ["markdown".toList, "a.lit".toList, "--execute".toList]

/-- The page is not made, but the image of its first block is there. -/
theorem run_writes_brokenPage :
    ∃ r report last, Request.read brokenPageArguments = .ok r ∧
      run fileSystem brokenPageArguments brokenPage = (report, last) ∧ report.exitCode = 1 ∧
      brokenPage.Writes (MayWrite r brokenPage last 1) last ∧
      last.fileAt? ["w".toList, brokenPageImage] = some (Text.toBytes "a".toList) := by
  obtain ⟨r, hr⟩ : ∃ r, Request.read brokenPageArguments = .ok r := ⟨_, rfl⟩
  obtain ⟨hcode, himage⟩ : (run fileSystem brokenPageArguments brokenPage).1.exitCode = 1 ∧
      (run fileSystem brokenPageArguments brokenPage).2.fileAt? ["w".toList, brokenPageImage] =
        some (Text.toBytes "a".toList) := by
    decide +kernel
  have hwrites := (run_writes (fun _ _ => none) brokenPageArguments brokenPage).2 r hr
  rw [Tree.refusing_none, hcode] at hwrites
  exact ⟨r, _, _, hr, (Prod.eta _).symm, hcode, hwrites, himage⟩

/-- The directory with the source, with a link at the name of the image to a file outside of the
directory, and with a link from outside to the directory. -/
def linkedPage : Tree where
  nodes := (["keep.txt".toList], .file (Text.toBytes "kept".toList)) ::
    (["proc".toList], .directory) :: (["proc".toList, "self".toList], .directory) ::
    brokenPage.nodes
  home := brokenPage.home
  links := [(["w".toList, brokenPageImage], "/keep.txt".toList),
    (["proc".toList, "self".toList, "cwd".toList], "/w".toList)]

/-- The arguments that ask for a script of the source, by a name that goes along a link. -/
def linkedScriptArguments : List Text :=
  ["script".toList, "a.lit".toList, "--name".toList, "/proc/self/cwd/b".toList]

/-- **A run can write a file that is neither an image in the directory nor the artifact at its own
place**: if a link stands at the name of an image, then the image goes to a file elsewhere, though
the run fails; and if the path of the artifact goes along a link, then the artifact is created at a
place that the path does not go through. -/
theorem run_writes_through_links :
    ((run fileSystem brokenPageArguments linkedPage).1.exitCode = 1 ∧
      linkedPage.fileAt? ["keep.txt".toList] = some (Text.toBytes "kept".toList) ∧
      (run fileSystem brokenPageArguments linkedPage).2.fileAt? ["keep.txt".toList] =
        some (Text.toBytes "a".toList) ∧
      ∀ name, ["keep.txt".toList] ≠ linkedPage.home ++ [name]) ∧
    ((run fileSystem linkedScriptArguments linkedPage).1.exitCode = 0 ∧
      linkedPage.fileAt? ["w".toList, "b.lit".toList] = none ∧
      (run fileSystem linkedScriptArguments linkedPage).2.fileAt? ["w".toList, "b.lit".toList] ≠
        none ∧
      ["w".toList, "b.lit".toList] ≠ Path.names
        (Path.join (Path.ofNames true linkedPage.home) "/proc/self/cwd/b.lit".toList)) := by
  have hpage : (run fileSystem brokenPageArguments linkedPage).1.exitCode = 1 ∧
      linkedPage.fileAt? ["keep.txt".toList] = some (Text.toBytes "kept".toList) ∧
      (run fileSystem brokenPageArguments linkedPage).2.fileAt? ["keep.txt".toList] =
        some (Text.toBytes "a".toList) := by
    decide +kernel
  obtain ⟨hcode, hbefore, hafter⟩ := hpage
  refine ⟨⟨hcode, hbefore, hafter, fun name heq => ?_⟩, by decide +kernel⟩
  simp [linkedPage, brokenPage] at heq

end Weave.Command
