import Weave.Proofs.Files.Walking
import Weave.Proofs.Stateful

set_option autoImplicit false
set_option relaxedAutoImplicit false

/-!
# What becomes of a tree of files

Directories are created where nothing stood, and files are written where no directory stands. So
nothing is ever removed, links stay as they are, whatever a path has led to it still leads to, and
only what is written changes.

## Main definitions

* `Weave.Tree.fileAt?` — the contents of the file at a place.
* `Weave.Tree.Grows` — a tree from which nothing was removed.
* `Weave.Tree.Writes` — a tree in which given files were written, and no other one has changed.

## Main results

* `Weave.Tree.Grows.find_eq_ok` — a path leads where it has led before.
* `Weave.Tree.writes_write` — writing a file changes the file that the path leads to.
* `Weave.Tree.leads_createDirectories` — creating directories changes no file.
-/

namespace Weave.Tree

/-- **The contents of the file** at a place, if there is one. -/
def fileAt? (tree : Tree) (place : Place) : Option Bytes :=
  match tree.get? place with
  | some (.file contents) => some contents
  | _ => none

/-- A file that is put changes what is at its place and at its other names, and nothing else. -/
lemma fileAt?_put {tree : Tree} {place : Place} (hfree : tree.get? place ≠ some .directory)
    (contents : Bytes) (other : Place) :
    (tree.put place (.file contents)).fileAt? other =
      if tree.keptAt other = tree.keptAt place then some contents else tree.fileAt? other := by
  rw [fileAt?, get?_put _ _ _ _ hfree]
  by_cases h : tree.keptAt other = tree.keptAt place
  · rw [if_pos h, if_pos h]
  · rw [if_neg h, if_neg h]
    rfl

/-! ## Growth -/

/-- **A tree from which nothing was removed**: directories are still there, where something stood
something still stands, and the links and the further names of files are the same. -/
structure Grows (tree next : Tree) : Prop where
  home : next.home = tree.home
  links : next.links = tree.links
  names : next.names = tree.names
  directory : ∀ place, tree.get? place = some .directory → next.get? place = some .directory
  there : ∀ place, tree.get? place ≠ none → next.get? place ≠ none

namespace Grows

variable {tree next last : Tree} {place : Place} {links : ℕ} {name path : Text} {names : List Text}

/-- Nothing is removed from a tree that stays as it is. -/
lemma refl (tree : Tree) : tree.Grows tree :=
  ⟨rfl, rfl, rfl, fun _ h => h, fun _ h => h⟩

/-- If nothing is removed twice, then nothing is removed. -/
lemma trans (h : tree.Grows next) (h' : next.Grows last) : tree.Grows last :=
  ⟨h'.home.trans h.home, h'.links.trans h.links, h'.names.trans h.names,
    fun place hplace => h'.directory place (h.directory place hplace),
    fun place hplace => h'.there place (h.there place hplace)⟩

/-- A link leads along its path as before. -/
lemma link?_eq (h : tree.Grows next) (place : Place) : next.link? place = tree.link? place := by
  rw [link?, link?, h.links]

/-- A name is a name of the same file as before. -/
lemma keptAt_eq (h : tree.Grows next) (place : Place) :
    next.keptAt place = tree.keptAt place := by
  rw [keptAt, keptAt, h.names]

/-- A step leads where it has led before. -/
lemma step_eq_ok {start : Place} (h : tree.Grows next) (hstep : tree.step start name = .ok place) :
    next.step start name = .ok place := by
  have hdirectory := get?_of_step hstep
  rw [← hstep]
  exact step_eq_of_get? ((h.directory start hdirectory).trans hdirectory.symm) name

/-- Names lead as far as they have led before. -/
lemma advance_eq_ok {stage : Stage} (h : tree.Grows next)
    (hadvance : tree.advance place names = .ok stage) : next.advance place names = .ok stage := by
  induction names generalizing place with
  | nil => exact hadvance
  | cons name names ih =>
    rw [advance] at hadvance ⊢
    split at hadvance
    next => cases hadvance
    next middle hstep =>
      rw [h.step_eq_ok hstep]
      dsimp only
      rw [h.link?_eq middle]
      split at hadvance
      next => exact ih hadvance
      next => exact hadvance

/-- **A walk comes to where it has come** before. -/
lemma locate_eq_ok {start : Place} (h : tree.Grows next)
    (hlocate : tree.locate links start names = .ok place) :
    next.locate links start names = .ok place := by
  induction hlocate using locate_induction with
  | arrived links start names _ hadvance => rw [locate, h.advance_eq_ok hadvance]
  | detour links start names middle rest _ _ hadvance ih =>
    rw [locate, h.advance_eq_ok hadvance]
    exact ih

/-- **A path leads where it has led** before. -/
theorem find_eq_ok (h : tree.Grows next) (hfind : tree.find path = .ok place) :
    next.find path = .ok place := by
  rw [find_eq_ok_iff] at hfind ⊢
  rw [h.home]
  exact ⟨⟨hfind.1.1, h.locate_eq_ok hfind.1.2⟩, h.there place hfind.2⟩

end Grows

/-- What is put where no directory stands removes nothing. -/
lemma grows_put {tree : Tree} {place : Place} (hfree : tree.get? place ≠ some .directory)
    (node : Node) : tree.Grows (tree.put place node) := by
  refine ⟨rfl, rfl, rfl, fun other hother => ?_, fun other hother => ?_⟩
  · have hapart : tree.keptAt other ≠ tree.keptAt place := by
      intro hkept
      refine hfree ?_
      rwa [get?, ← hkept, ← get?]
    rwa [get?_put _ _ _ _ hfree, if_neg hapart]
  · rw [get?_put _ _ _ _ hfree]
    split
    · exact Option.some_ne_none _
    · exact hother

/-! ## Writing -/

/-- **A tree in which given files were written.** Directories may have been created besides; the
other files are as they were. -/
structure Writes (P : Place → Bytes → Prop) (tree next : Tree) : Prop extends Grows tree next where
  file : ∀ place, next.fileAt? place = tree.fileAt? place ∨
    ∃ contents, P place contents ∧ next.fileAt? place = some contents

namespace Writes

variable {P Q : Place → Bytes → Prop} {tree next last : Tree}

/-- No file was written in a tree that stays as it is. -/
lemma refl (tree : Tree) : tree.Writes P tree :=
  ⟨.refl tree, fun _ => .inl rfl⟩

/-- Given files were written if they were written on the way. -/
lemma trans (h : tree.Writes P next) (h' : next.Writes P last) : tree.Writes P last := by
  refine ⟨h.toGrows.trans h'.toGrows, fun place => ?_⟩
  rcases h'.file place with hsame | hwritten
  · rw [hsame]
    exact h.file place
  · exact .inr hwritten

/-- If given files were written, then so were any others that they are among. -/
lemma mono (h : tree.Writes P next) (hPQ : ∀ place contents, P place contents → Q place contents) :
    tree.Writes Q next := by
  refine ⟨h.toGrows, fun place => (h.file place).imp_right ?_⟩
  rintro ⟨contents, hcontents, hfile⟩
  exact ⟨contents, hPQ place contents hcontents, hfile⟩

end Writes

/-- **Where a file is put** is where the path leads to afterwards. No directory has stood there.

**Proof sketch.** A file is put where the path leads to, with no directory there (`placeToWrite`).
The tree only grows, so the path leads to the same place afterwards, where something stands now. -/
lemma write_eq_ok {tree next : Tree} {path : Text} {contents : Bytes}
    (h : tree.write path contents = .ok next) :
    ∃ place, next = tree.put place (.file contents) ∧ tree.get? place ≠ some .directory ∧
      next.find path = .ok place := by
  obtain ⟨place, hplace, rfl⟩ : ∃ place, tree.placeToWrite path = .ok place ∧
      tree.put place (.file contents) = next := by
    unfold write at h
    cases hplace : tree.placeToWrite path with
    | error fault =>
      rw [hplace] at h
      cases h
    | ok place =>
      rw [hplace] at h
      exact ⟨place, rfl, Except.ok.inj h⟩
  unfold placeToWrite at hplace
  split at hplace
  next => cases hplace
  next found hfound =>
    split at hplace
    next => cases hplace
    next hfree =>
      cases hplace
      have hgrows := grows_put hfree (.file contents)
      obtain ⟨htext, hlocate⟩ := locatePath_eq_ok_iff.1 hfound
      refine ⟨place, rfl, hfree, find_eq_ok_iff.2 ⟨⟨htext, hgrows.locate_eq_ok hlocate⟩, ?_⟩⟩
      rw [get?_put _ _ _ _ hfree, if_pos rfl]
      exact Option.some_ne_none _

/-- Writing a file removes nothing. -/
lemma grows_write {tree next : Tree} {path : Text} {contents : Bytes}
    (h : tree.write path contents = .ok next) : tree.Grows next := by
  obtain ⟨place, rfl, hfree, -⟩ := write_eq_ok h
  exact grows_put hfree _

/-- **Writing a file** changes the file that the path leads to, whatever name it is looked up by,
and no other one. -/
lemma writes_write {P : Place → Bytes → Prop} {tree next : Tree} {path : Text} {contents : Bytes}
    (h : tree.write path contents = .ok next)
    (hP : ∀ found place, next.find path = .ok found → next.keptAt place = next.keptAt found →
      P place contents) : tree.Writes P next := by
  obtain ⟨place, rfl, hfree, hfind⟩ := write_eq_ok h
  refine ⟨grows_put hfree _, fun other => ?_⟩
  rw [fileAt?_put hfree]
  split
  next hkept => exact .inr ⟨contents, hP place other hfind hkept, rfl⟩
  next => exact .inl rfl

/-- Creating a directory changes no file.

**Proof sketch.** A directory is put at a place where nothing has stood. So the tree grows, and
wherever something is found that was not found before, it is this directory and no file. -/
lemma writes_createDirectory {P : Place → Bytes → Prop} {tree next : Tree} {path : Text}
    (h : tree.createDirectory path = .ok next) : tree.Writes P next := by
  obtain ⟨place, hnone, rfl⟩ :
      ∃ place, tree.get? place = none ∧ tree.put place .directory = next := by
    unfold createDirectory at h
    cases hplace : tree.placeToCreate path with
    | error fault =>
      rw [hplace] at h
      cases h
    | ok place =>
      rw [hplace] at h
      refine ⟨place, ?_, Except.ok.inj h⟩
      unfold placeToCreate at hplace
      dsimp only at hplace
      split at hplace
      next => cases hplace
      next =>
        split at hplace
        next => cases hplace
        next =>
          split at hplace
          next hfree =>
            cases hplace
            exact hfree.1
          next => cases hplace
  have hfree : tree.get? place ≠ some .directory := by
    rw [hnone]
    exact nofun
  refine ⟨grows_put hfree _, fun other => .inl ?_⟩
  rw [fileAt?, fileAt?, get?_put _ _ _ _ hfree]
  by_cases hkept : tree.keptAt other = tree.keptAt place
  · have hother : tree.get? other = none := by rwa [get?, hkept, ← get?]
    rw [if_pos hkept, hother]
  · rw [if_neg hkept]

/-! ## Computations -/

/-- A change of a tree is made, or ends in a fault and leaves the tree as it is. -/
lemma change_apply (f : Tree → Except FileFault Tree) (tree : Tree) :
    change f tree =
      match f tree with
      | .ok next => (.ok (), next)
      | .error fault => (.error fault, tree) := by
  rw [change, bind_apply]
  change (match f tree with
    | .ok next => (do set next; return .ok () : StateM Tree (Except FileFault Unit))
    | .error fault => return .error fault) tree = _
  cases f tree <;> rfl

/-- **What is attempted** is done, or ends in a fault and leaves the tree as it is. -/
lemma attempt_apply {α : Type} (refused? : Tree → Option FileFault)
    (step : StateM Tree (Except FileFault α)) (tree : Tree) :
    attempt refused? step tree = step tree ∨
      ∃ fault, attempt refused? step tree = (.error fault, tree) := by
  rw [attempt, bind_apply]
  cases refused? ((get : StateM Tree Tree) tree).1 with
  | none => exact .inl rfl
  | some fault => exact .inr ⟨fault, rfl⟩

section

variable {P : Place → Bytes → Prop} (refused? : Operation → Tree → Option FileFault)

/-- Creating a directory changes no file, whatever comes of it. -/
lemma leads_createDirectory (path : Text) :
    Leads (Writes P) ((refusing refused?).createDirectory path) := by
  intro tree
  have hcreate : (refusing refused?).createDirectory path tree =
      change (·.createDirectory path) tree ∨
        ∃ fault, (refusing refused?).createDirectory path tree = (.error fault, tree) :=
    attempt_apply _ _ tree
  rcases hcreate with happly | ⟨fault, happly⟩
  · rw [happly, change_apply]
    split
    next next hnext => exact writes_createDirectory hnext
    next => exact .refl tree
  · rw [happly]
    exact .refl tree

/-- Looking whether a path leads to a directory changes no file. -/
lemma leads_isDirectory (path : Text) :
    Leads (Writes P) ((refusing refused?).isDirectory path) := by
  refine Leads.bind .trans (fun tree => .refl tree) fun tree => ?_
  split
  · exact .of_pure .refl _
  · exact fun tree => .refl tree

/-- Accepting a directory that is there changes no file. -/
lemma leads_acceptDirectory (path : Text) (outcome : Except FileFault Unit) :
    Leads (Writes P) ((refusing refused?).acceptDirectory path outcome) := by
  cases outcome with
  | ok _ => exact .of_pure .refl _
  | error fault =>
    refine Leads.bind .trans (leads_isDirectory refused? path) fun there => ?_
    cases there with
    | true => exact .of_pure .refl _
    | false => exact .of_pure .refl _

/-- Creating a directory after those above it changes no file.

**Proof sketch.** Induction on the directories above. Each is created before the next one, and what
creating it fails with changes nothing. -/
lemma leads_createBelow (path : Text) (ancestors : List Text) :
    Leads (Writes P) ((refusing refused?).createBelow path ancestors) := by
  induction ancestors generalizing path with
  | nil =>
    rw [FileSystem.createBelow]
    split
    next => exact .of_pure .refl _
    next =>
      exact Leads.bind .trans (leads_createDirectory refused? path) fun outcome =>
        leads_acceptDirectory refused? path outcome
  | cons parent rest ih =>
    rw [FileSystem.createBelow]
    refine Leads.bind .trans (leads_createDirectory refused? path) fun outcome => ?_
    split
    next =>
      refine Leads.bind .trans (ih parent) fun above => ?_
      cases above with
      | ok _ =>
        exact Leads.bind .trans (leads_createDirectory refused? path) fun outcome =>
          leads_acceptDirectory refused? path outcome
      | error fault => exact .of_pure .refl _
    next => exact leads_acceptDirectory refused? path _

/-- **Creating directories** changes no file. -/
theorem leads_createDirectories (path : Text) :
    Leads (Writes P) ((refusing refused?).createDirectories path) :=
  leads_createBelow refused? path (Path.ancestors path)

end

end Weave.Tree
