import Weave.Files.Tree
import Weave.Proofs.Text.Rows

set_option autoImplicit false
set_option relaxedAutoImplicit false

/-!
# Walks along paths

A walk along some names goes on along the names after them, from where it has come to. So a file is
found where the names before its own have led, below that place, unless a link stands there.

## Main definitions

* `Weave.Path.IsFileName` — a name that leads to a file in whatever directory it is looked up.
* `Weave.Path.directoryParts` — the names on the way to a directory.

## Main results

* `Weave.Path.parts_join` — the names of a path that goes on from a directory.
* `Weave.Tree.locate_append_eq_ok` — a walk is two walks.
* `Weave.Tree.locate_induction` — an induction along a walk.
* `Weave.Tree.find_eq_ok_iff` — when a path is found.
* `Weave.Tree.find_join_eq_ok` — where a file of a directory is found.
-/

namespace Weave

namespace Path

variable {name : Text}

/-- Whether a name leads to a place below the directory that it is looked up in. -/
def isProper (name : Text) : Bool :=
  name != [] && name != here && name != above

/-- **A name that leads to a file** in whatever directory it is looked up. -/
def IsFileName (name : Text) : Prop :=
  '/' ∉ name ∧ isProper name = true

/-- The names on the way to a directory. -/
def directoryParts (directory : Text) : List Text :=
  if directory = [] then []
  else if directory.getLast? = some '/' then (parts directory).dropLast
  else parts directory

/-- A name leads to a file if it is long enough to lead neither upwards nor nowhere. -/
lemma isFileName_of_length (hslash : '/' ∉ name) (hlength : 3 ≤ name.length) :
    IsFileName name := by
  refine ⟨hslash, ?_⟩
  simp only [isProper, Bool.and_eq_true, bne_iff_ne]
  refine ⟨⟨?_, ?_⟩, ?_⟩
  all_goals
    intro heq
    rw [heq] at hlength
    exact absurd hlength (by decide)

/-- A name does not begin at the root. -/
lemma IsFileName.isAbsolute (h : IsFileName name) : isAbsolute name = false := by
  rw [Path.isAbsolute, beq_eq_false_iff_ne]
  intro hhead
  exact h.1 (List.mem_of_head? hhead)

/-- A slash at the end of a path is followed by an empty name. -/
lemma parts_concat_slash (path : Text) : parts (path ++ ['/']) = parts path ++ [[]] :=
  Text.fields_append '/' path []

/-- The names of a file in a directory are those of the directory, and its own. -/
lemma parts_join (h : IsFileName name) (directory : Text) :
    parts (join directory name) = directoryParts directory ++ [name] := by
  have hname : parts name = [name] := Text.fields_eq_singleton h.1
  rw [join, h.isAbsolute, directoryParts]
  by_cases hempty : directory = []
  · simp [hempty, hname]
  · simp only [hempty, Bool.false_eq_true, or_false, if_false]
    split
    next hslash =>
      obtain ⟨before, rfl⟩ := List.getLast?_eq_some_iff.1 hslash
      have hparts (t : Text) : parts (before ++ '/' :: t) = parts before ++ parts t :=
        Text.fields_append '/' before t
      rw [List.append_assoc, List.singleton_append, hparts, hname, parts_concat_slash,
        List.dropLast_concat]
    next => rw [parts, Text.fields_append, ← parts, ← parts, hname]

/-- A file in a directory is found from where the directory is. -/
lemma isAbsolute_join (h : IsFileName name) (directory : Text) :
    isAbsolute (join directory name) = isAbsolute directory := by
  rw [join, h.isAbsolute]
  cases directory with
  | nil =>
    rw [if_pos (.inr rfl)]
    exact h.isAbsolute
  | cons c directory =>
    simp only [reduceCtorEq, Bool.false_eq_true, or_false, if_false]
    split <;> rfl

/-- A path goes through some names, of which each may be empty. -/
lemma parts_ne_nil (path : Text) : parts path ≠ [] :=
  Text.fields_ne_nil '/' path

end Path

namespace Tree

variable {tree : Tree} {place next last above : Place} {links : ℕ} {name path directory : Text}
  {names more : List Text}

/-! ## Steps -/

/-- A step is made from a directory. -/
lemma get?_of_step (h : tree.step place name = .ok next) :
    tree.get? place = some .directory := by
  unfold step at h
  split at h
  next => cases h
  next => cases h
  next hdirectory => exact hdirectory

/-- A step depends on nothing but that it is made from a directory. -/
lemma step_eq_of_get? {other : Tree} (h : tree.get? place = other.get? place) (name : Text) :
    tree.step place name = other.step place name := by
  rw [step, step, h]

/-- A proper name leads below the directory. -/
lemma step_eq_append (h : tree.step place name = .ok next) (hname : Path.isProper name = true) :
    next = place ++ [name] := by
  simp only [Path.isProper, Bool.and_eq_true, bne_iff_ne, ne_eq] at hname
  rw [step, get?_of_step h] at h
  simp only [hname, or_self, if_false] at h
  split at h
  next => cases h
  next => exact (Except.ok.inj h).symm

/-! ## Walks -/

/-- **Going through names** and then through others: the others are gone through from where the
names have led, or are left after a link. -/
lemma advance_append (place : Place) (names more : List Text) :
    tree.advance place (names ++ more) =
      match tree.advance place names with
      | .error fault => .error fault
      | .ok (.arrived middle) => tree.advance middle more
      | .ok (.detour middle rest) => .ok (.detour middle (rest ++ more)) := by
  induction names generalizing place with
  | nil => rfl
  | cons name names ih =>
    rw [List.cons_append, advance, advance]
    cases tree.step place name with
    | error fault => rfl
    | ok next =>
      dsimp only
      cases tree.link? next with
      | none => exact ih next
      | some path => simp only [List.append_assoc]

/-- **A walk is two walks**, of which the second one begins where the first one has come to. It has
fewer links left.

**Proof sketch.** Induction on the links that are left. The walk along the first names arrives or
comes to a link. In the first case the second walk begins there; in the second one the names that
are left are walked along with one link fewer. -/
lemma locate_append_eq_ok (h : tree.locate links place (names ++ more) = .ok last) :
    ∃ middle fewer, tree.locate links place names = .ok middle ∧
      tree.locate fewer middle more = .ok last := by
  induction links generalizing place names with
  | zero =>
    rw [locate, advance_append] at h
    cases hadvance : tree.advance place names with
    | error fault => simp [hadvance] at h
    | ok stage =>
      cases stage with
      | arrived middle =>
        rw [hadvance] at h
        exact ⟨middle, 0, by rw [locate, hadvance], by rw [locate]; exact h⟩
      | detour middle rest => simp [hadvance] at h
  | succ links ih =>
    rw [locate, advance_append] at h
    cases hadvance : tree.advance place names with
    | error fault => simp [hadvance] at h
    | ok stage =>
      cases stage with
      | arrived middle =>
        rw [hadvance] at h
        exact ⟨middle, links + 1, by rw [locate, hadvance], by rw [locate]; exact h⟩
      | detour middle rest =>
        rw [hadvance] at h
        rw [locate, hadvance]
        exact ih h

/-- What is gone through after a link is not nothing. -/
lemma ne_nil_of_advance {middle : Place} {rest : List Text}
    (h : tree.advance place names = .ok (.detour middle rest)) : rest ≠ [] := by
  induction names generalizing place with
  | nil => cases h
  | cons name names ih =>
    rw [advance] at h
    split at h
    next => cases h
    next =>
      split at h
      next => exact ih h
      next =>
        cases h
        exact fun hnil => Path.parts_ne_nil _ (List.append_eq_nil_iff.1 hnil).1

/-- No link stands where names have led. -/
lemma link?_of_advance (hnames : names ≠ [])
    (h : tree.advance place names = .ok (.arrived last)) : tree.link? last = none := by
  induction names generalizing place with
  | nil => exact absurd rfl hnames
  | cons name names ih =>
    rw [advance] at h
    split at h
    next => cases h
    next next _ =>
      split at h
      next hlink =>
        by_cases hnil : names = []
        · subst hnil
          cases h
          exact hlink
        · exact ih hnil h
      next => cases h

/-- **An induction along a walk**: either no link is met, or the walk goes on after the first one
with one link fewer. -/
theorem locate_induction {motive : ∀ links place names,
      tree.locate links place names = .ok last → Prop}
    (arrived : ∀ links place names h, tree.advance place names = .ok (.arrived last) →
      motive links place names h)
    (detour : ∀ links place names middle rest h
      (hrest : tree.locate links middle rest = .ok last),
      tree.advance place names = .ok (.detour middle rest) → motive links middle rest hrest →
        motive (links + 1) place names h)
    {links : ℕ} {place : Place} {names : List Text}
    (h : tree.locate links place names = .ok last) : motive links place names h := by
  induction links generalizing place names with
  | zero =>
    have hwalk := h
    rw [locate] at hwalk
    split at hwalk
    next => cases hwalk
    next hadvance =>
      cases hwalk
      exact arrived 0 place names h hadvance
    next => cases hwalk
  | succ links ih =>
    have hwalk := h
    rw [locate] at hwalk
    split at hwalk
    next => cases hwalk
    next hadvance =>
      cases hwalk
      exact arrived (links + 1) place names h hadvance
    next middle rest hadvance =>
      exact detour links place names middle rest h hwalk hadvance (ih hwalk)

/-- No link stands where a walk has come to. -/
lemma link?_of_locate (hnames : names ≠ []) (h : tree.locate links place names = .ok last) :
    tree.link? last = none := by
  induction h using locate_induction with
  | arrived links place names _ hadvance => exact link?_of_advance hnames hadvance
  | detour links place names middle rest _ _ hadvance ih => exact ih (ne_nil_of_advance hadvance)

/-- A walk along one name is a step, unless a link stands where it leads to. -/
lemma step_of_locate (h : tree.locate links place [name] = .ok last) :
    ∃ next, tree.step place name = .ok next ∧ (tree.link? next = none → last = next) := by
  rw [locate, advance] at h
  cases hstep : tree.step place name with
  | error fault => simp [hstep] at h
  | ok next =>
    refine ⟨next, rfl, fun hlink => ?_⟩
    simp only [hstep, hlink, advance, Except.ok.injEq] at h
    exact h.symm

/-! ## Paths -/

/-- Some names of a path lead to a place if its text is one and a walk comes to the place. -/
lemma locatePath_eq_ok_iff :
    tree.locatePath path names = .ok place ↔
      textFault? path = none ∧ tree.locate linkLimit (start tree.home path) names = .ok place := by
  unfold locatePath
  split
  next hfault => simp [hfault]
  next hnone => simp [hnone]

/-- **A path is found** if its text is one, and a walk along its names comes to where something
stands. -/
lemma find_eq_ok_iff :
    tree.find path = .ok place ↔
      (textFault? path = none ∧
        tree.locate linkLimit (start tree.home path) (Path.parts path) = .ok place) ∧
      tree.get? place ≠ none := by
  rw [← locatePath_eq_ok_iff, find]
  cases tree.locatePath path (Path.parts path) with
  | error fault => simp
  | ok found =>
    by_cases hnone : tree.get? found = none
    · simp only [hnone, if_true, reduceCtorEq, Except.ok.injEq, false_iff]
      rintro ⟨rfl, h⟩
      exact h hnone
    · simp only [hnone, if_false, Except.ok.injEq]
      exact ⟨fun h => ⟨h, h ▸ hnone⟩, And.left⟩

/-- The names on the way to a directory lead to it.

**Proof sketch.** If the path ends in a slash, its last part is empty: by `locate_append_eq_ok` the
walk along the other parts has come to a place, and the empty name stays there, where no link stands
(`link?_of_locate`). -/
lemma locate_directoryParts (hfind : tree.find directory = .ok place) :
    tree.locate linkLimit (start tree.home directory) (Path.directoryParts directory) =
      .ok place := by
  obtain ⟨⟨htext, hlocate⟩, -⟩ := find_eq_ok_iff.1 hfind
  unfold Path.directoryParts
  split
  next hempty =>
    rw [hempty] at htext
    cases htext
  next =>
    split
    next hslash =>
      obtain ⟨before, hbefore⟩ := List.getLast?_eq_some_iff.1 hslash
      have hparts : Path.parts directory = Path.parts before ++ [[]] := by
        rw [hbefore, Path.parts_concat_slash]
      rw [hparts, List.dropLast_concat]
      rw [hparts] at hlocate
      obtain ⟨middle, fewer, hmiddle, hlast⟩ := locate_append_eq_ok hlocate
      obtain ⟨next, hstep, hnext⟩ := step_of_locate hlast
      -- The empty name stays where the others have led, and no link stands there.
      obtain rfl : middle = next := by
        rw [step, get?_of_step hstep] at hstep
        exact Except.ok.inj hstep
      rw [hnext (link?_of_locate (Path.parts_ne_nil before) hmiddle)]
      exact hmiddle
    next => exact hlocate

/-- **Where a file of a directory is found**: below the place that the names on the way to the
directory lead to, unless a link stands there. -/
lemma find_join_eq_ok (hname : Path.IsFileName name)
    (hfind : tree.find (Path.join directory name) = .ok place) :
    ∃ above, tree.locate linkLimit (start tree.home directory) (Path.directoryParts directory) =
        .ok above ∧ (tree.link? (above ++ [name]) = none → place = above ++ [name]) := by
  obtain ⟨⟨-, hlocate⟩, -⟩ := find_eq_ok_iff.1 hfind
  rw [start, Path.isAbsolute_join hname, ← start, Path.parts_join hname] at hlocate
  obtain ⟨above, fewer, habove, hlast⟩ := locate_append_eq_ok hlocate
  obtain ⟨next, hstep, hnext⟩ := step_of_locate hlast
  obtain rfl := step_eq_append hstep hname.2
  exact ⟨above, habove, hnext⟩

/-- **A file is found** in the directory that it is looked up in, unless a link stands there. -/
lemma find_join_eq (hname : Path.IsFileName name) (hdirectory : tree.find directory = .ok above)
    (hfind : tree.find (Path.join directory name) = .ok place)
    (hlink : tree.link? (above ++ [name]) = none) : place = above ++ [name] := by
  obtain ⟨above', habove, hplace⟩ := find_join_eq_ok hname hfind
  obtain rfl : above' = above :=
    Except.ok.inj (habove.symm.trans (locate_directoryParts hdirectory))
  exact hplace hlink

end Tree

end Weave
