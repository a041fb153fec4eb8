import Weave.Proofs.Files.Walking

set_option autoImplicit false
set_option relaxedAutoImplicit false

/-!
# Names of places

A walk comes to a place that is reached by names of files alone, past no link. A path from the root
that goes through the names of such a place leads to it. So two such paths lead to one place only if
they are spelled alike.

## Main definitions

* `Weave.Path.goesOn` — a name that a path goes through.
* `Weave.Tree.Direct` — a place that is reached by names of files, past no link.

## Main results

* `Weave.Path.sameSpelling_ofNames_join_iff` — when two paths to files are spelled alike.
* `Weave.Tree.direct_of_find` — a path leads to a place that is reached directly.
* `Weave.Tree.find_eq_names` — a path from the root leads to the place with its names.
-/

namespace Weave

namespace Path

variable {name directory : Text}

/-- **A name that a path goes through**: it does not stay where it is. -/
def goesOn (name : Text) : Bool :=
  name != [] && name != here

/-- A name that leads to a file goes on. -/
lemma IsFileName.goesOn (h : IsFileName name) : goesOn name = true := by
  have hproper := h.2
  rw [isProper, Bool.and_eq_true] at hproper
  exact hproper.1

/-- The names on the way to a directory are those of its path. -/
lemma filter_directoryParts (directory : Text) :
    (directoryParts directory).filter goesOn = names directory := by
  unfold directoryParts
  split
  next hempty =>
    rw [hempty]
    rfl
  next =>
    split
    next hslash =>
      obtain ⟨before, rfl⟩ := List.getLast?_eq_some_iff.1 hslash
      rw [names, parts_concat_slash, List.dropLast_concat, List.filter_append]
      exact (List.append_nil _).symm
    next => rfl

/-- **The path of a file** goes through the names of the directory, and its own. -/
lemma names_join (h : IsFileName name) (directory : Text) :
    names (join directory name) = names directory ++ [name] := by
  change (parts (join directory name)).filter goesOn = _
  rw [parts_join h, List.filter_append, filter_directoryParts, List.filter_cons_of_pos h.goesOn,
    List.filter_nil]

/-- **A path that is made of names** goes through them. -/
lemma names_ofNames {ns : List Text} (h : ∀ name ∈ ns, IsFileName name) :
    names (ofNames true ns) = ns := by
  have hparts : parts (ofNames true ns) = [] :: parts (List.intercalate ['/'] ns) :=
    Text.fields_append '/' [] (List.intercalate ['/'] ns)
  change (parts (ofNames true ns)).filter goesOn = ns
  rw [hparts]
  by_cases hne : ns = []
  · rw [hne]
    rfl
  · rw [parts, Text.fields_intercalate (fun name hname => (h name hname).1) hne]
    exact List.filter_eq_self.2 fun name hname => (h name hname).goesOn

/-- **When two paths are spelled alike** of which one is made of a place and the other one leads to
a file in the directory at a place: if it is the same place. -/
lemma sameSpelling_ofNames_join_iff {place directory : List Text} (hname : IsFileName name)
    (hplace : ∀ n ∈ place, IsFileName n) (hdirectory : ∀ n ∈ directory, IsFileName n) :
    sameSpelling (ofNames true place) (join (ofNames true directory) name) = true ↔
      place = directory ++ [name] := by
  have habsolute (ns : List Text) : isAbsolute (ofNames true ns) = true := rfl
  rw [sameSpelling, isAbsolute_join hname, habsolute, habsolute, names_join hname,
    names_ofNames hplace, names_ofNames hdirectory, Bool.and_eq_true, beq_iff_eq, beq_iff_eq]
  exact and_iff_right rfl

end Path

namespace Tree

variable {tree : Tree} {place next last : Place} {links : ℕ} {path name : Text}
  {names : List Text}

/-- **A place that is reached directly** from the root: by names of files, and past no link. -/
structure Direct (tree : Tree) (place : Place) : Prop where
  names : ∀ name ∈ place, Path.IsFileName name
  links : ∀ above, above <+: place → tree.link? above = none

namespace Direct

/-- A place on the way to one that is reached directly is reached directly. -/
lemma of_prefix {above : Place} (h : tree.Direct place) (habove : above <+: place) :
    tree.Direct above :=
  ⟨fun name hname => h.names name (habove.subset hname),
    fun _ hbefore => h.links _ (hbefore.trans habove)⟩

/-- A place below one that is reached directly is reached directly, if no link stands there. -/
lemma concat (h : tree.Direct place) (hname : Path.IsFileName name)
    (hlink : tree.link? (place ++ [name]) = none) : tree.Direct (place ++ [name]) := by
  refine ⟨?_, fun above habove => ?_⟩
  · rw [List.forall_mem_append, List.forall_mem_singleton]
    exact ⟨h.names, hname⟩
  · rcases List.prefix_concat_iff.1 habove with rfl | habove
    · exact hlink
    · exact h.links above habove

end Direct

/-- Where a step comes to: nowhere else, upwards, or below the directory.

**Proof sketch.** By the tests of `step`, in their order: names that do not go on, the name of the
directory above, other names. -/
lemma step_eq_ok (hstep : tree.step place name = .ok next) :
    (Path.goesOn name = false ∧ next = place) ∨ (name = Path.above ∧ next = place.dropLast) ∨
      (Path.isProper name = true ∧ next = place ++ [name]) := by
  rw [step, get?_of_step hstep] at hstep
  dsimp only at hstep
  split at hstep
  next hstays =>
    cases hstep
    refine .inl ⟨?_, rfl⟩
    rcases hstays with rfl | rfl <;> rfl
  next hgoes =>
    rw [not_or] at hgoes
    split at hstep
    next habove =>
      cases hstep
      exact .inr (.inl ⟨habove, rfl⟩)
    next hproper =>
      split at hstep
      next => cases hstep
      next =>
        cases hstep
        refine .inr (.inr ⟨?_, rfl⟩)
        simp only [Path.isProper, Bool.and_eq_true, bne_iff_ne]
        exact ⟨hgoes, hproper⟩

/-! ## Where walks come to -/

/-- A step from a place that is reached directly comes to another one, if no link stands there. -/
lemma direct_of_step (h : tree.Direct place) (hslash : '/' ∉ name)
    (hstep : tree.step place name = .ok next) (hlink : tree.link? next = none) :
    tree.Direct next := by
  rcases step_eq_ok hstep with ⟨-, rfl⟩ | ⟨-, rfl⟩ | ⟨hproper, rfl⟩
  · exact h
  · exact h.of_prefix (List.dropLast_prefix place)
  · exact h.concat ⟨hslash, hproper⟩ hlink

/-- A path goes through names without slashes. -/
lemma slash_not_mem_parts (path : Text) : ∀ name ∈ Path.parts path, '/' ∉ name :=
  fun _ hname => Text.not_mem_of_mem_fields hname

/-- Names have led to a place that is reached directly, and none of those that are left has a
slash. -/
def Stage.IsDirect (tree : Tree) : Stage → Prop
  | .arrived last => tree.Direct last
  | .detour middle rest => tree.Direct middle ∧ ∀ name ∈ rest, '/' ∉ name

/-- **Names lead** from a place that is reached directly to another one.

**Proof sketch.** Induction on the names. A step leads from a place that is reached directly to
another one (`direct_of_step`). At a link the walk starts again, from the directory of the link or
from the root, with the parts of the path in it. -/
lemma isDirect_of_advance {stage : Stage} (h : tree.Direct place)
    (hslash : ∀ name ∈ names, '/' ∉ name) (hadvance : tree.advance place names = .ok stage) :
    stage.IsDirect tree := by
  induction names generalizing place with
  | nil =>
    cases hadvance
    exact h
  | cons name names ih =>
    rw [List.forall_mem_cons] at hslash
    rw [advance] at hadvance
    split at hadvance
    next => cases hadvance
    next next hstep =>
      split at hadvance
      next hlink => exact ih (direct_of_step h hslash.1 hstep hlink) hslash.2 hadvance
      next path hlink =>
        cases hadvance
        refine ⟨?_, ?_⟩
        · -- A link leads on from its directory, or from the root.
          unfold start
          split
          · exact h.of_prefix List.nil_prefix
          · exact h
        · rw [List.forall_mem_append]
          exact ⟨slash_not_mem_parts path, hslash.2⟩

/-- **A walk comes** from a place that is reached directly to another one. -/
lemma direct_of_locate (h : tree.Direct place) (hslash : ∀ name ∈ names, '/' ∉ name)
    (hlocate : tree.locate links place names = .ok last) : tree.Direct last := by
  induction hlocate using locate_induction with
  | arrived links place names _ hadvance => exact isDirect_of_advance h hslash hadvance
  | detour links place names middle rest _ _ hadvance ih =>
    obtain ⟨hmiddle, hrest⟩ := isDirect_of_advance h hslash hadvance
    exact ih hmiddle hrest

/-- **A path leads to a place that is reached directly**, if it is so for the place where relative
paths begin. -/
lemma direct_of_find (hhome : tree.Direct tree.home) (hfind : tree.find path = .ok place) :
    tree.Direct place := by
  refine direct_of_locate ?_ (slash_not_mem_parts path) (find_eq_ok_iff.1 hfind).1.2
  unfold start
  split
  · exact hhome.of_prefix List.nil_prefix
  · exact hhome

/-! ## Paths from the root -/

/-- **A walk along the names of a place** that is reached directly, and names that do not go on,
goes to this place.

**Proof sketch.** Induction on the names. A name that does not go on stays where it is, and a name
that does goes to the next place on the way. Neither place is a link, so no step leaves the way. -/
lemma advance_eq_arrived {stage : Stage}
    (h : tree.Direct (place ++ names.filter Path.goesOn))
    (hadvance : tree.advance place names = .ok stage) :
    stage = .arrived (place ++ names.filter Path.goesOn) := by
  induction names generalizing place with
  | nil =>
    rw [List.filter_nil, List.append_nil]
    exact (Except.ok.inj hadvance).symm
  | cons name names ih =>
    rw [advance] at hadvance
    split at hadvance
    next => cases hadvance
    next next hstep =>
      -- The step goes to a place on the way, at which no link stands.
      have hnext : place ++ (name :: names).filter Path.goesOn =
          next ++ names.filter Path.goesOn := by
        cases hgoes : Path.goesOn name with
        | false =>
          rw [List.filter_cons_of_neg (by rw [hgoes]; exact Bool.false_ne_true)]
          rcases step_eq_ok hstep with ⟨-, rfl⟩ | ⟨rfl, -⟩ | ⟨hproper, -⟩
          · rfl
          · cases hgoes
          · rw [Path.isProper, Bool.and_eq_true] at hproper
            exact absurd (hgoes.symm.trans hproper.1) Bool.false_ne_true
        | true =>
          have hname : Path.IsFileName name :=
            h.names name (by rw [List.filter_cons_of_pos hgoes]; simp)
          rw [List.filter_cons_of_pos hgoes, step_eq_append hstep hname.2, List.append_cons]
      rw [hnext] at h ⊢
      rw [h.links next (List.prefix_append _ _)] at hadvance
      exact ih h hadvance

/-- **A path from the root** that goes through the names of a place that is reached directly leads
to it. -/
lemma find_eq_names (habsolute : Path.isAbsolute path = true)
    (h : tree.Direct (Path.names path)) (hfind : tree.find path = .ok place) :
    place = Path.names path := by
  have hlocate := (find_eq_ok_iff.1 hfind).1.2
  rw [start, if_pos habsolute, locate] at hlocate
  split at hlocate
  next => cases hlocate
  next hadvance =>
    cases hlocate
    exact Stage.arrived.inj (advance_eq_arrived h hadvance)
  next hadvance => cases advance_eq_arrived h hadvance

end Tree

end Weave
