import Weave.Target

set_option autoImplicit false
set_option relaxedAutoImplicit false

/-!
# Markers

A marker on a line of a source says where a chunk begins or for which targets the line is meant.

## Main definitions

* `Weave.Marker` — the markers, read from their spelling by `Weave.Marker.ofText?`.
* `Weave.Marker.admits` — whether a line with a marker is kept for a target.

## Main results

* `Weave.Marker.ofText?_eq_some_iff` — the spellings of the markers.
-/

namespace Weave

/-- A marker. -/
inductive Marker where
  /-- A new chunk begins here. -/
  | cut
  /-- A new chunk of code begins here and goes on with the code before it. -/
  | join
  /-- The line is for one target. -/
  | only (target : Target)
  /-- The line is for all targets but one. -/
  | except (target : Target)
  /-- The line is for no target. -/
  | never
deriving DecidableEq, Repr

namespace Marker

/-- The tags that a line can begin and end with, in the order in which they are tried. -/
def lineTags : List (Text × Marker) :=
  [("#!md".toList, except .markdown), ("#!nb".toList, except .notebook),
    ("#!jl".toList, except .script), ("#src".toList, never), ("#md".toList, only .markdown),
    ("#nb".toList, only .notebook), ("#jl".toList, only .script)]

/-- The marker with a given spelling. -/
def ofText? (t : Text) : Option Marker :=
  if t = "#-".toList then some cut
  else if t = "#+".toList then some join
  else (lineTags.find? fun (spelling, _) => spelling == t).map Prod.snd

/-- **The spellings of the markers**: each tag of lines is read as its marker, and nothing is read
but these tags and the two spellings of marks between chunks. -/
theorem ofText?_eq_some_iff {t : Text} {marker : Marker} :
    ofText? t = some marker ↔ (t = "#-".toList ∧ marker = cut) ∨ (t = "#+".toList ∧ marker = join) ∨
      (t, marker) ∈ lineTags := by
  constructor
  · intro h
    unfold ofText? at h
    split at h
    next ht => exact .inl ⟨ht, (Option.some.inj h).symm⟩
    next =>
      split at h
      next ht => exact .inr (.inl ⟨ht, (Option.some.inj h).symm⟩)
      next =>
        obtain ⟨⟨spelling, marker⟩, hfind, rfl⟩ := Option.map_eq_some_iff.1 h
        have hspelling : spelling = t := by simpa using List.find?_some hfind
        exact .inr (.inr (hspelling ▸ List.mem_of_find?_eq_some hfind))
  · rintro (⟨rfl, rfl⟩ | ⟨rfl, rfl⟩ | hmem)
    · rfl
    · rfl
    · have hread : ∀ p ∈ lineTags, ofText? p.1 = some p.2 := by decide
      exact hread _ hmem

/-- Whether a line with the marker is kept for a target. -/
def admits (target : Target) : Marker → Bool
  | only t => t == target
  | except t => t != target
  | never => false
  | cut => true
  | join => true

end Marker

end Weave
