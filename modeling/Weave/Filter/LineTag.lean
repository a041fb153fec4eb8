import Weave.Filter.Marker
import Weave.Text.Lines

set_option autoImplicit false
set_option relaxedAutoImplicit false

/-!
# Lines for some targets only

A line can be tagged at its beginning and at its end, several times. For a target that one of the
tags does not admit the line is left out; otherwise the tags are peeled off from the outside. A tag
can be peeled off only if a blank separates it from the rest of the line; one that is not separated
still has its say, but ends the peeling.

## Main definitions

* `Weave.LineTag.outermost?` — the tag to be peeled off next.
* `Weave.LineTag.peel` — a line without its tags, unless a tag excludes it.
* `Weave.LineTag.keep` — the lines of a text that are kept for a target.
-/

namespace Weave.LineTag

/-- The rest of a line after a tag at its beginning, if it can be peeled off. -/
def afterTag (rest : Text) : Option Text :=
  match rest with
  | [] => some []
  | ' ' :: rest => some rest
  | _ => none

/-- The rest of a line before a tag at its end, if it can be peeled off. -/
def beforeTag (rest : Text) : Option Text :=
  if rest = [] then some [] else Text.stripSuffix? [' '] rest

/-- The tag at the beginning of a line, and the line without it if it can be peeled off. -/
def leading? (line : Text) : Option (Marker × Option Text) :=
  Marker.lineTags.findSome? fun (tag, marker) =>
    (Text.stripPrefix? tag line).map fun rest => (marker, afterTag rest)

/-- The tag at the end of a line, and the line without it if it can be peeled off. -/
def trailing? (line : Text) : Option (Marker × Option Text) :=
  Marker.lineTags.findSome? fun (tag, marker) =>
    (Text.stripSuffix? tag line).map fun rest => (marker, beforeTag rest)

/-- The tag to be peeled off next: one at the beginning comes before one at the end. -/
def outermost? (line : Text) : Option (Marker × Option Text) :=
  (leading? line).or (trailing? line)

/-- A tag is not empty. -/
theorem tag_ne_nil {tag : Text} {marker : Marker} (h : (tag, marker) ∈ Marker.lineTags) :
    0 < tag.length := by
  simp only [Marker.lineTags, List.mem_cons, Prod.mk.injEq, List.not_mem_nil, or_false] at h
  rcases h with h | h | h | h | h | h | h <;> simp [h.1]

/-- What follows a tag at the beginning of a line is no longer than the line. -/
theorem afterTag_length {rest line : Text} (h : afterTag rest = some line) :
    line.length ≤ rest.length := by
  unfold afterTag at h
  split at h <;> simp_all

/-- What stands before a tag at the end of a line is no longer than the line. -/
theorem beforeTag_length {rest line : Text} (h : beforeTag rest = some line) :
    line.length ≤ rest.length := by
  unfold beforeTag at h
  split at h
  · simp_all
  · rw [Text.stripSuffix?_eq_some_iff] at h
    simp [h]

/-- **Peeling shortens** a line. -/
theorem outermost?_length {line rest : Text} {marker : Marker}
    (h : outermost? line = some (marker, some rest)) : rest.length < line.length := by
  rw [outermost?, Option.or_eq_some_iff] at h
  rcases h with h | ⟨-, h⟩
  all_goals
    obtain ⟨⟨tag, m⟩, hmem, h⟩ := List.exists_of_findSome?_eq_some h
    have hpos := tag_ne_nil hmem
    simp only [Option.map_eq_some_iff, Prod.mk.injEq] at h
    obtain ⟨r, hr, -, h⟩ := h
  · rw [Text.stripPrefix?_eq_some_iff] at hr
    have := afterTag_length h
    simp only [hr, List.length_append]
    omega
  · rw [Text.stripSuffix?_eq_some_iff] at hr
    have := beforeTag_length h
    simp only [hr, List.length_append]
    omega

/-- **A line without its tags**, or nothing if one of the tags does not admit the target. -/
def peel (target : Target) (line : Text) : Option Text :=
  match _h : outermost? line with
  | none => some line
  | some (marker, none) => if marker.admits target then some line else none
  | some (marker, some rest) => if marker.admits target then peel target rest else none
termination_by line.length
decreasing_by exact outermost?_length _h

/-- The tag of a line that is for no target. -/
def neverTag : Text :=
  "#src".toList

/-- A line as it is kept for a target. A line that begins or ends with the tag for no target is left
out whatever its other tags say. -/
def keepLine (target : Target) (line : Text) : Option Text :=
  if Text.startsWith neverTag line || Text.endsWith neverTag line then none
  else peel target line

/-- A piece of a text as it is kept: its line, with the line feed that ends it. -/
def keepPiece (target : Target) (piece : Text) : Text :=
  match Text.stripSuffix? ['\n'] piece with
  | some line => ((keepLine target line).map (· ++ ['\n'])).getD []
  | none => (keepLine target piece).getD []

/-- **The lines of a text** that are kept for a target. -/
def keep (target : Target) (t : Text) : Text :=
  (Text.pieces t).flatMap (keepPiece target)

end Weave.LineTag
