import Weave.Filter.BlockComment
import Weave.Filter.LineTag
import Weave.Filter.Substitution

set_option autoImplicit false
set_option relaxedAutoImplicit false

/-!
# The filter

Before a source is cut into chunks, its text is adapted to the target: in a fixed order, every
rule on the whole text.

## Main definitions

* `Weave.filter` — a text as it is meant for a target.
-/

namespace Weave

/-- Formulas as the target shows them. -/
def adaptFormulas (target : Target) (s : Settings) (t : Text) : Text :=
  match target with
  | .notebook => Formula.forNotebook t
  | .markdown => if s.documenter then Formula.forDocumenter t else t
  | .script => t

/-- Links that the documentation tool understands, where it does not see them. -/
def reduceLinks (target : Target) (s : Settings) (t : Text) : Text :=
  if s.documenter && target != .markdown then CrossReference.strip t else t

/-- **A text as it is meant for a target.** -/
def filter (target : Target) (s : Settings) (t : Text) : Text :=
  reduceLinks target s <| Placeholder.substitute s <| adaptFormulas target s <|
    LineTag.keep target <| BlockComment.expand <| Text.unifyLineEnds t

end Weave
