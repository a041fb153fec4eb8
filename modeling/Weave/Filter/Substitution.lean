import Weave.Settings
import Weave.Text.Lines

set_option autoImplicit false
set_option relaxedAutoImplicit false

/-!
# Substitution inside the text

Three changes that do not look at lines. Formulas are written the way the target shows them,
placeholders are replaced by settings, and the links that only the documentation tool understands
are reduced to their labels.

## Main definitions

* `Weave.Formula.forNotebook`, `Weave.Formula.forDocumenter` — the two ways to write formulas.
* `Weave.Placeholder.substitute` — placeholders replaced.
* `Weave.CrossReference.strip` — links reduced to their labels.
-/

namespace Weave

namespace Formula

/-- The fence that opens a formula. -/
def opening : Text :=
  "```math".toList

/-- The fence that closes a formula. -/
def closing : Text :=
  "```".toList

/-- The mark on both sides of a displayed formula. -/
def display : Text :=
  "$$".toList

/-- Reads what stands between `left` and the next `right`, and puts it between other marks. -/
def swapMarks (left right newLeft newRight : Text) (t : Text) : Option (Nat × Text) := do
  let rest ← Text.stripPrefix? left t
  let (body, _) ← Text.cutAt? right rest
  return (left.length + body.length + right.length, newLeft ++ body ++ newRight)

/-- Formulas in fences become displayed formulas. -/
def forNotebook (t : Text) : Text :=
  Text.replaceMatches (swapMarks opening closing display display) 0 t

/-- Displayed formulas become formulas in fences. -/
def forDocumenter (t : Text) : Text :=
  Text.replaceMatches (swapMarks display display opening closing) 0 t

end Formula

namespace Placeholder

/-- The placeholders with their values, in the order in which they are replaced. -/
def values (s : Settings) : List (Text × Option Text) :=
  [("@__NAME__".toList, s.name?), ("@__REPO_ROOT_URL__".toList, s.repoRootUrl?),
    ("@__NBVIEWER_ROOT_URL__".toList, s.nbviewerRootUrl?),
    ("@__BINDER_ROOT_URL__".toList, s.binderRootUrl?)]

/-- **Replaces the placeholders**, one after another, by their values. -/
def substitute (s : Settings) (t : Text) : Text :=
  (values s).foldl (fun t (mark, value?) => Text.replace mark (value?.getD unknownValue) t) t

end Placeholder

namespace CrossReference

/-- The length of a link target from after `(@` to the closing parenthesis: `ref`, or `ref` or `id`
with a blank and any text after it. -/
def targetLength? (t : Text) : Option Nat :=
  if Text.startsWith "ref)".toList t then some 4
  else do
    let (word, rest) ←
      ((Text.stripPrefix? "ref ".toList t).map fun rest => (4, rest)).or
        ((Text.stripPrefix? "id ".toList t).map fun rest => (3, rest))
    let (inner, _) ← Text.cutAt? [')'] rest
    return word + inner.length + 1

/-- Reads a link to a reference: its label is put in its place. The label goes up to the first
closing bracket and is not empty. -/
def link? (t : Text) : Option (Nat × Text) :=
  match t with
  | '[' :: rest => do
    let (label, rest) ← Text.cutAt? [']'] rest
    if label = [] then none
    else
      let rest ← Text.stripPrefix? "(@".toList rest
      let n ← targetLength? rest
      return (label.length + 4 + n, label)
  | _ => none

/-- **Reduces the links** to references to their labels. -/
def strip (t : Text) : Text :=
  Text.replaceMatches link? 0 t

end CrossReference

end Weave
