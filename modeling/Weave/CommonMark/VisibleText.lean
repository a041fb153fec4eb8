import Weave.CommonMark.Block
import Weave.CommonMark.Inline

set_option autoImplicit false
set_option relaxedAutoImplicit false

/-!
# The visible text of a document

What is left of a document without its markup. Blocks stand on lines of their own, except for the
paragraphs of a tight list: they end where their item ends.

## Main definitions

* `Weave.CommonMark.visibleText` — the visible text of a document.
-/

namespace Weave.CommonMark

/-- Ends a line, if a text does not end with a line already. -/
def endLine (t : Text) : Text :=
  if t.getLast? = some '\n' then t else t ++ ['\n']

mutual

/-- Adds the visible text of a block to the text before it; `tight` says whether the block is
directly in an item of a tight list. -/
def addBlockText (labels : List Text) (tight : Bool) (before : Text) : Block → Text
  | .paragraph content =>
    let t := before ++ inlineText labels content
    if tight then t else endLine t
  | .heading content => endLine (before ++ inlineText labels content)
  | .code content => endLine (before ++ content)
  | .html indentation => before ++ List.replicate indentation ' '
  | .quote blocks => addBlockTexts labels false before blocks
  | .list tight items => addBlockTexts labels tight before items
  | .item blocks => endLine (addBlockTexts labels tight before blocks)

/-- Adds the visible texts of blocks, one after another. -/
def addBlockTexts (labels : List Text) (tight : Bool) (before : Text) : List Block → Text
  | [] => before
  | b :: bs => addBlockTexts labels tight (addBlockText labels tight before b) bs

end

/-- **The visible text of a document**, without blanks at its end. -/
def visibleText (t : Text) : Text :=
  let (bs, labels) := blocks t
  Text.trimEnd (addBlockTexts labels false [] bs)

end Weave.CommonMark
