import Weave.Text.Basic

set_option autoImplicit false
set_option relaxedAutoImplicit false

/-!
# Targets

What an annotated source can be turned into.

## Main definitions

* `Weave.Target` — script, markdown page or notebook, with its tag and its file extension.
-/

namespace Weave

/-- The artifact that a source is turned into. -/
inductive Target where
  /-- The code alone. -/
  | script
  /-- A page of prose with fenced code. -/
  | markdown
  /-- A notebook with a cell for each chunk. -/
  | notebook
deriving DecidableEq, Repr

namespace Target

/-- Every target. -/
def all : List Target :=
  [script, markdown, notebook]

/-- The name of a target. -/
def name : Target → Text
  | script => "script".toList
  | markdown => "markdown".toList
  | notebook => "notebook".toList

/-- The name of a target in the tags of a line. -/
def tag : Target → Text
  | script => "jl".toList
  | markdown => "md".toList
  | notebook => "nb".toList

/-- The extension of the file that holds the artifact. -/
def extension : Target → Text
  | script => "lit".toList
  | markdown => "md".toList
  | notebook => "ipynb".toList

/-- Whether a block of code may go on in a later chunk. The cells of a notebook run one by one, so a
block that goes on is put into a single cell there. -/
def allowsContinuation (target : Target) : Bool :=
  target != notebook

end Target

end Weave
