import Weave.Target

set_option autoImplicit false
set_option relaxedAutoImplicit false

/-!
# Settings

What can be chosen for one run, and what follows from the choices.

## Main definitions

* `Weave.Settings` — the settings; what is left out has the given default.
* `Weave.Settings.executesFor` — whether the code of a target is run.
* `Weave.Settings.fence` — the lines around a block of code on a page.
-/

namespace Weave

/-- What stands for a value that is not known. -/
def unknownValue : Text :=
  "<unknown>".toList

/-- The settings of a run. -/
structure Settings where
  /-- The name of the artifact, without its extension. -/
  name? : Option Text := none
  /-- Whether code is run; if this is left open, it is run for notebooks only. -/
  execute? : Option Bool := none
  /-- Whether a page is written for the documentation tool. -/
  documenter : Bool := false
  /-- Whether a credit is put at the end. -/
  credit : Bool := true
  /-- Whether a script keeps the prose, as comments. -/
  keepComments : Bool := false
  /-- The lines before and after a block of code on a page, if they are chosen freely. -/
  codeFence? : Option (Text × Text) := none
  /-- The language of the code. -/
  language : Text := "lit".toList
  repoRootUrl? : Option Text := none
  nbviewerRootUrl? : Option Text := none
  binderRootUrl? : Option Text := none
  /-- Where a page can be edited. -/
  editUrl? : Option Text := none
deriving DecidableEq, Repr

namespace Settings

/-- The name of the artifact. -/
def name (s : Settings) : Text :=
  s.name?.getD unknownValue

/-- Whether the code of a target is run. A script is never run. -/
def executesFor (s : Settings) : Target → Bool
  | .script => false
  | .markdown => s.execute?.getD false
  | .notebook => s.execute?.getD true

/-- The lines before and after a block of code on a page. -/
def fence (s : Settings) : Text × Text :=
  match s.codeFence? with
  | some pair => pair
  | none =>
    if s.documenter then ("```@example ".toList ++ s.name, "```".toList)
    else ("```".toList ++ s.language, "```".toList)

end Settings

end Weave
