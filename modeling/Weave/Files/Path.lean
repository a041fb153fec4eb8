import Weave.Text.Lines

set_option autoImplicit false
set_option relaxedAutoImplicit false

/-!
# Paths

A path is a text whose names are divided by slashes. What it leads to depends on the files that
there are; this module is about its spelling alone.

## Main definitions

* `Weave.Path.names` — the names that a path goes through.
* `Weave.Path.join` — a path that goes on from a directory.
* `Weave.Path.stem?` — the last name without its extension.
* `Weave.Path.ancestors` — the paths above a path.
* `Weave.Path.sameSpelling` — whether two paths go through the same names.
-/

namespace Weave.Path

/-- The name of the directory that one is in. -/
def here : Text :=
  ['.']

/-- The name of the directory above. -/
def above : Text :=
  ['.', '.']

/-- Whether a path begins at the root. -/
def isAbsolute (path : Text) : Bool :=
  path.head? == some '/'

/-- The names between the slashes of a path, some of which may be empty. -/
def parts (path : Text) : List Text :=
  Text.fields '/' path

/-- **The names that a path goes through.** Where it stays where it is, it goes through none. -/
def names (path : Text) : List Text :=
  (parts path).filter fun name => name != [] && name != here

/-- The path that goes through given names. -/
def ofNames (absolute : Bool) (names : List Text) : Text :=
  (if absolute then ['/'] else []) ++ List.intercalate ['/'] names

/-- **The path that goes on** from a directory with another path. An absolute path does not depend
on the directory. -/
def join (directory path : Text) : Text :=
  if isAbsolute path ∨ directory = [] then path
  else if directory.getLast? = some '/' then directory ++ path
  else directory ++ '/' :: path

/-- The last name of a path, unless it leads upwards or nowhere. -/
def fileName? (path : Text) : Option Text :=
  (names path).getLast?.filter (· != above)

/-- A name without its extension, which begins at the last point. A point at the very beginning
belongs to the name. -/
def dropExtension (name : Text) : Text :=
  let extension := name.reverse.takeWhile (· != '.')
  match (name.reverse.drop extension.length).drop 1 with
  | [] => name
  | stem => stem.reverse

/-- **The last name of a path** without its extension. -/
def stem? (path : Text) : Option Text :=
  (fileName? path).map dropExtension

/-- **The paths above a path**, the nearest first. The last one is the root, or is empty. -/
def ancestors (path : Text) : List Text :=
  let ns := names path
  (List.range ns.length).reverse.map fun n => ofNames (isAbsolute path) (ns.take n)

/-- **Whether two paths are spelled alike**: both or neither begin at the root, and they go through
the same names. -/
def sameSpelling (a b : Text) : Bool :=
  isAbsolute a == isAbsolute b && names a == names b

end Weave.Path
