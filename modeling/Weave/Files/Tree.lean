import Weave.Files.FileSystem

set_option autoImplicit false
set_option relaxedAutoImplicit false

/-!
# Trees of files

Files and directories as a value. A place is given by the names on the way from the root to it. A
path is walked name by name, and every name is looked up in a directory that is there. Where a link
stands, the walk goes on along the path of the link.

Two names can lead to one file: a link leads to where its path leads, and a file may have further
names besides that of the place that it is kept at. What is written by one name is read by all.

A tree says nothing of owners and permissions, of devices, or of how much room there is. So an
operation on a tree fails only if its path leads nowhere, or to what the operation is not for. Where
an operation may fail for other reasons too, these are given beside the tree: what is refused leaves
the tree as it is.

## Main definitions

* `Weave.Tree` — files, directories, links, and the place where relative paths begin.
* `Weave.Tree.locate`, `Weave.Tree.find` — where a path leads.
* `Weave.Tree.fileSystem` — the operations on a tree.
* `Weave.Tree.refusing` — the operations on a tree, some of which are refused.

## Main results

* `Weave.Tree.get?_put` — what stands where after something was put somewhere.
-/

namespace Weave

/-- The names on the way from the root to a place. -/
abbrev Place := List Text

/-- What stands at a place, other than a link. -/
inductive Node where
  | file (contents : Bytes)
  | directory
deriving DecidableEq, Repr

/-- Files and directories, the names that lead to them from elsewhere, and the place where relative
paths begin. -/
structure Tree where
  nodes : List (Place × Node)
  home : Place
  /-- The symbolic links: the places that they stand at, and their paths. -/
  links : List (Place × Text) := []
  /-- The hard links: further names of files, and the places that the files are kept at. -/
  names : List (Place × Place) := []

namespace Tree

/-- The longest name, in bytes. -/
def nameLimit : Nat :=
  255

/-- One more than the length of the longest path, in bytes. -/
def pathLimit : Nat :=
  4096

/-- The greatest number of links on the way along a path. -/
def linkLimit : Nat :=
  40

/-! ## Places -/

/-- The nodes with another one at a place. -/
def putNode (place : Place) (node : Node) : List (Place × Node) → List (Place × Node)
  | [] => [(place, node)]
  | (p, n) :: rest =>
    if p = place then (place, node) :: rest else (p, n) :: putNode place node rest

/-- The place that the file with a name is kept at. Two places with the same one are names of one
file. -/
def keptAt (tree : Tree) (place : Place) : Place :=
  (tree.names.lookup place).getD place

/-- What stands at a place; the root is a directory. -/
def get? (tree : Tree) (place : Place) : Option Node :=
  if tree.keptAt place = [] then some .directory else tree.nodes.lookup (tree.keptAt place)

/-- The path of the link that stands at a place. -/
def link? (tree : Tree) (place : Place) : Option Text :=
  tree.links.lookup place

/-- The tree with something else at a place. -/
def put (tree : Tree) (place : Place) (node : Node) : Tree :=
  { tree with nodes := putNode (tree.keptAt place) node tree.nodes }

/-- What is put among the nodes is found there, and the others are found as before. -/
theorem lookup_putNode (place other : Place) (node : Node) (nodes : List (Place × Node)) :
    (putNode place node nodes).lookup other =
      if other = place then some node else nodes.lookup other := by
  have apart {a b : Place} (h : ¬a = b) : (a == b) = false := beq_eq_false_iff_ne.mpr h
  induction nodes with
  | nil => by_cases h : other = place <;> simp [putNode, List.lookup_cons, h, apart]
  | cons entry rest ih =>
    obtain ⟨p, n⟩ := entry
    by_cases hp : p = place
    · by_cases ho : other = place <;> simp [putNode, List.lookup_cons, hp, ho, apart]
    · by_cases ho : other = p
      · subst ho
        simp [putNode, hp]
      · simp [putNode, List.lookup_cons, hp, ho, ih, apart]

/-- **What is put somewhere** where no directory stands, stands there and at the other names of the
place, and nothing else has changed. -/
theorem get?_put (tree : Tree) (place other : Place) (node : Node)
    (h : tree.get? place ≠ some .directory) :
    (tree.put place node).get? other =
      if tree.keptAt other = tree.keptAt place then some node else tree.get? other := by
  have hkept : tree.keptAt place ≠ [] := fun hroot => h (if_pos hroot)
  have hput : (tree.put place node).get? other =
      if tree.keptAt other = [] then some .directory
      else (putNode (tree.keptAt place) node tree.nodes).lookup (tree.keptAt other) := rfl
  rw [hput, lookup_putNode, get?]
  by_cases hroot : tree.keptAt other = []
  · rw [if_pos hroot, if_pos hroot, if_neg (hroot ▸ Ne.symm hkept)]
  · rw [if_neg hroot, if_neg hroot]

/-! ## Walking -/

/-- What is wrong with the text of a path, if anything is. -/
def textFault? (path : Text) : Option FileFault :=
  if path.any (· == '\x00') then some .zeroInName
  else if path = [] then some .notFound
  else if pathLimit ≤ Text.byteSize path then some .nameTooLong
  else none

/-- The place that is reached by one name, if it can be gone through. Nothing needs to stand there.
-/
def step (tree : Tree) (place : Place) (name : Text) : Except FileFault Place :=
  match tree.get? place with
  | none => .error .notFound
  | some (.file _) => .error .notADirectory
  | some .directory =>
    if name = [] ∨ name = Path.here then .ok place
    else if name = Path.above then .ok place.dropLast
    else if nameLimit < Text.byteSize name then .error .nameTooLong
    else .ok (place ++ [name])

/-- The place where a path begins that is met in a directory. -/
def start (directory : Place) (path : Text) : Place :=
  if Path.isAbsolute path then [] else directory

/-- How far names have led. -/
inductive Stage where
  /-- All of them have been gone through, and no link has been met. -/
  | arrived (place : Place)
  /-- A link has been met. From a place on, its names and those after it are left. -/
  | detour (place : Place) (names : List Text)

/-- **Goes through names** from a place on, up to the first link. -/
def advance (tree : Tree) (place : Place) : List Text → Except FileFault Stage
  | [] => .ok (.arrived place)
  | name :: rest =>
    match tree.step place name with
    | .error fault => .error fault
    | .ok next =>
      match tree.link? next with
      | none => advance tree next rest
      | some path => .ok (.detour (start place path) (Path.parts path ++ rest))

/-- **The place that names lead to** from another one, along no more than a number of links. All
places on the way are directories. Nothing needs to stand at the last one. -/
def locate (tree : Tree) (links : Nat) (place : Place) (names : List Text) :
    Except FileFault Place :=
  match tree.advance place names with
  | .error fault => .error fault
  | .ok (.arrived last) => .ok last
  | .ok (.detour middle rest) =>
    match links with
    | 0 => .error .tooManyLinks
    | links + 1 => locate tree links middle rest

/-- **The place that some names of a path lead to.** Nothing needs to stand there. -/
def locatePath (tree : Tree) (path : Text) (names : List Text) : Except FileFault Place :=
  match textFault? path with
  | some fault => .error fault
  | none => tree.locate linkLimit (start tree.home path) names

/-- **The place that a path leads to**, at which something stands. -/
def find (tree : Tree) (path : Text) : Except FileFault Place :=
  match tree.locatePath path (Path.parts path) with
  | .error fault => .error fault
  | .ok place => if tree.get? place = none then .error .notFound else .ok place

/-! ## Operations -/

/-- The contents of the file that a path leads to. -/
def read (tree : Tree) (path : Text) : Except FileFault Bytes :=
  match tree.find path with
  | .error fault => .error fault
  | .ok place =>
    match tree.get? place with
    | some (.file contents) => .ok contents
    | some .directory => .error .isADirectory
    | none => .error .notFound

/-- Whether a path leads to a directory. -/
def isDirectory (tree : Tree) (path : Text) : Bool :=
  match tree.find path with
  | .ok place => tree.get? place = some .directory
  | .error _ => false

/-- The path from the root to the place that a path leads to. -/
def resolve (tree : Tree) (path : Text) : Except FileFault Text :=
  (tree.find path).map (Path.ofNames true)

/-- The place at which a file is put by writing to a path. If a link stands at the end of the path,
it is gone along even if nothing stands there yet. -/
def placeToWrite (tree : Tree) (path : Text) : Except FileFault Place :=
  match tree.locatePath path (Path.parts path) with
  | .error fault => .error fault
  | .ok place => if tree.get? place = some .directory then .error .isADirectory else .ok place

/-- The tree after contents were put into the file that a path leads to. -/
def write (tree : Tree) (path : Text) (contents : Bytes) : Except FileFault Tree :=
  (tree.placeToWrite path).map fun place => tree.put place (.file contents)

/-- The names of a path without empty ones at the end. -/
def properParts (path : Text) : List Text :=
  ((Path.parts path).reverse.dropWhile (· == [])).reverse

/-- The place at which a directory is created. A link at the end of the path is not gone along. -/
def placeToCreate (tree : Tree) (path : Text) : Except FileFault Place :=
  let names := properParts path
  match tree.locatePath path names.dropLast with
  | .error fault => .error fault
  | .ok directory =>
    match tree.step directory (names.getLast?.getD []) with
    | .error fault => .error fault
    | .ok place =>
      if tree.get? place = none ∧ tree.link? place = none then .ok place else .error .alreadyThere

/-- The tree after a directory was created. -/
def createDirectory (tree : Tree) (path : Text) : Except FileFault Tree :=
  (tree.placeToCreate path).map fun place => tree.put place .directory

/-- Changes a tree, unless there is a fault. -/
def change (f : Tree → Except FileFault Tree) : StateM Tree (Except FileFault Unit) := do
  match f (← get) with
  | .ok tree =>
    set tree
    return .ok ()
  | .error fault => return .error fault

/-- **The operations on a tree.** -/
def fileSystem : FileSystem (StateM Tree) where
  read path := do return (← get).read path
  write path contents := change (·.write path contents)
  createDirectory path := change (·.createDirectory path)
  isDirectory path := do return (← get).isDirectory path
  resolve path := do return (← get).resolve path

/-! ## Refusals -/

/-- An operation and what it is asked for. -/
inductive Operation where
  | read (path : Text)
  | write (path : Text) (contents : Bytes)
  | createDirectory (path : Text)
  | isDirectory (path : Text)
  | resolve (path : Text)

/-- A step that is made unless it is refused. -/
def attempt {α : Type} (refused? : Tree → Option FileFault)
    (step : StateM Tree (Except FileFault α)) : StateM Tree (Except FileFault α) := do
  match refused? (← get) with
  | some fault => return .error fault
  | none => step

/-- **The operations on a tree, some of which are refused** for reasons that the tree does not hold,
such as permissions or want of room. What is refused changes nothing. A path that may not be looked
at counts as no directory. -/
def refusing (refused? : Operation → Tree → Option FileFault) : FileSystem (StateM Tree) where
  read path := attempt (refused? (.read path)) (fileSystem.read path)
  write path contents :=
    attempt (refused? (.write path contents)) (fileSystem.write path contents)
  createDirectory path :=
    attempt (refused? (.createDirectory path)) (fileSystem.createDirectory path)
  isDirectory path := do
    if (refused? (.isDirectory path) (← get)).isSome then return false
    fileSystem.isDirectory path
  resolve path := attempt (refused? (.resolve path)) (fileSystem.resolve path)

/-- If nothing is refused, the operations are all there is. -/
theorem refusing_none : refusing (fun _ _ => none) = fileSystem :=
  rfl

end Tree

end Weave
