import Weave.Files.Fault
import Weave.Files.Path

set_option autoImplicit false
set_option relaxedAutoImplicit false

/-!
# File systems

What is asked of files and directories, wherever they are kept.

## Main definitions

* `Weave.FileSystem` — the operations on files and directories.
* `Weave.FileSystem.readText` — reads a file that holds a text.
* `Weave.FileSystem.createDirectories` — creates a directory and those above it.
-/

namespace Weave

/-- The operations on files and directories. -/
structure FileSystem (m : Type → Type) where
  /-- The contents of a file. -/
  read : Text → m (Except FileFault Bytes)
  /-- Puts contents into a file, which is created if it is not there. -/
  write : Text → Bytes → m (Except FileFault Unit)
  /-- Creates a directory in one that is there. -/
  createDirectory : Text → m (Except FileFault Unit)
  /-- Whether a path leads to a directory. -/
  isDirectory : Text → m Bool
  /-- The path from the root to where a path leads. -/
  resolve : Text → m (Except FileFault Text)

namespace FileSystem

variable {m : Type → Type} [Monad m] (fs : FileSystem m)

/-- **Reads a file that holds a text.** -/
def readText (path : Text) : m (Except FileFault Text) := do
  match ← fs.read path with
  | .error fault => return .error fault
  | .ok contents =>
    match Text.ofBytes? contents with
    | some t => return .ok t
    | none => return .error .notAText

/-- What comes of a directory that was not created: this is no fault if it is there already. -/
def acceptDirectory (path : Text) : Except FileFault Unit → m (Except FileFault Unit)
  | .ok () => return .ok ()
  | .error fault => do
    if ← fs.isDirectory path then return .ok () else return .error fault

/-- Creates the directory of a path, after those of the paths above it if it has no place yet. -/
def createBelow (path : Text) : List Text → m (Except FileFault Unit)
  | [] => do
    if path = [] then return .ok ()
    fs.acceptDirectory path (← fs.createDirectory path)
  | parent :: rest => do
    match ← fs.createDirectory path with
    | .error .notFound =>
      match ← createBelow parent rest with
      | .ok () => fs.acceptDirectory path (← fs.createDirectory path)
      | .error fault => return .error fault
    | outcome => fs.acceptDirectory path outcome

/-- **Creates a directory** and those above it, as far as they are not there. -/
def createDirectories (path : Text) : m (Except FileFault Unit) :=
  fs.createBelow path (Path.ancestors path)

end FileSystem

end Weave
