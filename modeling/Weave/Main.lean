import Weave.Command

set_option autoImplicit false
set_option relaxedAutoImplicit false

/-!
# The program

Runs a command on the files of the disk.

## Main definitions

* `Weave.disk` — the files of the disk.
-/

namespace Weave

/-- The fault with a number that the system gives it. Some numbers come as their complement. -/
def faultOfCode (code : UInt32) (details : String) : FileFault :=
  let number := if code.toNat < twoTo 31 then code.toNat else twoTo 32 - code.toNat
  match number with
  | 2 => .notFound
  | 17 => .alreadyThere
  | 20 => .notADirectory
  | 21 => .isADirectory
  | 36 => .nameTooLong
  | 40 => .tooManyLinks
  | n => .other (details.capitalize.toList ++ " (os error ".toList ++ numeral n ++ [')'])

/-- The fault that an error of the system is. -/
def faultOfError : IO.Error → FileFault
  | .noFileOrDirectory _ code details => faultOfCode code details
  | .alreadyExists _ code details => faultOfCode code details
  | .inappropriateType _ code details => faultOfCode code details
  | .invalidArgument _ code details =>
    if code = 22 then .zeroInName else faultOfCode code details
  | .permissionDenied _ code details => faultOfCode code details
  | .resourceExhausted _ code details => faultOfCode code details
  | .noSuchThing _ code details => faultOfCode code details
  | .otherError code details => faultOfCode code details
  | e => .other (toString e).toList

/-- An action, with its errors as faults. -/
def attempt {α : Type} (action : IO α) : IO (Except FileFault α) := do
  try
    return .ok (← action)
  catch e =>
    return .error (faultOfError e)

/-- The path from the root to where a path leads. -/
def realPath (path : Text) : IO Text := do
  return (toString (← IO.FS.realPath (String.ofList path))).toList

/-- **The files of the disk.** A directory is what has itself as an entry. -/
def disk : FileSystem IO where
  read path := attempt do
    return (← IO.FS.readBinFile (String.ofList path)).toList
  write path contents := attempt do
    IO.FS.writeBinFile (String.ofList path) ⟨contents.toArray⟩
  createDirectory path := attempt do
    IO.FS.createDir (String.ofList path)
  isDirectory path := do
    match ← attempt (realPath (path ++ "/.".toList)) with
    | .ok _ => return true
    | .error _ => return false
  resolve path := attempt (realPath path)

end Weave

/-- Runs the command that the arguments ask for. -/
def main (args : List String) : IO UInt32 := do
  let report ← Weave.Command.run Weave.disk (args.map String.toList)
  IO.print (String.ofList report.answer)
  IO.eprint (String.ofList (report.progress ++ report.errors))
  return report.exitCode.toUInt32
