import Weave.Artifact
import Weave.Command.Request
import Weave.Files.FileSystem
import Weave.Lit.Diagnostic
import Weave.Lit.Session
import Weave.Notebook.Printer
import Weave.Settings.Reader

set_option autoImplicit false
set_option relaxedAutoImplicit false

/-!
# The command line

A command reads a source, makes an artifact of it, and writes that into a directory. The artifact is
written last: a command that fails has written nothing but images of a page. The path of the
artifact must not be the path of the source.

## Main definitions

* `Weave.Command.generate` — does what a request asks for.
* `Weave.Command.run` — does what a list of arguments asks for.
-/

namespace Weave.Command

variable {m : Type → Type} [Monad m] (fs : FileSystem m)

/-- A run that ends in a failure or goes on. -/
abbrev Running (m : Type → Type) : Type → Type :=
  ExceptT (Failure Lit.Fault) m

/-- A step on files, whose faults are failures of the run. -/
def onFiles {α : Type} (failure : FileFault → Failure Lit.Fault) (step : m (Except FileFault α)) :
    Running m α :=
  ExceptT.mk do return (← step).mapError failure

/-- A step that does nothing to files. -/
def settle {α : Type} (outcome : Except (Failure Lit.Fault) α) : Running m α :=
  ExceptT.mk (pure outcome)

/-! ## Artifacts -/

/-- The settings that a file holds; without a file they have their defaults. -/
def readSettings : Option Text → Running m Settings
  | none => return {}
  | some path => do
    let unreadable (fault : FileFault) := .configuration (.unreadableSettings path fault)
    let text ← onFiles unreadable (fs.readText path)
    settle ((Settings.read text).mapError fun fault => .configuration (.settings fault))

/-- **The path of the artifact**, in a directory that is created if it is not there. -/
def artifactPath (r : Request) (s : Settings) : Running m Text := do
  onFiles .file (fs.createDirectories r.outdir)
  let directory ← onFiles .file (fs.resolve r.outdir)
  let path := Path.join directory (s.name ++ '.' :: r.target.extension)
  let source ← onFiles .file (fs.resolve r.file)
  if Path.sameSpelling source path then throw (.configuration (.overwritesInput path))
  return path

/-- The text of the artifact of a source. The images of a page are written beside it. -/
def artifact (r : Request) (s : Settings) (source : Text) : Running m Text :=
  match r.target with
  | .script => return script s {} source
  | .markdown =>
    let write (name : Text) (contents : Bytes) := fs.write (Path.join r.outdir name) contents
    ExceptT.mk (page write Lit.sandbox {} s {} source)
  | .notebook => settle ((notebook Lit.sandbox {} s {} source).map Notebook.write)

/-- **Does what a request asks for.** The result is the path of the artifact. -/
def generate (r : Request) : Running m Text := do
  let source ← onFiles (.unreadableSource r.file) (fs.readText r.file)
  let settings := r.settings (← readSettings fs r.config?)
  let path ← artifactPath fs r settings
  let text ← artifact fs r settings source
  onFiles .file (fs.write path text.toBytes)
  return path

/-! ## Reports -/

/-- What is reported of a run. -/
structure Report where
  exitCode : Nat
  /-- What was asked for and is no file. -/
  answer : Text := []
  /-- What went wrong. -/
  errors : Text := []
  /-- What was done, if that is to be reported. -/
  progress : Text := []
deriving DecidableEq, Repr

/-- How the program is used. -/
def usage : Text :=
  "Usage: literate [OPTIONS] <COMMAND>

Commands:
  script    Extract the code into a plain script
  markdown  Render a markdown page with fenced code
  notebook  Build a notebook with one cell per chunk
  help      Print this message

Arguments and options of a command:
  <FILE>                 Literate source file
  -o, --outdir <OUTDIR>  Directory the artifact (and any images) are written to [default: .]
      --config <CONFIG>  TOML file with generation settings; flags override it
      --name <NAME>      Output base name (defaults to the input file stem)
      --execute          Run code blocks and record their results
      --no-execute       Never run code blocks
      --documenter       Emit for the documentation tool
      --no-credit        Leave out the \"generated using\" footer
      --keep-comments    Keep prose as comments in the script

Options:
      --no-color  Disable colored error output
  -v, --verbose   Report what was written
  -h, --help      Print help
  -V, --version   Print version
".toList

/-- The program and its version. -/
def version : Text :=
  "literate 0.1.0\n".toList

/-- The wording of a misuse. -/
def Misuse.message : Misuse → Text
  | unknownOption argument => "unexpected argument '".toList ++ argument ++ "' found".toList
  | unneededValue s => "the argument '--".toList ++ s.name ++ "' takes no value".toList
  | missingValue p => "a value is required for '--".toList ++ p.longName ++ ['\'']
  | emptyPath => "a path must not be empty".toList
  | repeatedSwitch s => repeated s.name
  | repeatedParameter p => repeated p.longName
  | contradiction s t =>
    "the argument '--".toList ++ s.name ++ "' cannot be used with '--".toList ++ t.name ++ ['\'']
  | unexpectedWord word => "unexpected argument '".toList ++ word ++ "' found".toList
  | missingFile => "the following required arguments were not provided: <FILE>".toList
  | missingCommand => "a command is required but none was provided".toList
  | unknownCommand word => "unrecognized command '".toList ++ word ++ ['\'']
where
  /-- The wording for a choice that was made before. -/
  repeated (name : Text) : Text :=
    "the argument '--".toList ++ name ++ "' cannot be used multiple times".toList

/-- What is reported of a request that is none. -/
def Stop.report : Stop → Report
  | help => { exitCode := 0, answer := usage }
  | version => { exitCode := 0, answer := Command.version }
  | misuse cause =>
    { exitCode := 2, errors := "error: ".toList ++ cause.message ++ "\n\n".toList ++ usage }

/-- The wording of a failure, for the source that a request names. A fault of code is shown with the
lines that it points at. -/
def failureText (file : Text) : Failure Lit.Fault → Text
  | .execution fault => fault.cause.render (file ++ " (code block)".toList) fault.code
  | failure =>
    "error: ".toList ++ failure.message (BlockFault.message Lit.sandbox) ++ ['\n']

/-- What is reported of a request that was carried out. -/
def Request.report (r : Request) : Except (Failure Lit.Fault) Text → Report
  | .ok path =>
    { exitCode := 0, progress := if r.verbose then "wrote ".toList ++ path ++ ['\n'] else [] }
  | .error failure => { exitCode := 1, errors := failureText r.file failure }

/-- **Does what arguments ask for.** -/
def run (arguments : List Text) : m Report :=
  match Request.read arguments with
  | .error stop => return stop.report
  | .ok r => do return r.report (← (generate fs r).run)

end Weave.Command
