import Weave.Command.Item
import Weave.Files.Path
import Weave.Settings

set_option autoImplicit false
set_option relaxedAutoImplicit false

/-!
# Requests

What a command line asks for: an artifact of a file, or else help or the version. The items are
taken in order. The first one that is misused, or that asks for help or the version, decides.

## Main definitions

* `Weave.Command.Request` — an artifact that is asked for.
* `Weave.Command.Stop` — why there is no such request.
* `Weave.Command.Request.read` — the request that a list of arguments makes.
* `Weave.Command.Request.settings` — settings, with what was chosen in a request.
-/

namespace Weave.Command

/-- Why the arguments do not ask for an artifact. -/
inductive Stop where
  | help
  | version
  | misuse (cause : Misuse)
deriving DecidableEq, Repr

/-- What was chosen by some items. -/
structure Draft where
  switches : List Switch := []
  parameters : List (Parameter × Text) := []
  file? : Option Text := none

/-- A request for an artifact. -/
structure Request where
  target : Target
  /-- The path of the source. -/
  file : Text
  /-- The path of the directory for what is written. -/
  outdir : Text
  /-- The path of a file with settings. -/
  config? : Option Text
  name? : Option Text
  execute? : Option Bool
  documenter : Bool
  noCredit : Bool
  keepComments : Bool
  /-- Whether a run that goes well is reported. -/
  verbose : Bool
deriving DecidableEq, Repr

namespace Draft

/-- Takes a switch. None but the one that asks for more reports can be repeated. -/
def takeSwitch (d : Draft) (s : Switch) : Except Stop Draft :=
  if s = .help then .error .help
  else if s = .version then .error .version
  else if s ≠ .verbose ∧ s ∈ d.switches then .error (.misuse (.repeatedSwitch s))
  else .ok { d with switches := s :: d.switches }

/-- Takes a parameter. Those that are paths have values that are not empty. -/
def takeParameter (d : Draft) (p : Parameter) (value : Text) : Except Stop Draft :=
  if p ≠ .name ∧ value = [] then .error (.misuse .emptyPath)
  else if (d.parameters.lookup p).isSome then .error (.misuse (.repeatedParameter p))
  else .ok { d with parameters := (p, value) :: d.parameters }

/-- Takes a word, which is the path of the source. -/
def takeWord (d : Draft) (word : Text) : Except Stop Draft :=
  if d.file?.isSome then .error (.misuse (.unexpectedWord word))
  else if word = [] then .error (.misuse .emptyPath)
  else .ok { d with file? := some word }

/-- Takes an item. -/
def take (d : Draft) : Item → Except Stop Draft
  | .switch s => d.takeSwitch s
  | .parameter p value => d.takeParameter p value
  | .word t => d.takeWord t
  | .fault cause => .error (.misuse cause)

/-- Takes items one after another. -/
def takeAll : Draft → List Item → Except Stop Draft
  | d, [] => .ok d
  | d, item :: rest =>
    match d.take item with
    | .ok d => takeAll d rest
    | .error stop => .error stop

/-- Whether a switch was chosen. -/
def has (d : Draft) (s : Switch) : Bool :=
  d.switches.contains s

/-- Whether code is run, if that was chosen. -/
def execute? (d : Draft) : Option Bool :=
  if d.has .execute then some true
  else if d.has .noExecute then some false
  else none

/-- The request for an artifact, `general` being what was chosen before the command. -/
def request (target : Target) (d general : Draft) : Except Stop Request :=
  match d.file? with
  | none => .error (.misuse .missingFile)
  | some file =>
    if d.has .execute ∧ d.has .noExecute then
      .error (.misuse (.contradiction .execute .noExecute))
    else
      .ok {
        target, file
        outdir := (d.parameters.lookup .outdir).getD Path.here
        config? := d.parameters.lookup .config
        name? := d.parameters.lookup .name
        execute? := d.execute?
        documenter := d.has .documenter
        noCredit := d.has .noCredit
        keepComments := d.has .keepComments
        verbose := general.has .verbose || d.has .verbose }

end Draft

namespace Request

/-- The name of the command that asks for help. -/
def helpCommand : Text :=
  "help".toList

/-- The names of all commands. -/
def commands : List Text :=
  Target.all.map Target.name ++ [helpCommand]

/-- What a request for help comes to, which may name one command. -/
def readHelp : List Text → Stop
  | [] => .help
  | command :: rest =>
    if command ∈ commands then
      match rest with
      | [] => .help
      | word :: _ => .misuse (.unknownCommand word)
    else .misuse (.unknownCommand command)

/-- The request that a command and the arguments after it make. -/
def readCommand (general : Draft) (command : Text) (rest : List Text) : Except Stop Request :=
  if command = helpCommand then .error (readHelp rest)
  else
    match Target.all.find? fun target => target.name == command with
    | none => .error (.misuse (.unknownCommand command))
    | some target => do
      let d ← Draft.takeAll {} (items .afterCommand rest)
      d.request target general

/-- **The request that arguments make.** The first word among them is the command. -/
def read (arguments : List Text) : Except Stop Request := do
  let leading := arguments.takeWhile fun argument => !isWord argument
  let general ← Draft.takeAll {} (items .beforeCommand leading)
  match arguments.drop leading.length with
  | [] => throw (.misuse .missingCommand)
  | command :: rest =>
    if leading.contains "--".toList then throw (.misuse (.unknownCommand command))
    else readCommand general command rest

/-- **Settings with what was chosen** in a request. Without a name there, the artifact is named
after the source. -/
def settings (r : Request) (s : Settings) : Settings :=
  { s with
    name? := r.name?.or (s.name?.or (Path.stem? r.file))
    execute? := r.execute?.or s.execute?
    documenter := s.documenter || r.documenter
    credit := s.credit && !r.noCredit
    keepComments := s.keepComments || r.keepComments }

end Request

end Weave.Command
