import Weave.Text.Basic

set_option autoImplicit false
set_option relaxedAutoImplicit false

/-!
# The items of a command line

An argument is a word or begins with a dash. After two dashes the name of one switch or parameter is
spelled out; after one dash there are letters, each of which stands for one. The value of a
parameter is the rest of its argument, or else the next argument, if that is a word. After an
argument of two dashes alone there are only words.

## Main definitions

* `Weave.Command.Switch`, `Weave.Command.Parameter` — what can be chosen.
* `Weave.Command.Item` — a choice that was made, or a fault.
* `Weave.Command.items` — the items of a list of arguments.
-/

namespace Weave.Command

/-! ## What can be chosen -/

/-- The choices without a value. -/
inductive Switch where
  | help
  | version
  /-- Errors are never coloured here, with this switch or without it. -/
  | noColor
  | verbose
  | execute
  | noExecute
  | documenter
  | noCredit
  | keepComments
deriving DecidableEq, Repr

/-- The choices with a value. -/
inductive Parameter where
  | outdir
  | config
  | name
deriving DecidableEq, Repr

/-- Where an argument stands: before the name of a command or after it. -/
inductive Position where
  | beforeCommand
  | afterCommand
deriving DecidableEq, Repr

namespace Switch

/-- Every switch. -/
def all : List Switch :=
  [help, version, noColor, verbose, execute, noExecute, documenter, noCredit, keepComments]

/-- The name of a switch. -/
def name : Switch → Text
  | help => "help".toList
  | version => "version".toList
  | noColor => "no-color".toList
  | verbose => "verbose".toList
  | execute => "execute".toList
  | noExecute => "no-execute".toList
  | documenter => "documenter".toList
  | noCredit => "no-credit".toList
  | keepComments => "keep-comments".toList

/-- The letter of a switch, if it has one. -/
def letter? : Switch → Option Char
  | help => some 'h'
  | version => some 'V'
  | verbose => some 'v'
  | _ => none

/-- Whether a switch can stand at a position. -/
def fits : Position → Switch → Bool
  | .beforeCommand, s => s == help || s == version || s == noColor || s == verbose
  | .afterCommand, s => s != version

end Switch

namespace Parameter

/-- Every parameter. -/
def all : List Parameter :=
  [outdir, config, name]

/-- The name of a parameter. -/
def longName : Parameter → Text
  | outdir => "outdir".toList
  | config => "config".toList
  | name => "name".toList

/-- The letter of a parameter, if it has one. -/
def letter? : Parameter → Option Char
  | outdir => some 'o'
  | _ => none

/-- The parameters at a position. -/
def allowed : Position → List Parameter
  | .beforeCommand => []
  | .afterCommand => all

end Parameter

/-! ## Items -/

/-- How arguments are misused. -/
inductive Misuse where
  | unknownOption (argument : Text)
  | unneededValue (s : Switch)
  | missingValue (p : Parameter)
  /-- The value of what should be a path is empty. -/
  | emptyPath
  | repeatedSwitch (s : Switch)
  | repeatedParameter (p : Parameter)
  | contradiction (s t : Switch)
  | unexpectedWord (word : Text)
  | missingFile
  | missingCommand
  | unknownCommand (word : Text)
deriving DecidableEq, Repr

/-- A choice that was made, or a fault. -/
inductive Item where
  | switch (s : Switch)
  | parameter (p : Parameter) (value : Text)
  | word (t : Text)
  | fault (misuse : Misuse)
deriving DecidableEq, Repr

/-- Whether an argument is a word. A dash alone is one. -/
def isWord (argument : Text) : Bool :=
  argument.head? != some '-' || argument == ['-']

/-- The items of one argument, and the parameter whose value is still to come. -/
abbrev Chosen := List Item × Option Parameter

/-- What a name between two dashes and the value that goes with it stands for. -/
def ofName (position : Position) (name : Text) (value? : Option Text) : Chosen :=
  let switch? := Switch.all.find? fun s => s.fits position && s.name == name
  let parameter? := (Parameter.allowed position).find? fun p => p.longName == name
  match switch?, parameter?, value? with
  | some s, _, none => ([.switch s], none)
  | some s, _, some _ => ([.fault (.unneededValue s)], none)
  | none, some p, none => ([], some p)
  | none, some p, some value => ([.parameter p value], none)
  | none, none, _ => ([.fault (.unknownOption ("--".toList ++ name))], none)

/-- What letters after one dash stand for. A value may follow an equals sign. -/
def ofLetters (position : Position) : Text → Chosen
  | [] => ([], none)
  | c :: rest =>
    let switch? := Switch.all.find? fun s => s.fits position && s.letter? == some c
    let parameter? := (Parameter.allowed position).find? fun p => p.letter? == some c
    match switch?, parameter?, rest with
    | some s, _, _ =>
      let (items, awaiting?) := ofLetters position rest
      (.switch s :: items, awaiting?)
    | none, some p, [] => ([], some p)
    | none, some p, '=' :: value => ([.parameter p value], none)
    | none, some p, value => ([.parameter p value], none)
    | none, none, _ => ([.fault (.unknownOption ['-', c])], none)

/-- What an argument that begins with a dash stands for. -/
def ofArgument (position : Position) : Text → Chosen
  | '-' :: '-' :: t =>
    match Text.cutAt? ['='] t with
    | some (name, value) => ofName position name (some value)
    | none => ofName position t none
  | '-' :: letters => ofLetters position letters
  | t => ([.word t], none)

/-- **The items of a list of arguments.** -/
def items (position : Position) : List Text → List Item
  | [] => []
  | argument :: rest =>
    if argument = "--".toList then rest.map .word
    else if isWord argument then .word argument :: items position rest
    else
      match ofArgument position argument, rest with
      | (chosen, none), rest => chosen ++ items position rest
      | (chosen, some p), [] => chosen ++ [.fault (.missingValue p)]
      | (chosen, some p), value :: rest =>
        if isWord value then chosen ++ .parameter p value :: items position rest
        else chosen ++ [.fault (.missingValue p)]

end Weave.Command
