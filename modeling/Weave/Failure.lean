import Weave.Files.Fault
import Weave.Notebook.Basic
import Weave.Sandbox

set_option autoImplicit false
set_option relaxedAutoImplicit false

/-!
# Failures

Why no artifact is made of a source.

## Main definitions

* `Weave.SettingsFault` — why settings are not accepted.
* `Weave.Misconfiguration` — settings, or directions in the source, that contradict each other.
* `Weave.Unreadable` — what should be JSON of a certain form and is not.
* `Weave.Failure` — all failures, with their wording.
-/

namespace Weave

/-- Why settings are not accepted. -/
inductive SettingsFault where
  | notToml
  | unknownKey (key : Text)
  | repeatedKey (key : Text)
  /-- The keys lead into a table. -/
  | tableKey (path : List Text)
  | wrongType (key : Text)
deriving DecidableEq, Repr

/-- Settings, or directions in the source, that contradict each other. -/
inductive Misconfiguration where
  /-- The kind of a cell is not closed off in the head of a cell. -/
  | unclosedKind (head : Text)
  | unknownKind (word : Text)
  | conflictingKind (declared actual : Notebook.CellKind)
  | settings (fault : SettingsFault)
  | unreadableSettings (path : Text) (fault : FileFault)
  | overwritesInput (path : Text)
deriving DecidableEq, Repr

/-- What should be JSON of a certain form and is not. -/
inductive Unreadable where
  | notebook
  | cellMetadata (payload : Text)
deriving DecidableEq, Repr

/-- Why no artifact is made of a source. The faults of code are of the type `ε`. -/
inductive Failure (ε : Type) where
  | unreadableSource (path : Text) (fault : FileFault)
  | configuration (cause : Misconfiguration)
  | execution (fault : BlockFault ε)
  | serialization (what : Unreadable)
  | file (fault : FileFault)

/-! ## Wording -/

/-- The wording of a reason not to accept settings. -/
def SettingsFault.message : SettingsFault → Text
  | notToml => "the text is not in TOML".toList
  | unknownKey key => "there is no setting '".toList ++ key ++ ['\'']
  | repeatedKey key => "the setting '".toList ++ key ++ "' is given twice".toList
  | tableKey path =>
    "there is no setting '".toList ++ List.intercalate ['.'] path ++ ['\'']
  | wrongType key => "the value of '".toList ++ key ++ "' is of another type".toList

/-- The wording of a file that cannot be read. -/
def cannotRead (path : Text) (fault : FileFault) : Text :=
  "cannot read '".toList ++ path ++ "': ".toList ++ fault.message

/-- The wording of a contradiction. -/
def Misconfiguration.message : Misconfiguration → Text
  | unclosedKind head => "unclosed cell type tag in '".toList ++ head ++ ['\'']
  | unknownKind word =>
    "unknown cell type [".toList ++ word ++ "], expected [markdown] or [code]".toList
  | conflictingKind declared actual =>
    "cell declared as [".toList ++ declared.name ++ "] but its content is ".toList ++ actual.name
  | settings fault => "invalid config: ".toList ++ fault.message
  | unreadableSettings path fault => cannotRead path fault
  | overwritesInput path => "output '".toList ++ path ++ "' would overwrite the input".toList

/-- The name of what cannot be read. -/
def Unreadable.context : Unreadable → Text
  | notebook => "notebook".toList
  | cellMetadata payload => "cell metadata '".toList ++ payload ++ ['\'']

/-- **The wording of a failure**, given the wording of the faults of code. -/
def Failure.message {ε : Type} (faultMessage : BlockFault ε → Text) : Failure ε → Text
  | unreadableSource path fault => "input error: ".toList ++ cannotRead path fault
  | configuration cause => "configuration error: ".toList ++ cause.message
  | execution fault => faultMessage fault
  | serialization what => "serialization error: ".toList ++ what.context
  | file fault => "i/o error: ".toList ++ fault.message

end Weave
