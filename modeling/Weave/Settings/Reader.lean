import Weave.Failure
import Weave.Toml.Reader

set_option autoImplicit false
set_option relaxedAutoImplicit false

/-!
# Reading settings

Settings are written in TOML, each under a key of its own. There are no tables among them, and no
key is unknown or given twice.

## Main definitions

* `Weave.Settings.read` — the settings that a text holds.
-/

namespace Weave.Settings

/-- The string that the setting `key` has to be. -/
def asText (key : Text) : Toml.Value → Except SettingsFault Text
  | .string t => .ok t
  | _ => .error (.wrongType key)

/-- The truth value that the setting `key` has to be. -/
def asBool (key : Text) : Toml.Value → Except SettingsFault Bool
  | .boolean b => .ok b
  | _ => .error (.wrongType key)

/-- The two strings that the setting `key` has to begin with. -/
def asPair (key : Text) : Toml.Value → Except SettingsFault (Text × Text)
  | .array (.string a :: .string b :: _) => .ok (a, b)
  | _ => .error (.wrongType key)

/-- The settings with the one set that a key names. -/
def set (key : Text) (v : Toml.Value) (s : Settings) : Except SettingsFault Settings := do
  if key = "name".toList then return { s with name? := some (← asText key v) }
  else if key = "execute".toList then return { s with execute? := some (← asBool key v) }
  else if key = "documenter".toList then return { s with documenter := ← asBool key v }
  else if key = "credit".toList then return { s with credit := ← asBool key v }
  else if key = "keep_comments".toList then return { s with keepComments := ← asBool key v }
  else if key = "codefence".toList then return { s with codeFence? := some (← asPair key v) }
  else if key = "language".toList then return { s with language := ← asText key v }
  else if key = "repo_root_url".toList then return { s with repoRootUrl? := some (← asText key v) }
  else if key = "nbviewer_root_url".toList then
    return { s with nbviewerRootUrl? := some (← asText key v) }
  else if key = "binder_root_url".toList then
    return { s with binderRootUrl? := some (← asText key v) }
  else if key = "edit_url".toList then return { s with editUrl? := some (← asText key v) }
  else throw (.unknownKey key)

/-- The settings with those set that the entries of a document give. The keys before them are not
given again. -/
def setAll (before : List Text) (s : Settings) : List Toml.Entry → Except SettingsFault Settings
  | [] => .ok s
  | .value [key] v :: rest =>
    if before.contains key then .error (.repeatedKey key)
    else
      match set key v s with
      | .ok s => setAll (key :: before) s rest
      | .error fault => .error fault
  | .value path _ :: _ => .error (.tableKey path)
  | .header path :: _ => .error (.tableKey path)

/-- **The settings that a text holds**; what it leaves out has its default. -/
def read (t : Text) : Except SettingsFault Settings :=
  match Toml.read? t with
  | some entries => setAll [] {} entries
  | none => .error .notToml

end Weave.Settings
