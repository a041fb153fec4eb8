import Weave.Json.Basic

set_option autoImplicit false
set_option relaxedAutoImplicit false

/-!
# Records

A record is written as an object with a field for each of its parts, or as an array of its parts in
a fixed order. In an object, fields of other names are ignored, and no part may be given twice.
Where there are several kinds of records, a tag comes first or has a field of its own.

## Main definitions

* `Weave.Json.parts?` — the parts of a record.
* `Weave.Json.tagged?` — the tag of a record, and the record without it.
-/

namespace Weave.Json

/-- The parts of a record with the given names; a part may be missing from an object. -/
def parts? (names : List Text) : Json → Option (List (Option Json))
  | array items => if items.length = names.length then some (items.map some) else none
  | object fields =>
    names.mapM fun name =>
      match fields.filter (fun field => field.1 = name) with
      | [] => some none
      | [(_, v)] => some (some v)
      | _ => none
  | _ => none

/-- The tag of a record, and the record without it. -/
def tagged? (tag : Text) : Json → Option (Json × Json)
  | array (t :: items) => some (t, array items)
  | object fields =>
    match fields.filter (fun field => field.1 = tag) with
    | [(_, t)] => some (t, object (fields.filter fun field => field.1 ≠ tag))
    | _ => none
  | _ => none

/-- The text of a string. -/
def text? : Json → Option Text
  | string t => some t
  | _ => none

/-- The texts of an array of strings. -/
def texts? : Json → Option (List Text)
  | array items => items.mapM text?
  | _ => none

/-- The map that an object stands for. -/
def map? : Json → Option Fields
  | object fields => some (canonicalFields fields)
  | _ => none

/-- A natural number below a bound. -/
def natural? (bound : Nat) : Json → Option Nat
  | number (.natural n) => if n < bound then some n else none
  | _ => none

end Weave.Json
