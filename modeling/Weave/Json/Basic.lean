import Weave.Text.Basic

set_option autoImplicit false
set_option relaxedAutoImplicit false

/-!
# JSON values

A value keeps the fields of its objects as they are written, in their order and with repeated keys.
Where an object stands for a map, it is brought into canonical form: every key once, with the value
written last, and the keys in the order of their code points.

## Main definitions

* `Weave.Json` — JSON values, with `Weave.Json.Number` for the numbers.
* `Weave.Json.put` — a map with the value of a key set.
* `Weave.Json.canonical` — a value all of whose objects are maps.
-/

namespace Weave

/-- A JSON number: an integer, or a double. -/
inductive Json.Number where
  /-- The integer `n`. -/
  | natural (n : Nat)
  /-- The integer `-n`. -/
  | negative (n : Nat)
  | double (x : Float)

/-- A JSON value. -/
inductive Json where
  | null
  | bool (b : Bool)
  | number (n : Json.Number)
  | string (t : Text)
  | array (items : List Json)
  | object (fields : List (Text × Json))

namespace Text

/-- The order of texts by the code points of their characters. -/
def before : Text → Text → Bool
  | [], [] => false
  | [], _ :: _ => true
  | _ :: _, [] => false
  | a :: s, b :: t => a.toNat < b.toNat || (a == b && before s t)

end Text

namespace Json

/-- The fields of an object, or the entries of a map. -/
abbrev Fields := List (Text × Json)

/-- The map with the value of `key` set to `value`; its keys stay in order. -/
def put (key : Text) (value : Json) : Fields → Fields
  | [] => [(key, value)]
  | (k, v) :: rest =>
    if key = k then (key, value) :: rest
    else if Text.before key k then (key, value) :: (k, v) :: rest
    else (k, v) :: put key value rest

/-- The map with all entries of a list set, one after another. -/
def putAll (entries fields : Fields) : Fields :=
  entries.foldl (fun acc (k, v) => put k v acc) fields

mutual

/-- **The canonical form** of a value: all its objects are maps. -/
def canonical : Json → Json
  | array items => array (canonicalItems items)
  | object fields => object (canonicalFields fields)
  | v => v

/-- The canonical forms of a list of values. -/
def canonicalItems : List Json → List Json
  | [] => []
  | v :: vs => canonical v :: canonicalItems vs

/-- The map of a list of fields: of a repeated key the last value stands. -/
def canonicalFields : Fields → Fields
  | [] => []
  | (k, v) :: rest =>
    let map := canonicalFields rest
    if map.any (fun (key, _) => key == k) then map else put k (canonical v) map

end

end Json

end Weave
