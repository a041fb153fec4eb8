import Weave.Text.Utf8

set_option autoImplicit false
set_option relaxedAutoImplicit false

/-!
# Representations

A value can be shown in several ways, each of a kind of its own. A bundle holds all the ways in
which one value can be shown.

## Main definitions

* `Weave.Mime` — the kinds of representations.
* `Weave.Payload` — a representation, which is a text or bytes.
* `Weave.Bundle` — the representations of a value, built by `Weave.Bundle.of`.

## Main results

* `Weave.Bundle.find?_of` — a bundle holds what the value shows.
-/

namespace Weave

/-- The kinds of representations. -/
inductive Mime where
  | png
  | jpeg
  | svg
  | markdown
  | html
  | plain
deriving DecidableEq, Repr

namespace Mime

/-- All kinds, in the order of a bundle. -/
def all : List Mime :=
  [png, jpeg, svg, markdown, html, plain]

/-- The kinds of images, the preferred ones first. -/
def images : List Mime :=
  [png, jpeg, svg]

/-- The name of a kind. -/
def name : Mime → Text
  | png => "image/png".toList
  | jpeg => "image/jpeg".toList
  | svg => "image/svg+xml".toList
  | markdown => "text/markdown".toList
  | html => "text/html".toList
  | plain => "text/plain".toList

/-- The extension of a file that holds an image of the kind. -/
def extension : Mime → Text
  | png => ".png".toList
  | jpeg => ".jpeg".toList
  | svg => ".svg".toList
  | _ => []

/-- Whether notebooks hold a text of the kind as a list of lines. -/
def isLineSplit : Mime → Bool
  | svg => true
  | markdown => true
  | html => true
  | _ => false

end Mime

/-- A representation. -/
inductive Payload where
  | text (t : Text)
  | binary (bytes : Bytes)
deriving DecidableEq, Repr

/-- The bytes of a representation. -/
def Payload.bytes : Payload → Bytes
  | text t => t.toBytes
  | binary bytes => bytes

/-- The representations of a value, in the order of their kinds. -/
abbrev Bundle := List (Mime × Payload)

/-- The bundle of a value that is shown by `shows`. -/
def Bundle.of (shows : Mime → Option Payload) : Bundle :=
  Mime.all.filterMap fun mime => (shows mime).map fun payload => (mime, payload)

/-- The representation of a kind in a bundle. -/
def Bundle.find? (bundle : Bundle) (mime : Mime) : Option Payload :=
  (List.find? (fun entry => entry.1 == mime) bundle).map Prod.snd

/-- **A bundle holds** what the value shows, for every kind. -/
theorem Bundle.find?_of (shows : Mime → Option Payload) (mime : Mime) :
    (Bundle.of shows).find? mime = shows mime := by
  have hfind (kinds : List Mime) :
      (find? (kinds.filterMap fun kind => (shows kind).map fun payload => (kind, payload)) mime) =
        if mime ∈ kinds then shows mime else none := by
    induction kinds with
    | nil => rfl
    | cons kind kinds ih =>
      rw [List.filterMap_cons]
      by_cases hkind : mime = kind
      · subst hkind
        cases hshows : shows mime <;> simp_all [find?]
      · cases hshows : shows kind <;> simp_all [find?, Ne.symm hkind]
  have hall : mime ∈ Mime.all := by cases mime <;> decide
  exact (hfind Mime.all).trans (if_pos hall)

end Weave
