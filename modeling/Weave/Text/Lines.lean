import Weave.Text.Basic

set_option autoImplicit false
set_option relaxedAutoImplicit false

/-!
# Lines

Three ways to see the lines of a text, each for its own use. `pieces` keeps the line feeds, so that
the pieces put together are the text. `lines` is what a reader of the text calls its lines: the line
feeds, and a carriage return before one, are left out. `rows` are the stretches between line feeds;
they are never none, and `unrows` puts them together again.

## Main definitions

* `Weave.Text.pieces`, `Weave.Text.lines`, `Weave.Text.rows`, `Weave.Text.unrows`.
* `Weave.Text.fields` — the stretches between the occurrences of any one character.

## Main results

* `Weave.Text.flatten_pieces` — the pieces make up the text.
* `Weave.Text.unrows_rows` — so do the rows, with line feeds between them.
-/

namespace Weave.Text

/-- The text cut after every line feed; no piece is empty. -/
def pieces : Text → List Text
  | [] => []
  | c :: t =>
    if c = '\n' then [c] :: pieces t
    else
      match pieces t with
      | [] => [[c]]
      | p :: ps => (c :: p) :: ps

/-- **The pieces make up the text.** -/
@[simp] theorem flatten_pieces (t : Text) : (pieces t).flatten = t := by
  induction t with
  | nil => rfl
  | cons c t ih =>
    rw [pieces]
    split
    · simp [ih]
    · split
      next h => simpa [h] using ih
      next p ps h => simpa [h] using ih

/-- A piece without its line feed, and without the carriage return before that. -/
def dropLineEnd (piece : Text) : Text :=
  match stripSuffix? ['\n'] piece with
  | none => piece
  | some body => (stripSuffix? ['\r'] body).getD body

/-- The lines of a text: its pieces without their line ends. A text that ends in a line feed has no
further, empty line after it. -/
def lines (t : Text) : List Text :=
  (pieces t).map dropLineEnd

/-- The stretches of a text between the occurrences of `mark`; a text without one is a single
field. -/
def fields (mark : Char) : Text → List Text
  | [] => [[]]
  | c :: t =>
    if c = mark then [] :: fields mark t
    else
      match fields mark t with
      | [] => [[c]]
      | r :: rs => (c :: r) :: rs

/-- The stretches of a text between its line feeds. -/
def rows (t : Text) : List Text :=
  fields '\n' t

/-- Puts rows together with a line feed between neighbours. -/
def unrows (rs : List Text) : Text :=
  List.intercalate ['\n'] rs

/-- Every text has a field at least. -/
theorem fields_ne_nil (mark : Char) (t : Text) : fields mark t ≠ [] := by
  cases t with
  | nil => simp [fields]
  | cons c t =>
    rw [fields]
    split
    · simp
    · split <;> simp

/-- **The fields make up the text** again when the mark is put between them. -/
theorem intercalate_fields (mark : Char) (t : Text) :
    List.intercalate [mark] (fields mark t) = t := by
  induction t with
  | nil => rfl
  | cons c t ih =>
    rw [fields]
    split
    next h =>
      subst h
      match hr : fields c t with
      | [] => exact absurd hr (fields_ne_nil c t)
      | r :: rs =>
        rw [hr] at ih
        simpa [List.intercalate] using congrArg (c :: ·) ih
    next =>
      split
      next h => exact absurd h (fields_ne_nil mark t)
      next r rs h =>
        rw [h] at ih
        cases rs with
        | nil => simpa [List.intercalate] using congrArg (c :: ·) ih
        | cons r' rs => simpa [List.intercalate] using congrArg (c :: ·) ih

/-- **The rows make up the text** again. -/
@[simp] theorem unrows_rows (t : Text) : unrows (rows t) = t :=
  intercalate_fields '\n' t

/-- Lines written one after another, each followed by a line feed. -/
def writeLines (ls : List Text) : Text :=
  ls.flatMap (· ++ ['\n'])

/-- The text with line ends of two characters as line feeds. -/
def unifyLineEnds (t : Text) : Text :=
  replace ['\r', '\n'] ['\n'] t

/-- The text without the line feeds at its end, and one line feed after it; an empty text when
nothing else is left. -/
def endInOneLineFeed (t : Text) : Text :=
  let body := trimEndBy (· == '\n') t
  if body = [] then [] else body ++ ['\n']

end Weave.Text
