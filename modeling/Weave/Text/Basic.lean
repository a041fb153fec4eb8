set_option autoImplicit false
set_option relaxedAutoImplicit false

/-!
# Texts

A text is a list of characters. The list is what every rule of this library recurses on; the
standard strings appear only where a text is read from or written to the outside.

## Main definitions

* `Weave.Text.stripPrefix?`, `Weave.Text.stripSuffix?` — a text without a known beginning or end.
* `Weave.Text.replaceMatches` — one pass that replaces the leftmost matches of a reader.
* `Weave.Text.replace` — every occurrence of a text replaced by another.
* `Weave.Text.cutAt?` — a text cut at the first occurrence of another.

## Main results

* `Weave.Text.stripPrefix?_eq_some_iff`, `Weave.Text.stripSuffix?_eq_some_iff` — what is stripped
  and what is left make up the text.
* `Weave.Text.cutAt?_eq_some` — the two sides of a cut, with the mark between them, make up the
  text.
-/

namespace Weave

/-- A text is a finite sequence of characters. -/
abbrev Text := List Char

namespace Text

/-! ## Beginnings and ends -/

/-- `stripPrefix? p t` is what follows `p` in `t`, when `t` begins with `p`. -/
def stripPrefix? : Text → Text → Option Text
  | [], t => some t
  | _ :: _, [] => none
  | a :: p, c :: t => if a = c then stripPrefix? p t else none

/-- `stripSuffix? s t` is what precedes `s` in `t`, when `t` ends with `s`. -/
def stripSuffix? (s t : Text) : Option Text :=
  (stripPrefix? s.reverse t.reverse).map List.reverse

/-- Whether `t` begins with `p`. -/
def startsWith (p t : Text) : Bool :=
  (stripPrefix? p t).isSome

/-- Whether `t` ends with `s`. -/
def endsWith (s t : Text) : Bool :=
  (stripSuffix? s t).isSome

/-- **A stripped beginning** and the rest make up the text. -/
theorem stripPrefix?_eq_some_iff {p t r : Text} : stripPrefix? p t = some r ↔ t = p ++ r := by
  induction p generalizing t with
  | nil => simp [stripPrefix?]
  | cons a p ih =>
    cases t with
    | nil => simp [stripPrefix?]
    | cons c t =>
      by_cases h : a = c
      · simp [stripPrefix?, h, ih]
      · simp [stripPrefix?, h, Ne.symm h]

/-- **A stripped end** and the rest make up the text. -/
theorem stripSuffix?_eq_some_iff {s t r : Text} : stripSuffix? s t = some r ↔ t = r ++ s := by
  simp only [stripSuffix?, Option.map_eq_some_iff, stripPrefix?_eq_some_iff]
  constructor
  · rintro ⟨u, hu, rfl⟩
    simpa using congrArg List.reverse hu
  · rintro rfl
    exact ⟨r.reverse, by simp, by simp⟩

/-- A text begins with another one if something follows that. -/
theorem startsWith_iff {p t : Text} : startsWith p t = true ↔ ∃ r, t = p ++ r := by
  simp [startsWith, Option.isSome_iff_exists, stripPrefix?_eq_some_iff]

/-- A text ends with another one if something comes before that. -/
theorem endsWith_iff {s t : Text} : endsWith s t = true ↔ ∃ r, t = r ++ s := by
  simp [endsWith, Option.isSome_iff_exists, stripSuffix?_eq_some_iff]

/-- A text begins with its prefixes. -/
theorem startsWith_iff_prefix {p t : Text} : startsWith p t = true ↔ p <+: t :=
  startsWith_iff.trans (exists_congr fun _ => eq_comm)

/-- A text ends with its suffixes. -/
theorem endsWith_iff_suffix {s t : Text} : endsWith s t = true ↔ s <:+ t :=
  endsWith_iff.trans (exists_congr fun _ => eq_comm)

/-- Nothing can be stripped from a text that does not begin with `p`. -/
theorem stripPrefix?_eq_none_iff {p t : Text} : stripPrefix? p t = none ↔ ¬ p <+: t := by
  rw [← startsWith_iff_prefix, startsWith, Bool.not_eq_true, Option.isSome_eq_false_iff,
    Option.isNone_iff_eq_none]

/-- Nothing can be stripped from a text that does not end with `s`. -/
theorem stripSuffix?_eq_none_iff {s t : Text} : stripSuffix? s t = none ↔ ¬ s <:+ t := by
  rw [← endsWith_iff_suffix, endsWith, Bool.not_eq_true, Option.isSome_eq_false_iff,
    Option.isNone_iff_eq_none]

/-! ## Trimming by a class of characters -/

/-- `t` without the characters of class `p` at its beginning. -/
def trimStartBy (p : Char → Bool) (t : Text) : Text :=
  t.dropWhile p

/-- `t` without the characters of class `p` at its end. -/
def trimEndBy (p : Char → Bool) (t : Text) : Text :=
  (t.reverse.dropWhile p).reverse

/-- `t` without the characters of class `p` at either end. -/
def trimBy (p : Char → Bool) (t : Text) : Text :=
  trimEndBy p (trimStartBy p t)

/-! ## Cutting -/

/-- `cutAt? mark t` cuts `t` at the first occurrence of `mark`: what stands before it and what
stands after it. -/
def cutAt? (mark : Text) : Text → Option (Text × Text)
  | [] => if mark = [] then some ([], []) else none
  | c :: t =>
    match stripPrefix? mark (c :: t) with
    | some after => some ([], after)
    | none => (cutAt? mark t).map fun (before, after) => (c :: before, after)

/-- **A cut loses nothing** but the mark that it is made at. -/
theorem cutAt?_eq_some {mark t before after : Text} (h : cutAt? mark t = some (before, after)) :
    t = before ++ mark ++ after := by
  induction t generalizing before with
  | nil =>
    by_cases hm : mark = []
    · simp [cutAt?, hm] at h
      simp [h.1, h.2, hm]
    · simp [cutAt?, hm] at h
  | cons c t ih =>
    rw [cutAt?] at h
    split at h
    next a hs =>
      rw [stripPrefix?_eq_some_iff] at hs
      simp only [Option.some.injEq, Prod.mk.injEq] at h
      rw [← h.1, ← h.2, hs]
      rfl
    next =>
      simp only [Option.map_eq_some_iff, Prod.mk.injEq] at h
      obtain ⟨⟨b, a⟩, hba, rfl, rfl⟩ := h
      simpa using ih hba

/-! ## Replacing -/

/-- Replaces the leftmost matches of `reader`, from left to right. On the text that is left the
reader says how many characters a match at its beginning takes (at least one), and what is put in
their place; the first argument counts the characters of the last match still to be passed over. -/
def replaceMatches (reader : Text → Option (Nat × Text)) : Nat → Text → Text
  | _, [] => []
  | skip + 1, _ :: t => replaceMatches reader skip t
  | 0, c :: t =>
    match reader (c :: t) with
    | some (n + 1, put) => put ++ replaceMatches reader n t
    | _ => c :: replaceMatches reader 0 t

/-- `replace old new t` is `t` with every occurrence of `old` replaced by `new`, from left to right
and without overlap. An empty `old` occurs before every character and at the end. -/
def replace (old new t : Text) : Text :=
  if old = [] then t.flatMap (fun c => new ++ [c]) ++ new
  else replaceMatches (fun s => if startsWith old s then some (old.length, new) else none) 0 t

/-- Whether `mark` occurs in `t`. -/
def contains (mark t : Text) : Bool :=
  (cutAt? mark t).isSome

end Text

end Weave
