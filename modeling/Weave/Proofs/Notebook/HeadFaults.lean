import Weave.Proofs.Notebook.Heads

set_option autoImplicit false
set_option relaxedAutoImplicit false

/-!
# Heads of cells that cannot be read

A line is meant as the head of a cell if it begins with two percent signs that stand alone. Such a
line cannot be read for one of three reasons: the bracket of its kind is not closed, there is no
kind of the name in the brackets, or its payload is not the text of an object. The kind is looked at
first.

## Main definitions

* `Weave.Notebook.CellHeader.Announces`, `Weave.Notebook.CellHeader.IsHead` — the lines that are
  meant as the head of a cell.
* `Weave.Notebook.CellHeader.Malformed` — why one cannot be read.

## Main results

* `Weave.Notebook.CellHeader.ofLine?_eq_none_iff` — which lines are not meant as the head of a cell.
* `Weave.Notebook.CellHeader.ofLine?_eq_error_iff` — which heads of cells cannot be read, and what
  is said of them.
-/

namespace Weave.Notebook.CellHeader

variable {ε : Type} {line body : Text}

/-! ## Lines that are meant as heads -/

/-- **A line is meant as the head of a cell** with a body: percent signs come before it, and blanks
may come before them. -/
structure Announces (line body : Text) : Prop where
  line : ∃ margin, Blank margin ∧ line = margin ++ ("%%".toList ++ body)
  /-- The percent signs stand alone. -/
  separated : body = [] ∨ body.startsBlank = true

/-- **A line is meant as the head of a cell.** -/
def IsHead (line : Text) : Prop :=
  ∃ body, Announces line body

/-- A line that announces a body is read as this body. -/
lemma ofLine?_of_announces (h : Announces line body) :
    ofLine? (ε := ε) line = some (ofBody body) := by
  obtain ⟨margin, hmargin, rfl⟩ := h.line
  have htrim : Text.trimStart (margin ++ ("%%".toList ++ body)) = "%%".toList ++ body := by
    rw [Text.trimStart, Text.trimStartBy, List.dropWhile_append_of_pos hmargin]
    exact List.dropWhile_cons_of_neg (by decide)
  rw [ofLine?, htrim, Text.stripPrefix?_eq_some_iff.2 rfl]
  exact (if_pos h.separated).trans (congrArg some (ofBody_trim body))

/-- **What is read of a line** is what is read of its body. -/
lemma exists_announces {r : Except (Failure ε) CellHeader} (h : ofLine? line = some r) :
    ∃ body, Announces line body ∧ ofBody body = r := by
  unfold ofLine? at h
  split at h
  next body hstrip =>
    split at h
    next hsep =>
      have hline : line = line.takeWhile isBlank ++ ("%%".toList ++ body) := by
        rw [← Text.stripPrefix?_eq_some_iff.1 hstrip]
        exact List.takeWhile_append_dropWhile.symm
      refine ⟨body, ⟨⟨_, fun c => List.mem_takeWhile_imp, hline⟩, hsep⟩, ?_⟩
      rw [← ofBody_trim]
      exact Option.some.inj h
    next => cases h
  next => cases h

/-- **Nothing is read** of a line that is not meant as the head of a cell. -/
theorem ofLine?_eq_none_iff : ofLine? (ε := ε) line = none ↔ ¬ IsHead line := by
  constructor
  · rintro h ⟨body, hbody⟩
    cases h.symm.trans (ofLine?_of_announces hbody)
  · intro h
    cases hline : ofLine? (ε := ε) line with
    | none => rfl
    | some r =>
      obtain ⟨body, hbody, -⟩ := exists_announces hline
      exact absurd ⟨body, hbody⟩ h

/-! ## Reasons -/

/-- What stands before the payload, without the blanks around it. -/
def headOf (body : Text) : Text :=
  Text.trim (body.takeWhile (· ≠ '\x7b'))

/-- The payload, which begins at the first opening brace, without the blanks around it. -/
def payloadOf (body : Text) : Text :=
  Text.trim (body.dropWhile (· ≠ '\x7b'))

/-- **Why a kind cannot be read.** Its brackets begin with the first opening bracket. -/
inductive BadKind (head : Text) : Failure ε → Prop where
  /-- No closing bracket comes after that. -/
  | unclosed {before after : Text} : head = before ++ '[' :: after → '[' ∉ before → ']' ∉ after →
      BadKind head (.configuration (.unclosedKind head))
  /-- What stands between the brackets is not the name of a kind. -/
  | unknown {before word after : Text} : head = before ++ '[' :: (word ++ ']' :: after) →
      '[' ∉ before → ']' ∉ word → (∀ kind : CellKind, word ≠ kind.name) →
      BadKind head (.configuration (.unknownKind word))

/-- **Why the body of a head cannot be read.** -/
inductive Malformed (body : Text) : Failure ε → Prop where
  /-- The kind cannot be read. -/
  | kind {e : Failure ε} : BadKind (headOf body) e → Malformed body e
  /-- The kind can be read, or there is none, but the payload is not the text of an object. -/
  | payload : (∀ e : Failure ε, ¬ BadKind (headOf body) e) → payloadOf body ≠ [] →
      (∀ fields, Json.read? (payloadOf body) ≠ some (.object fields)) →
      Malformed body (.serialization (.cellMetadata (payloadOf body)))

/-- A word names no kind of cell if it is the name of none. -/
lemma ofName?_eq_none_iff {word : Text} :
    CellKind.ofName? word = none ↔ ∀ kind : CellKind, word ≠ kind.name := by
  simp only [Option.eq_none_iff_forall_not_mem, Option.mem_def, CellKind.ofName?_eq_some_iff, ne_eq]

/-- **A kind is not read** exactly for one of the reasons.

**Proof sketch.** By the first opening bracket and the first closing one after it. Without the one
there is no tag, without the other it is not closed, and with both the word between them is the name
of a kind or is not. -/
lemma kindOf_eq_error_iff {head : Text} {e : Failure ε} :
    kindOf head = .error e ↔ BadKind head e := by
  constructor
  · intro h
    by_cases hopen : '[' ∈ head
    · obtain ⟨before, more, rfl, hbefore⟩ := List.eq_append_cons_of_mem hopen
      by_cases hclose : ']' ∈ more
      · obtain ⟨word, after, rfl, hword⟩ := List.eq_append_cons_of_mem hclose
        rw [kindOf_append hbefore hword] at h
        split at h
        next => cases h
        next hname =>
          cases h
          exact .unknown rfl hbefore hword (ofName?_eq_none_iff.1 hname)
      · rw [kindOf, dropWhile_ne_append_cons hbefore] at h
        have herror : Failure.configuration (.unclosedKind (before ++ '[' :: more)) = e := by
          simpa [hclose] using h
        exact herror ▸ .unclosed rfl hbefore hclose
    · rw [kindOf_of_not_mem hopen] at h
      cases h
  · rintro (⟨rfl, hbefore, hafter⟩ | ⟨rfl, hbefore, hword, hname⟩)
    · rw [kindOf, dropWhile_ne_append_cons hbefore]
      simp [hafter]
    · rw [kindOf_append hbefore hword, ofName?_eq_none_iff.2 hname]

/-- **A payload is not read** if it is not the text of an object. -/
lemma dataOf_eq_error_iff {payload : Text} {e : Failure ε} :
    dataOf payload = .error e ↔ payload ≠ [] ∧
      (∀ fields, Json.read? payload ≠ some (.object fields)) ∧
      e = .serialization (.cellMetadata payload) := by
  unfold dataOf
  split
  next h => simp [h]
  next h =>
    split
    next fields hread => simp [hread]
    next hother =>
      rw [Except.error.injEq, eq_comm]
      exact ⟨fun he => ⟨h, hother, he⟩, fun he => he.2.2⟩

/-- **A body is not read** exactly for one of the reasons.

**Proof sketch.** The kind is read before the data, so what is wrong with the kind decides. If
nothing is, the data decide (`dataOf_eq_error_iff`). -/
lemma ofBody_eq_error_iff {e : Failure ε} : ofBody body = .error e ↔ Malformed body e := by
  have hbody : ofBody (ε := ε) body = (kindOf (headOf body)).bind fun kind? =>
      (dataOf (payloadOf body)).bind fun data =>
        .ok { label? := labelOf (headOf body), kind?, data } := rfl
  cases hkind : kindOf (ε := ε) (headOf body) with
  | error e' =>
    have hbad := kindOf_eq_error_iff.1 hkind
    have herror : ofBody (ε := ε) body = .error e' := by rw [hbody, hkind]; rfl
    rw [herror, Except.error.injEq]
    constructor
    · rintro rfl
      exact .kind hbad
    · rintro (he | ⟨hgood, -, -⟩)
      · exact Except.error.inj (hkind.symm.trans (kindOf_eq_error_iff.2 he))
      · exact absurd hbad (hgood e')
  | ok kind? =>
    have hgood : ∀ e : Failure ε, ¬ BadKind (headOf body) e := fun e he => by
      cases hkind.symm.trans (kindOf_eq_error_iff.2 he)
    have hdata : ofBody body = .error e ↔ dataOf (payloadOf body) = .error e := by
      rw [hbody, hkind]
      cases dataOf (ε := ε) (payloadOf body) <;> simp [Except.bind]
    rw [hdata, dataOf_eq_error_iff]
    constructor
    · rintro ⟨hne, hread, rfl⟩
      exact .payload hgood hne hread
    · rintro (he | ⟨-, hne, hread⟩)
      · exact absurd he (hgood e)
      · exact ⟨hne, hread, rfl⟩

/-- **The heads of cells that cannot be read** are those whose body is malformed. -/
theorem ofLine?_eq_error_iff {e : Failure ε} :
    ofLine? line = some (.error e) ↔ ∃ body, Announces line body ∧ Malformed body e := by
  constructor
  · intro h
    obtain ⟨body, hbody, herror⟩ := exists_announces h
    exact ⟨body, hbody, ofBody_eq_error_iff.1 herror⟩
  · rintro ⟨body, hbody, he⟩
    rw [ofLine?_of_announces hbody, ofBody_eq_error_iff.2 he]

end Weave.Notebook.CellHeader
