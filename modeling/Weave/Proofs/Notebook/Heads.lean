import Weave.Notebook.CellHeader
import Weave.Proofs.Text.Blanks
import Weave.Proofs.Text.Trimming

set_option autoImplicit false
set_option relaxedAutoImplicit false

/-!
# How heads of cells are written

The head of a cell is two percent signs, a label, a kind in brackets and a payload, with blanks
between them. A line is cut at the first opening brace, and what stands before that at the first
opening bracket. Every part is accounted for, with one exception: what stands between the closing
bracket of the kind and the payload, or the end of the line, is looked at by no one.

## Main definitions

* `Weave.Notebook.CellHeader.Layout` — the parts of a line that is the head of a cell.
* `Weave.Notebook.CellHeader.Layout.Spells` — what the parts say.
* `Weave.Notebook.CellHeader.Layout.Cut` — where a line is cut into its parts.

## Main results

* `Weave.Notebook.CellHeader.ofLine?_eq_ok_iff` — which lines are heads of cells.
* `Weave.Notebook.CellHeader.Layout.trimEnd_gap_eq` — what is not looked at is the same wherever
  the line is cut.
* `Weave.Notebook.CellHeader.ofLine?_spelled` — which heads of cells hold nothing but their parts.
* `Weave.Notebook.CellHeader.ofLine?_not_spelled` — one that holds more.
-/

namespace Weave.Notebook.CellHeader

/-- A text of blanks only. -/
def Blank (t : Text) : Prop :=
  ∀ c ∈ t, isBlank c = true

/-- Whether a text is blank can be decided by going through it. -/
instance (t : Text) : Decidable (Blank t) :=
  List.decidableBAll (isBlank · = true) t

/-- **A kind as it is declared**; if none is declared, nothing stands for it. -/
def tagOf : Option CellKind → Text
  | none => []
  | some kind => '[' :: (kind.name ++ [']'])

/-- **A payload gives metadata**: there is none, or it is the text of an object. -/
def Gives (payload : Text) (data : Json.Fields) : Prop :=
  (payload = [] ∧ data = []) ∨
    ∃ fields, payload.head? = some '\x7b' ∧ payload.trimEnd = payload ∧
      Json.read? payload = some (.object fields) ∧ data = Json.canonicalFields fields

/-- **The parts of a line** that is the head of a cell. -/
structure Layout where
  /-- What stands before the percent signs. -/
  margin : Text
  beforeLabel : Text
  label : Text
  beforeTag : Text
  tag : Text
  /-- What stands between the tag and the payload. -/
  gap : Text
  payload : Text
  rest : Text

namespace Layout

/-- What stands between the percent signs and the payload. -/
def head (l : Layout) : Text :=
  l.beforeLabel ++ (l.label ++ (l.beforeTag ++ (l.tag ++ l.gap)))

/-- What follows the percent signs. -/
def body (l : Layout) : Text :=
  l.head ++ (l.payload ++ l.rest)

/-- The line of the parts. -/
def line (l : Layout) : Text :=
  l.margin ++ ("%%".toList ++ l.body)

/-- **What the parts say.** -/
structure Spells (l : Layout) (header : CellHeader) : Prop where
  margin : Blank l.margin
  beforeLabel : Blank l.beforeLabel
  beforeTag : Blank l.beforeTag
  rest : Blank l.rest
  /-- An empty label is none. -/
  label : header.label? = if l.label = [] then none else some l.label
  tag : l.tag = tagOf header.kind?
  payload : Gives l.payload header.data

/-- **Where the line is cut**: at the first opening brace, and before that at the first opening
bracket. -/
structure Cut (l : Layout) : Prop where
  /-- The percent signs stand alone. -/
  separated : l.body = [] ∨ l.body.startsBlank = true
  trimmed : l.label.trim = l.label
  plain : '[' ∉ l.label ∧ '\x7b' ∉ l.label
  gap : '\x7b' ∉ l.gap
  /-- Without a tag nothing stands between the label and the payload. -/
  untagged : l.tag = [] → Blank l.gap

end Layout

/-! ## Reading the parts -/

section Cut

variable {c : Char} {a : Text} (h : c ∉ a)

include h

/-- No character of a text is one that does not occur in it. -/
lemma decide_ne_of_not_mem : ∀ d ∈ a, decide (d ≠ c) = true :=
  fun _ hd => decide_eq_true fun heq => h (heq ▸ hd)

/-- Up to the first occurrence of a character there is what stands before it. -/
lemma takeWhile_ne_append_cons (t : Text) : (a ++ c :: t).takeWhile (· ≠ c) = a := by
  rw [List.takeWhile_append_of_pos (decide_ne_of_not_mem h),
    List.takeWhile_cons_of_neg (by simp), List.append_nil]

/-- From the first occurrence of a character on there is what stands behind it. -/
lemma dropWhile_ne_append_cons (t : Text) : (a ++ c :: t).dropWhile (· ≠ c) = c :: t := by
  rw [List.dropWhile_append_of_pos (decide_ne_of_not_mem h), List.dropWhile_cons_of_neg (by simp)]

/-- Up to a character that does not occur there is all of the text. -/
lemma takeWhile_ne_eq_self : a.takeWhile (· ≠ c) = a :=
  List.takeWhile_eq_self_iff.2 (decide_ne_of_not_mem h)

/-- From a character that does not occur on there is nothing. -/
lemma dropWhile_ne_eq_nil : a.dropWhile (· ≠ c) = [] :=
  List.dropWhile_eq_nil_iff.2 (decide_ne_of_not_mem h)

end Cut

/-- From the first occurrence of a character on the text begins with it. -/
lemma head?_dropWhile_ne {c : Char} (t : Text) : ∀ d ∈ (t.dropWhile (· ≠ c)).head?, d = c := by
  intro d hd
  have hnot := List.head?_dropWhile_not (· ≠ c) t
  rw [Option.mem_def.1 hd] at hnot
  simpa using hnot

variable {ε : Type}

/-- Without a bracket a head names no kind. -/
lemma kindOf_of_not_mem {head : Text} (h : '[' ∉ head) : kindOf (ε := ε) head = .ok none := by
  rw [kindOf, dropWhile_ne_eq_nil h]

/-- The tag is what stands between the first opening bracket and the next closing one. -/
lemma kindOf_append {before : Text} (hbefore : '[' ∉ before) {word : Text} (hword : ']' ∉ word)
    (after : Text) : kindOf (ε := ε) (before ++ '[' :: (word ++ ']' :: after)) =
      match CellKind.ofName? word with
      | some kind => .ok (some kind)
      | none => .error (.configuration (.unknownKind word)) := by
  have hmem : List.contains (word ++ ']' :: after) ']' = true := by simp
  rw [kindOf, dropWhile_ne_append_cons hbefore]
  cases hname : CellKind.ofName? word with
  | none => simp only [hmem, if_true, takeWhile_ne_append_cons hword, hname]
  | some kind => simp only [hmem, if_true, takeWhile_ne_append_cons hword, hname]

/-- **A kind is read** where the first opening bracket begins a tag.

**Proof sketch.** From left to right by the first opening bracket and the first closing one after
it: the word between them is the name of a kind. From right to left the name has no bracket in it,
so it is what is found. -/
lemma kindOf_eq_ok_iff {head : Text} {kind? : Option CellKind} :
    kindOf (ε := ε) head = .ok kind? ↔
      ∃ before after, head = before ++ (tagOf kind? ++ after) ∧ '[' ∉ before ∧
        (kind? = none → after = []) := by
  constructor
  · intro h
    by_cases hopen : '[' ∈ head
    · obtain ⟨before, more, rfl, hbefore⟩ := List.eq_append_cons_of_mem hopen
      by_cases hclose : ']' ∈ more
      · obtain ⟨word, after, rfl, hword⟩ := List.eq_append_cons_of_mem hclose
        rw [kindOf_append hbefore hword] at h
        split at h
        next kind hkind =>
          cases h
          rw [CellKind.ofName?_eq_some_iff] at hkind
          exact ⟨before, after, by simp [tagOf, hkind], hbefore, nofun⟩
        next => cases h
      · rw [kindOf, dropWhile_ne_append_cons hbefore] at h
        simp [hclose] at h
    · rw [kindOf_of_not_mem hopen] at h
      cases h
      exact ⟨head, [], by simp [tagOf], hopen, fun _ => rfl⟩
  · rintro ⟨before, after, rfl, hbefore, hnone⟩
    cases kind? with
    | none => rw [hnone rfl, tagOf, List.append_nil, List.append_nil, kindOf_of_not_mem hbefore]
    | some kind =>
      have hword : ']' ∉ kind.name := by cases kind <;> decide
      have hname : CellKind.ofName? kind.name = some kind := CellKind.ofName?_eq_some_iff.2 rfl
      have htag : before ++ (tagOf (some kind) ++ after) =
          before ++ '[' :: (kind.name ++ ']' :: after) := by simp [tagOf]
      rw [htag, kindOf_append hbefore hword, hname]

/-- **Metadata are read** from a payload. -/
lemma dataOf_eq_ok_iff {payload : Text} {data : Json.Fields} :
    dataOf (ε := ε) payload = .ok data ↔ (payload = [] ∧ data = []) ∨
      ∃ fields, payload ≠ [] ∧ Json.read? payload = some (.object fields) ∧
        data = Json.canonicalFields fields := by
  unfold dataOf
  split
  next h => simp [h, eq_comm]
  next h =>
    simp only [h, false_and, false_or, ne_eq, not_false_eq_true, true_and]
    split
    next fields hread => simp [hread, eq_comm]
    next hother =>
      constructor
      · intro h
        cases h
      · rintro ⟨fields, hread, -⟩
        exact absurd hread (hother fields)

/-- Blanks around the body make no difference. -/
lemma ofBody_trim (body : Text) : ofBody (ε := ε) body.trim = ofBody body := by
  have hne : ∀ c, isBlank c = true → decide (c ≠ '\x7b') = true := fun c hc =>
    decide_eq_true (ne_of_isBlank hc (by decide))
  simp only [ofBody, Text.trim_takeWhile_trim hne, Text.trim_dropWhile_trim hne]

/-- **A body is read** if the kind and the metadata are. -/
lemma ofBody_eq_ok_iff {body : Text} {header : CellHeader} :
    ofBody (ε := ε) body = .ok header ↔
      kindOf (ε := ε) (Text.trim (body.takeWhile (· ≠ '\x7b'))) = .ok header.kind? ∧
      dataOf (ε := ε) (Text.trim (body.dropWhile (· ≠ '\x7b'))) = .ok header.data ∧
      labelOf (Text.trim (body.takeWhile (· ≠ '\x7b'))) = header.label? := by
  obtain ⟨label?, kind?, data⟩ := header
  simp only [ofBody]
  cases kindOf (ε := ε) (Text.trim (body.takeWhile (· ≠ '\x7b'))) with
  | error e => simp only [bind, Except.bind, reduceCtorEq, false_and]
  | ok k =>
    cases dataOf (ε := ε) (Text.trim (body.dropWhile (· ≠ '\x7b'))) with
    | error e => simp only [bind, Except.bind, reduceCtorEq, false_and, and_false]
    | ok d =>
      simp only [bind, Except.bind, pure, Except.pure, Except.ok.injEq, CellHeader.mk.injEq]
      tauto

/-- **The label** is what stands before the tag. -/
lemma labelOf_append {before after : Text} {kind? : Option CellKind} (hbefore : '[' ∉ before)
    (hnone : kind? = none → after = []) :
    labelOf (before ++ (tagOf kind? ++ after)) =
      if before.trim = [] then none else some before.trim := by
  have hcut : (before ++ (tagOf kind? ++ after)).takeWhile (· ≠ '[') = before := by
    cases kind? with
    | none => rw [hnone rfl, tagOf, List.append_nil, List.append_nil, takeWhile_ne_eq_self hbefore]
    | some kind => exact takeWhile_ne_append_cons hbefore _
  rw [labelOf, hcut]

/-! ## Blanks and their ends -/

/-- A character that is no blank does not occur in a blank text. -/
lemma Blank.not_mem {t : Text} (h : Blank t) {c : Char} (hc : isBlank c = false) : c ∉ t :=
  fun hmem => Bool.false_ne_true (hc.symm.trans (h c hmem))

/-- Nothing is left of a blank text when its end is trimmed. -/
lemma Blank.trimEnd_eq_nil {t : Text} (h : Blank t) : t.trimEnd = [] :=
  Text.trimEnd_append_blanks h []

/-- A text is blank if nothing is left of it when its end is trimmed. -/
lemma trimEnd_eq_nil_iff {t : Text} : t.trimEnd = [] ↔ Blank t := by
  refine ⟨fun h => ?_, Blank.trimEnd_eq_nil⟩
  obtain ⟨z, ht, hz⟩ := Text.exists_eq_trimEnd_append t
  rw [ht, h]
  exact hz

/-- The tag is empty if no kind is declared. -/
lemma tagOf_eq_nil_iff {kind? : Option CellKind} : tagOf kind? = [] ↔ kind? = none := by
  cases kind? <;> simp [tagOf]

/-- There is no opening brace in a tag. -/
lemma not_mem_tagOf (kind? : Option CellKind) : '\x7b' ∉ tagOf kind? := by
  rcases kind? with - | - | - <;> decide

/-- A tag is not trimmed away. -/
lemma trim_append_tag (kind : CellKind) (front after : Text) :
    Text.trim (front ++ (tagOf (some kind) ++ after)) =
      front.trimStart ++ (tagOf (some kind) ++ after.trimEnd) := by
  rw [Text.trim, Text.trimBy]
  calc (Text.trimStart (front ++ (tagOf (some kind) ++ after))).trimEnd
      = Text.trimEnd (front.trimStart ++ (tagOf (some kind) ++ after)) :=
        congrArg Text.trimEnd (Text.trimStart_append_cons (by decide) front _)
    _ = Text.trimEnd ((front.trimStart ++ '[' :: kind.name) ++ ']' :: after) := by simp [tagOf]
    _ = (front.trimStart ++ '[' :: kind.name) ++ ']' :: after.trimEnd :=
        Text.trimEnd_append_cons (by decide) _ after
    _ = front.trimStart ++ (tagOf (some kind) ++ after.trimEnd) := by simp [tagOf]

/-! ## The parts of a line -/

namespace Layout

variable {l l' : Layout} {header : CellHeader}

/-- After the margin a line has the percent signs and the body. -/
lemma trimStart_line (h : Blank l.margin) : l.line.trimStart = "%%".toList ++ l.body := by
  rw [line, Text.trimStart, Text.trimStartBy, List.dropWhile_append_of_pos h]
  exact List.dropWhile_cons_of_neg (by decide)

/-- The payload is empty or begins with an opening brace. -/
lemma Spells.payload_eq (h : l.Spells header) : l.payload = [] ∨ ∃ t, l.payload = '\x7b' :: t := by
  rcases h.payload with ⟨hnil, -⟩ | ⟨-, hhead, -⟩
  · exact .inl hnil
  · exact .inr (List.head?_eq_some_iff.1 hhead)

/-- There is nothing to trim at the end of the payload. -/
lemma Spells.trimEnd_payload (h : l.Spells header) : l.payload.trimEnd = l.payload := by
  rcases h.payload with ⟨hnil, -⟩ | ⟨-, -, htrim, -⟩
  · rw [hnil]
    rfl
  · exact htrim

section Cut

variable (h : l.Spells header) (hcut : l.Cut)

include h hcut

/-- There is no opening brace in the head. -/
lemma not_mem_head : '\x7b' ∉ l.head := by
  have hblank : isBlank '\x7b' = false := by decide
  simp only [head, List.mem_append, not_or]
  exact ⟨h.beforeLabel.not_mem hblank, hcut.plain.2, h.beforeTag.not_mem hblank,
    h.tag ▸ not_mem_tagOf _, hcut.gap⟩

/-- There is no opening brace in a body without a payload. -/
lemma not_mem_body (hnil : l.payload = []) : '\x7b' ∉ l.body := by
  rw [body, hnil, List.nil_append, List.mem_append, not_or]
  exact ⟨not_mem_head h hcut, h.rest.not_mem (by decide)⟩

/-- **The first opening brace** begins the payload. -/
lemma trim_takeWhile_body : Text.trim (l.body.takeWhile (· ≠ '\x7b')) = l.head.trim := by
  rcases h.payload_eq with hnil | ⟨t, ht⟩
  · rw [takeWhile_ne_eq_self (not_mem_body h hcut hnil), body, hnil, List.nil_append,
      Text.trim_append_blanks h.rest]
  · rw [body, ht, List.cons_append, takeWhile_ne_append_cons (not_mem_head h hcut)]

/-- From the first opening brace on there is the payload. -/
lemma trim_dropWhile_body : Text.trim (l.body.dropWhile (· ≠ '\x7b')) = l.payload := by
  rcases h.payload_eq with hnil | ⟨t, ht⟩
  · rw [dropWhile_ne_eq_nil (not_mem_body h hcut hnil), hnil]
    rfl
  · have htrim := h.trimEnd_payload
    have hdrop : l.body.dropWhile (· ≠ '\x7b') = l.payload ++ l.rest := by
      rw [body, ht, List.cons_append, dropWhile_ne_append_cons (not_mem_head h hcut)]
    rw [hdrop, Text.trim_append_blanks h.rest, Text.trim, Text.trimBy, ht]
    rw [ht] at htrim
    exact htrim

/-- **The first opening bracket** of the head begins the tag.

**Proof sketch.** Without a tag the head is the label with blanks around it. With one, trimming
stops at its brackets, and neither the label nor the blanks after it have an opening bracket. -/
lemma exists_trim_head_eq :
    ∃ before, l.head.trim = before ++ (tagOf header.kind? ++ l.gap.trimEnd) ∧ '[' ∉ before ∧
      before.trim = l.label := by
  have htag := h.tag
  cases hkind : header.kind? with
  | none =>
    -- Without a tag the head is the label with blanks around it.
    rw [hkind, tagOf] at htag
    have hgap := hcut.untagged htag
    have hblank : ∀ c ∈ l.beforeTag ++ l.gap, isBlank c = true := by
      simpa [or_imp, forall_and] using ⟨h.beforeTag, hgap⟩
    refine ⟨l.label, ?_, hcut.plain.1, hcut.trimmed⟩
    rw [tagOf, hgap.trimEnd_eq_nil, head, htag, List.nil_append,
      Text.trim_blanks_append h.beforeLabel, Text.trim_append_blanks hblank, hcut.trimmed,
      List.append_nil, List.append_nil]
  | some kind =>
    -- Trimming stops at the brackets of the tag, so the label may still have blanks after it.
    rw [hkind] at htag
    have hplain : '[' ∉ l.label ++ l.beforeTag := by
      rw [List.mem_append, not_or]
      exact ⟨hcut.plain.1, h.beforeTag.not_mem (by decide)⟩
    refine ⟨(l.label ++ l.beforeTag).trimStart, ?_, ?_, ?_⟩
    · have hfront : l.head =
          l.beforeLabel ++ ((l.label ++ l.beforeTag) ++ (tagOf (some kind) ++ l.gap)) := by
        rw [head, htag]
        simp only [List.append_assoc]
      rw [hfront, Text.trim_blanks_append h.beforeLabel, trim_append_tag]
    · exact fun hmem => hplain (List.dropWhile_sublist _ |>.mem hmem)
    · rw [Text.trim_trimStart, Text.trim_append_blanks h.beforeTag, hcut.trimmed]

/-- **The parts are read.** -/
lemma ofLine?_line : ofLine? (ε := ε) l.line = some (.ok header) := by
  obtain ⟨before, hhead, hbefore, hlabel⟩ := exists_trim_head_eq h hcut
  have hnone : header.kind? = none → l.gap.trimEnd = [] := fun hkind =>
    (hcut.untagged (by rw [h.tag, hkind, tagOf])).trimEnd_eq_nil
  have hbody : ofBody (ε := ε) l.body.trim = .ok header := by
    rw [ofBody_trim, ofBody_eq_ok_iff, trim_takeWhile_body h hcut, trim_dropWhile_body h hcut,
      hhead]
    refine ⟨kindOf_eq_ok_iff.2 ⟨before, _, rfl, hbefore, hnone⟩, ?_, ?_⟩
    · rcases h.payload with hnil | ⟨fields, hpayload, -, hread⟩
      · exact dataOf_eq_ok_iff.2 (.inl hnil)
      · exact dataOf_eq_ok_iff.2 (.inr ⟨fields, fun hnil => by simp [hnil] at hpayload, hread⟩)
    · rw [labelOf_append hbefore hnone, hlabel, h.label]
  rw [ofLine?, trimStart_line h.margin, Text.stripPrefix?_eq_some_iff.2 rfl]
  exact (if_pos hcut.separated).trans (congrArg some hbody)

end Cut

/-- Parts of one line have one body. -/
lemma body_eq (h : Blank l.margin) (h' : Blank l'.margin) (hline : l.line = l'.line) :
    l.body = l'.body := by
  have htrim := congrArg Text.trimStart hline
  rw [trimStart_line h, trimStart_line h'] at htrim
  exact List.append_cancel_left htrim

/-- **What is not looked at** is the same wherever the line is cut.

**Proof sketch.** The head without the blanks around it depends on the line alone, and the first
opening bracket in it begins the tag (`exists_trim_head_eq`). So what comes after the tag is the
same. Without a tag the gap is blank. -/
lemma trimEnd_gap_eq (h : l.Spells header) (hcut : l.Cut) (h' : l'.Spells header) (hcut' : l'.Cut)
    (hline : l.line = l'.line) : l.gap.trimEnd = l'.gap.trimEnd := by
  obtain ⟨before, hhead, hbefore, -⟩ := exists_trim_head_eq h hcut
  obtain ⟨before', hhead', hbefore', -⟩ := exists_trim_head_eq h' hcut'
  have heq : before ++ (tagOf header.kind? ++ l.gap.trimEnd) =
      before' ++ (tagOf header.kind? ++ l'.gap.trimEnd) := by
    rw [← hhead, ← hhead', ← trim_takeWhile_body h hcut, ← trim_takeWhile_body h' hcut',
      body_eq h.margin h'.margin hline]
  cases hkind : header.kind? with
  | none =>
    have htag := h.tag
    have htag' := h'.tag
    rw [hkind] at htag htag'
    rw [(hcut.untagged htag).trimEnd_eq_nil, (hcut'.untagged htag').trimEnd_eq_nil]
  | some kind =>
    have hdrop := congrArg (List.dropWhile (· ≠ '[')) heq
    rw [hkind, tagOf, List.cons_append, List.cons_append, dropWhile_ne_append_cons hbefore,
      dropWhile_ne_append_cons hbefore'] at hdrop
    exact List.append_cancel_left (List.cons.inj hdrop).2

/-- A layout with nothing but the parts is where the line is cut. -/
lemma cut_of_blank_gap (h : l.Spells header) (hcut : l.Cut) (h' : l'.Spells header)
    (hline : l.line = l'.line) (hblank : Blank l'.gap) : l'.Cut := by
  have hlabel : l'.label = l.label := by
    have heq := h.label.symm.trans h'.label
    split at heq <;> split at heq <;> simp_all
  have hbody := body_eq h.margin h'.margin hline
  exact ⟨hbody ▸ hcut.separated, hlabel ▸ hcut.trimmed, hlabel ▸ hcut.plain,
    hblank.not_mem (by decide), fun _ => hblank⟩

/-- **A line holds nothing but its parts** if nothing stands after the tag where it is cut. -/
lemma blank_gap_iff (h : l.Spells header) (hcut : l.Cut) :
    (∃ l' : Layout, l'.line = l.line ∧ l'.Spells header ∧ Blank l'.gap) ↔ Blank l.gap := by
  constructor
  · rintro ⟨l', hline, h', hblank⟩
    have hcut' := cut_of_blank_gap h hcut h' hline.symm hblank
    rw [← trimEnd_eq_nil_iff, trimEnd_gap_eq h hcut h' hcut' hline.symm]
    exact hblank.trimEnd_eq_nil
  · exact fun hblank => ⟨l, rfl, h, hblank⟩

end Layout

/-! ## Which lines are heads of cells -/

/-- What stands before the payload has parts. -/
lemma exists_head_eq {head : Text} {kind? : Option CellKind}
    (h : kindOf (ε := ε) head.trim = .ok kind?) :
    ∃ beforeLabel label beforeTag gap,
      head = beforeLabel ++ (label ++ (beforeTag ++ (tagOf kind? ++ gap))) ∧
      Blank beforeLabel ∧ Blank beforeTag ∧ '[' ∉ label ∧ label.trim = label ∧
      (kind? = none → Blank gap) ∧
      labelOf head.trim = if label = [] then none else some label := by
  obtain ⟨before, after, htrim, hbefore, hnone⟩ := kindOf_eq_ok_iff.1 h
  obtain ⟨a, z, hhead, ha, hz⟩ := Text.exists_eq_append_trim_append head
  obtain ⟨b, b', hlabel, hb, hb'⟩ := Text.exists_eq_append_trim_append before
  refine ⟨a ++ b, before.trim, b', after ++ z, ?_, ?_, hb', ?_, Text.trim_trim before, ?_, ?_⟩
  · calc head = a ++ ((before ++ (tagOf kind? ++ after)) ++ z) := by rw [← htrim]; exact hhead
      _ = a ++ (((b ++ (before.trim ++ b')) ++ (tagOf kind? ++ after)) ++ z) := by rw [← hlabel]
      _ = _ := by simp only [List.append_assoc]
  · exact fun c hc => (List.mem_append.1 hc).elim (ha c) (hb c)
  · intro hmem
    rw [hlabel] at hbefore
    exact hbefore (List.mem_append_right b (List.mem_append_left b' hmem))
  · intro hkind
    rw [hnone hkind]
    exact hz
  · rw [htrim, labelOf_append hbefore hnone]

/-- What begins at the first opening brace is a payload, with blanks after it. -/
lemma exists_payload_eq {payload : Text} {data : Json.Fields}
    (hhead : ∀ c ∈ payload.head?, c = '\x7b') (h : dataOf (ε := ε) payload.trim = .ok data) :
    ∃ rest, payload = payload.trim ++ rest ∧ Blank rest ∧ Gives payload.trim data := by
  have hstart : payload.trimStart = payload := by
    cases payload with
    | nil => rfl
    | cons c t =>
      obtain rfl := hhead c rfl
      rw [Text.trimStart, Text.trimStartBy, List.dropWhile_cons_of_neg (by decide)]
  have htrim : payload.trim = payload.trimEnd := congrArg Text.trimEnd hstart
  obtain ⟨rest, hpayload, hrest⟩ := Text.exists_eq_trimEnd_append payload
  refine ⟨rest, htrim ▸ hpayload, hrest, ?_⟩
  rcases dataOf_eq_ok_iff.1 h with hnil | ⟨fields, hne, hread⟩
  · exact .inl hnil
  · refine .inr ⟨fields, ?_, htrim ▸ Text.trimEnd_trimEnd payload, hread⟩
    obtain ⟨c, t, hcons⟩ := List.exists_cons_of_ne_nil hne
    rw [hcons, List.head?_cons, ← hhead c]
    rw [hpayload, ← htrim, hcons]
    rfl

/-- **Every head of a cell has parts.**

**Proof sketch.** The line is cut at its indent and the sign of a head, and the rest at its first
opening brace. What comes before the brace is the label and the tag with blanks around them
(`exists_head_eq`), and the rest is the data (`exists_payload_eq`). Put together again, these are
the line. -/
lemma exists_layout {line : Text} {header : CellHeader}
    (h : ofLine? (ε := ε) line = some (.ok header)) :
    ∃ l : Layout, l.line = line ∧ l.Spells header ∧ l.Cut := by
  unfold ofLine? at h
  split at h
  next body hstrip =>
    split at h
    next hsep =>
      rw [Option.some.injEq, ofBody_trim, ofBody_eq_ok_iff] at h
      obtain ⟨hkind, hdata, hlabel⟩ := h
      obtain ⟨beforeLabel, label, beforeTag, gap, hhead, hbeforeLabel, hbeforeTag, hplain, htrim,
        hnone, hread⟩ := exists_head_eq hkind
      obtain ⟨rest, hpayload, hrest, hgives⟩ := exists_payload_eq (head?_dropWhile_ne body) hdata
      have hbrace : '\x7b' ∉ body.takeWhile (· ≠ '\x7b') := fun hmem => by
        simpa using List.mem_takeWhile_imp hmem
      have hbody : body = body.takeWhile (· ≠ '\x7b') ++
          (Text.trim (body.dropWhile (· ≠ '\x7b')) ++ rest) := by
        rw [← hpayload, List.takeWhile_append_dropWhile]
      rw [hhead] at hbrace hbody
      simp only [List.mem_append, not_or] at hbrace
      let l : Layout := ⟨line.takeWhile isBlank, beforeLabel, label, beforeTag, tagOf header.kind?,
        gap, Text.trim (body.dropWhile (· ≠ '\x7b')), rest⟩
      have hl : l.body = body := hbody.symm
      refine ⟨l, ?_, ?_, ?_⟩
      · calc l.line = line.takeWhile isBlank ++ ("%%".toList ++ l.body) := rfl
          _ = line.takeWhile isBlank ++ line.trimStart := by
            rw [hl, ← Text.stripPrefix?_eq_some_iff.1 hstrip]
          _ = line := List.takeWhile_append_dropWhile
      · exact ⟨fun c => List.mem_takeWhile_imp, hbeforeLabel, hbeforeTag, hrest,
          hlabel.symm.trans hread, rfl, hgives⟩
      · exact ⟨hl ▸ hsep, htrim, ⟨hplain, hbrace.2.1⟩, hbrace.2.2.2.2,
          fun htag => hnone (tagOf_eq_nil_iff.1 htag)⟩
    next => cases h
  next => cases h

/-- **The heads of cells** are the lines that can be cut into the parts of one. -/
theorem ofLine?_eq_ok_iff {line : Text} {header : CellHeader} :
    ofLine? (ε := ε) line = some (.ok header) ↔
      ∃ l : Layout, l.line = line ∧ l.Spells header ∧ l.Cut := by
  refine ⟨exists_layout, ?_⟩
  rintro ⟨l, rfl, h, hcut⟩
  exact Layout.ofLine?_line h hcut

/-- **A line is the head of a cell** when it can be cut into the parts of one, and it holds nothing
but the parts just when nothing stands between the tag and the payload.

**Proof sketch.** What is read has parts (`exists_layout`), and what has parts is read. The gap is
found from the line alone, so it is blank in all ways to cut the line or in none
(`Layout.blank_gap_iff`). -/
theorem ofLine?_spelled (line : Text) (header : CellHeader) :
    (ofLine? (ε := ε) line = some (.ok header) ↔
      ∃ l : Layout, l.line = line ∧ l.Spells header ∧ l.Cut) ∧
    ∀ l : Layout, l.line = line → l.Spells header → l.Cut →
      ((∃ l' : Layout, l'.line = line ∧ l'.Spells header ∧ Blank l'.gap) ↔ Blank l.gap) := by
  refine ⟨ofLine?_eq_ok_iff, ?_⟩
  rintro l rfl h hcut
  exact Layout.blank_gap_iff h hcut

/-- What stands between the tag and the end of the line is lost. -/
theorem ofLine?_not_spelled :
    let line := "%% Setup [code] first cell".toList
    let header : CellHeader := ⟨some "Setup".toList, some .code, []⟩
    ofLine? (ε := Empty) line = some (.ok header) ∧
      ¬ ∃ l : Layout, l.line = line ∧ l.Spells header ∧ Blank l.gap := by
  intro line header
  let l : Layout :=
    ⟨[], [' '], "Setup".toList, [' '], "[code]".toList, " first cell".toList, [], []⟩
  have h : l.Spells header :=
    ⟨by decide, by decide, by decide, by decide, by decide, by decide, .inl ⟨rfl, rfl⟩⟩
  have hcut : l.Cut := ⟨by decide, by decide, by decide, by decide, by decide⟩
  have hline : l.line = line := by decide
  rw [← hline, Layout.blank_gap_iff h hcut]
  exact ⟨Layout.ofLine?_line h hcut, by decide⟩

end Weave.Notebook.CellHeader
