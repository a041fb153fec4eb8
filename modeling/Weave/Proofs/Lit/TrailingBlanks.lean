import Weave.Proofs.Lit.Joining
import Weave.Proofs.Lit.SyntaxSpans
import Weave.Proofs.Text.Blanks

set_option autoImplicit false
set_option relaxedAutoImplicit false

/-!
# Blanks at the end of code

Blanks that are put after a code make hardly a difference to it. No lexeme goes on with them, so the
tokens are the same, but for separators if there are line feeds among the blanks. But only a few of
the characters that are blank in a text are blanks of the language: any other one cannot be scanned,
unless it stands in a comment. And a departure from the grammar that is at the end of the code is
then at the end of the blanks.

## Main definitions

* `Weave.Lit.SyntaxFault.IsForeign` — a blank is found that the language does not know.
* `Weave.Lit.SyntaxFault.Matches` — a departure from the grammar without blanks and with them.
* `Weave.Lit.LexedWith`, `Weave.Lit.ParsedWith` — reading a code without blanks and with them.

## Main results

* `Weave.Lit.scan_append_blanks`, `Weave.Lit.scan_append_blanks_error` — lexemes before the blanks.
* `Weave.Lit.tokensFrom_append_blanks` — the tokens of a code with blanks after it.
* `Weave.Lit.clauses_append_iff` — separators after a program make no difference.
* `Weave.Lit.parse_append_blanks` — the program of a code with blanks after it.
-/

namespace Weave.Lit

/-- **A blank that the language does not know** is found among those after a code. -/
def SyntaxFault.IsForeign (z : Text) (f : SyntaxFault) : Prop :=
  ∃ d ∈ z, isSpace d = false ∧ f.cause = .unexpectedCharacter d

/-- **A departure from the grammar** of a code that ends at `stop`, and that of the code with blanks
after it that end at `stop'`. -/
inductive SyntaxFault.Matches (stop stop' : Nat) (z : Text) : SyntaxFault → SyntaxFault → Prop where
  /-- The blanks make no difference. -/
  | same (f : SyntaxFault) : Matches stop stop' z f f
  /-- A string without an end takes the blanks in. -/
  | string (start : Nat) (blanks : z ≠ []) :
      Matches stop stop' z ⟨.unterminatedString, start, stop⟩ ⟨.unterminatedString, start, stop'⟩
  /-- What is missing at the end of the code is missing after the blanks. -/
  | atEnd (cause : SyntaxCause) (blanks : z ≠ []) :
      Matches stop stop' z ⟨cause, stop, stop⟩ ⟨cause, stop', stop'⟩
  /-- A backslash at the end of the code, inside of a string, makes an escape with the first
  blank. -/
  | escape (start : Nat) (span : Span) {d : Char} {more : Text} (blanks : z = d :: more) :
      Matches stop stop' z ⟨.unterminatedString, start, stop⟩ ⟨.unknownEscape d, span⟩
  /-- Something is missing, and there is a line feed among the blanks. -/
  | lineFeed (f g : SyntaxFault) (mem : '\n' ∈ z) : Matches stop stop' z f g

section

variable {d : Char} {t z : Text}

/-! ## Lexemes -/

/-- A blank is no character of a number. -/
lemma isNumberChar_of_isBlank (hd : isBlank d = true) : isNumberChar d = false := by
  have hdigit : isDigit d = false := by
    by_contra h
    rw [isBlank_of_isDigit (by simpa using h)] at hd
    cases hd
  have hpoint : d ≠ '.' := ne_of_isBlank hd (by decide)
  simp [isNumberChar, hdigit, hpoint]

/-- A blank is no character of a name. -/
lemma isNameChar_of_isBlank (hd : isBlank d = true) : isNameChar d = false := by
  have hunderscore : d ≠ '_' := ne_of_isBlank hd (by decide)
  simp [isNameChar, isAlphanumeric_of_isBlank hd, hunderscore]

/-- **No token goes on** with a blank. -/
lemma continues_of_isBlank (hd : isBlank d = true) (k : Token) : k.continues d = false := by
  have heq : d ≠ '=' := ne_of_isBlank hd (by decide)
  have hparen : d ≠ ')' := ne_of_isBlank hd (by decide)
  cases k with
  | number => exact isNumberChar_of_isBlank hd
  | ident | true | false => exact isNameChar_of_isBlank hd
  | eq | bang | gt | lt => exact beq_eq_false_iff_ne.2 heq
  | lParen => exact beq_eq_false_iff_ne.2 hparen
  | _ => rfl

/-- A character that is no symbol is unexpected. -/
lemma scanSymbol_of_isBlank (hd : isBlank d = true) (t : Text) :
    scanSymbol d t = .error { cause := .unexpectedCharacter d, before := [], extent := [d] } := by
  have hplain : plainToken? d = none := by
    unfold plainToken?
    split
    case h_11 => rfl
    all_goals cases hd
  unfold scanSymbol
  split
  case h_8 => rw [hplain]
  all_goals cases hd

/-- **A blank that the language does not know** cannot be scanned, unless it is a line feed. -/
lemma scan_of_isBlank (hd : isBlank d = true) (hspace : isSpace d = false) (hline : d ≠ '\n')
    (t : Text) :
    scan d t = .error { cause := .unexpectedCharacter d, before := [], extent := [d] } := by
  have hhash : d ≠ '#' := ne_of_isBlank hd (by decide)
  have hquote : d ≠ '"' := ne_of_isBlank hd (by decide)
  have hdigit : ¬ isDigit d = true := fun h => by
    rw [isBlank_of_isDigit h] at hd
    cases hd
  have hname : ¬ isNameStart d = true := fun h => by
    rw [isBlank_of_isNameStart h] at hd
    cases hd
  rw [scan, hspace, if_neg Bool.false_ne_true, if_neg hline, if_neg hhash, if_neg hquote,
    if_neg hdigit, if_neg hname, scanSymbol_of_isBlank hd]

variable {c : Char} (hz : ∀ d ∈ z, isBlank d = true)

include hz

/-- **What is read at the front of a code** is read of the code with blanks after it, and only a
comment at the end takes blanks in.

**Proof sketch.** By the form of what is read. No blank continues a string, a separator or a word,
so these end where they did. A comment ends at a line feed; if there is none, it goes on into the
blanks. -/
lemma scan_append_blanks {s : Scanned} (h : scan c t = .ok s) :
    scan c (t ++ z) = .ok { s with rest := s.rest ++ z } ∨
      s.lexeme = .blank ∧ s.rest = [] ∧ scan c (t ++ z) =
        .ok ⟨.blank, s.spelling ++ z.takeWhile (· ≠ '\n'), z.dropWhile (· ≠ '\n')⟩ := by
  have hends (k : Token) : ∀ d ∈ z.head?, k.continues d = false := fun d hd =>
    continues_of_isBlank (hz d (List.mem_of_mem_head? hd)) k
  have happ := (scan_eq_append h).1
  cases form_of_scan h with
  | space e rest he =>
    cases happ
    refine .inl ?_
    rw [scan, if_pos he]
    rfl
  | lineFeed rest =>
    refine .inl (scan_append h fun _ d _ => rfl)
  | comment t' =>
    rw [List.cons_append, List.takeWhile_append_dropWhile] at happ
    cases happ
    have hscan (u : Text) : scan '#' u = scanComment '#' u := rfl
    by_cases hrest : t.dropWhile (· ≠ '\n') = []
    · have hall : ∀ d ∈ t, (decide (d ≠ '\n')) = true := List.dropWhile_eq_nil_iff.1 hrest
      refine .inr ⟨rfl, hrest, ?_⟩
      rw [hscan, scanComment, List.takeWhile_append_of_pos hall, List.dropWhile_append_of_pos hall,
        List.takeWhile_eq_self_iff.2 hall]
      rfl
    · exact .inl (scan_append h fun hnil => absurd hnil hrest)
  | string t' r hr => exact .inl (scan_append h fun _ => hends (.string r.text))
  | semicolon rest => exact .inl (scan_append h fun _ => hends .separator)
  | word k e more rest => exact .inl (scan_append h fun _ => hends k)

omit hz in
/-- No escape is made with a blank. -/
lemma escapedChar?_of_isBlank (hd : isBlank d = true) : escapedChar? d = none := by
  unfold escapedChar?
  split
  case h_5 => rfl
  all_goals cases hd

/-- Blanks do not end a string. -/
lemma stringRest_blanks : stringRest z = .error .unterminated := by
  induction z with
  | nil => rfl
  | cons d z ih =>
    rw [List.forall_mem_cons] at hz
    have hquote : d ≠ '"' := ne_of_isBlank hz.1 (by decide)
    have hescape : d ≠ '\\' := ne_of_isBlank hz.1 (by decide)
    rw [stringRest.eq_4 _ _ hquote fun _ _ hd => absurd hd hescape, ih hz.2]
    rfl

omit hz in
/-- A string without an end has none after its first character either. -/
lemma pushChar_eq_unterminated {spelling : Text} {r : Except StringFault StringRest}
    (h : pushChar spelling d r = .error .unterminated) : r = .error .unterminated := by
  rcases r with (_ | _) | _
  · rfl
  · cases h
  · cases h

omit hz in
/-- A string with an unknown escape has it whatever stands after it. -/
lemma stringRest_append_escape {before : Text} {e : Char}
    (h : stringRest t = .error (.escape before e)) (z : Text) :
    stringRest (t ++ z) = .error (.escape before e) := by
  fun_induction stringRest t generalizing before with
  | case1 => cases h
  | case2 => cases h
  | case3 e' t d he ih =>
    obtain ⟨between, hs, rfl⟩ := pushChar_eq_error h
    simp only [List.cons_append, stringRest, he, ih hs]
    rfl
  | case4 e' t he =>
    cases h
    simp only [List.cons_append, stringRest, he]
  | case5 d t hquote hescape ih =>
    obtain ⟨between, hs, rfl⟩ := pushChar_eq_error h
    obtain ⟨e', t, rfl⟩ := List.exists_cons_of_ne_nil (show t ≠ [] from fun ht => by
      rw [ht] at hs
      cases hs)
    rw [List.cons_append, stringRest.eq_4 _ _ hquote fun _ _ hd _ => hescape e' t hd rfl, ih hs]
    rfl

/-- **A string that does not end** does not end with blanks after it either, but a backslash at its
end makes an escape with the first blank.

**Proof sketch.** By the characters of the string. All are read as before, but for a backslash at
the end: before a blank it is an escape that does not exist. -/
lemma stringRest_append_blanks (h : stringRest t = .error .unterminated) :
    stringRest (t ++ z) = .error .unterminated ∨
      ∃ d more before, z = d :: more ∧ stringRest (t ++ z) = .error (.escape before d) := by
  fun_induction stringRest t with
  | case1 => exact .inl (stringRest_blanks hz)
  | case2 => cases h
  | case3 e t c he ih =>
    simp only [List.cons_append, stringRest, he]
    rcases ih (pushChar_eq_unterminated h) with hs | ⟨d, more, before, rfl, hs⟩
    · exact .inl (by rw [hs]; rfl)
    · exact .inr ⟨d, more, _, rfl, by rw [hs]; rfl⟩
  | case4 => cases h
  | case5 c t hquote hescape ih =>
    by_cases hend : c = '\\' ∧ t = []
    · obtain ⟨rfl, rfl⟩ := hend
      cases z with
      | nil => exact .inl rfl
      | cons d z =>
        have hd := escapedChar?_of_isBlank (hz d List.mem_cons_self)
        refine .inr ⟨d, z, [], rfl, ?_⟩
        simp only [List.cons_append, List.nil_append, stringRest, hd]
    · have hescape' : ∀ e more, c = '\\' → t ++ z = e :: more → False := by
        intro e more hc _
        cases t with
        | nil => exact hend ⟨hc, rfl⟩
        | cons e' t => exact hescape e' t hc rfl
      rw [List.cons_append, stringRest.eq_4 _ _ hquote hescape']
      rcases ih (pushChar_eq_unterminated h) with hs | ⟨d, more, before, rfl, hs⟩
      · exact .inl (by rw [hs]; rfl)
      · exact .inr ⟨d, more, _, rfl, by rw [hs]; rfl⟩

/-- A character that ought to be doubled is a fault also if blanks follow. -/
lemma doubled_append_blanks_error {k : Token} {f : ScanFault} (hc : isBlank c = false)
    (h : doubled c k t = .error f) : doubled c k (t ++ z) = .error f := by
  cases t with
  | nil =>
    cases z with
    | nil => exact h
    | cons d z =>
      have hd : d ≠ c := ne_of_isBlank (hz d List.mem_cons_self) hc
      rw [List.nil_append, doubled, if_neg hd]
      exact h
  | cons d t =>
    rw [doubled] at h
    rw [List.cons_append, doubled]
    split_ifs at h ⊢
    exact h

/-- A symbol that is a fault is one also if blanks follow. -/
lemma scanSymbol_append_blanks_error {f : ScanFault} (h : scanSymbol c t = .error f) :
    scanSymbol c (t ++ z) = .error f := by
  unfold scanSymbol at h ⊢
  split at h
  case h_5 => exact doubled_append_blanks_error hz (by decide) h
  case h_6 => exact doubled_append_blanks_error hz (by decide) h
  case h_8 =>
    split at h
    · cases h
    · exact h
  all_goals exact absurd h oneOrTwo_ne_error

/-- **What cannot be scanned** cannot be scanned with blanks after it, and for the same reason,
unless it is a string without an end.

**Proof sketch.** By the tests of `scan`. A number or a sign that cannot be read ends before the
blanks, and an escape that cannot be read stands before the end of the string. -/
lemma scan_append_blanks_error {f : ScanFault} (h : scan c t = .error f) :
    scan c (t ++ z) = .error f ∨ c = '"' ∧ stringRest t = .error .unterminated := by
  have hclass {p : Char → Bool} (hp : ∀ d, isBlank d = true → p d = false) :
      t.dropWhile p = [] → ∀ d ∈ z.head?, p d = false := fun _ d hd =>
    hp d (hz d (List.mem_of_mem_head? hd))
  unfold scan at h ⊢
  split_ifs at h ⊢ with hspace hline hhash hquote hdigit hname
  · cases h
  · cases h
  · cases h
  · cases hs : stringRest t with
    | ok r => simp [scanString, hs] at h
    | error g =>
      cases g with
      | unterminated => exact .inr ⟨hquote, rfl⟩
      | escape before e =>
        refine .inl ?_
        rw [scanString, hs] at h
        rw [scanString, stringRest_append_escape hs]
        exact h
  · obtain ⟨htake, hdrop⟩ := takeWhile_append_of (hclass fun _ => isNumberChar_of_isBlank)
    simp only [scanNumber] at h
    split at h
    next => cases h
    next hnone =>
      cases h
      exact .inl (by simp only [scanNumber, htake, hnone])
  · cases h
  · exact .inl (scanSymbol_append_blanks_error hz h)

end

/-! ## Tokens -/

/-- What cannot be scanned has no tokens. -/
lemma tokensFrom_of_error {c : Char} {t : Text} {f : ScanFault} (h : scan c t = .error f)
    (depth offset : Nat) :
    tokensFrom depth offset (c :: t) =
      let start := offset + Text.byteSize f.before
      .error ⟨f.cause, start, start + Text.byteSize f.extent⟩ := by
  rw [tokensFrom]
  split
  next g hg =>
    cases h.symm.trans hg
    rfl
  next s hs => cases h.symm.trans hs

/-- The token of a lexeme, if it gives one, comes before those of the rest. -/
lemma tokensFrom_of_ok {c : Char} {t : Text} {s : Scanned} (h : scan c t = .ok s)
    (depth offset : Nat) :
    tokensFrom depth offset (c :: t) =
      let stop := offset + Text.byteSize s.spelling
      match s.lexeme.token? depth with
      | none => tokensFrom depth stop s.rest
      | some token =>
        (tokensFrom (depthAfter depth token) stop s.rest).map (⟨token, offset, stop⟩ :: ·) := by
  rw [tokensFrom]
  split
  next g hg => cases h.symm.trans hg
  next s' hs =>
    cases h.symm.trans hs
    dsimp only
    cases s.lexeme.token? depth with
    | none => rfl
    | some token =>
      dsimp only
      cases tokensFrom (depthAfter depth token) (offset + Text.byteSize s.spelling) s.rest <;> rfl

/-- Whether tokens are separators. -/
def AreSeparators (ts : List Placed) : Prop :=
  ∀ p ∈ ts, p.token.isSeparator = true

/-- **The tokens of a code and of the code with blanks after it.** The code ends at `stop` and the
blanks end at `stop'`. -/
inductive LexedWith (stop stop' : Nat) (z : Text) :
    Except SyntaxFault (List Placed) → Except SyntaxFault (List Placed) → Prop where
  /-- There are more separators if there are line feeds among the blanks. -/
  | tokens (ts : List Placed) {more : List Placed} (separators : AreSeparators more)
      (lineFeed : more ≠ [] → '\n' ∈ z) : LexedWith stop stop' z (.ok ts) (.ok (ts ++ more))
  | fault {f g : SyntaxFault} (matches_ : f.Matches stop stop' z g) :
      LexedWith stop stop' z (.error f) (.error g)
  /-- A blank is found that the language does not know. -/
  | foreign (r : Except SyntaxFault (List Placed)) {g : SyntaxFault} (foreign : g.IsForeign z) :
      LexedWith stop stop' z r (.error g)

/-- One more token makes no difference. -/
lemma LexedWith.cons {stop stop' : Nat} {z : Text} {r r' : Except SyntaxFault (List Placed)}
    (h : LexedWith stop stop' z r r') (p : Placed) :
    LexedWith stop stop' z (r.map (p :: ·)) (r'.map (p :: ·)) := by
  cases h with
  | tokens ts hseparators hline => exact .tokens (p :: ts) hseparators hline
  | fault h => exact .fault h
  | foreign r h => exact .foreign _ h

section

variable {z : Text} (hz : ∀ d ∈ z, isBlank d = true)

include hz

/-- **Blanks alone** give separators, or one of them is not known to the language.

**Proof sketch.** Induction on the blanks. The first one is skipped if it is a space, is a separator
or skipped if it is a line feed, and is not known to the language otherwise. -/
lemma tokensFrom_blanks (depth offset : Nat) :
    (∃ more, tokensFrom depth offset z = .ok more ∧ AreSeparators more ∧
        (more ≠ [] → '\n' ∈ z)) ∨
      ∃ g, tokensFrom depth offset z = .error g ∧ g.IsForeign z := by
  induction z generalizing offset with
  | nil =>
    rw [tokensFrom]
    exact .inl ⟨[], rfl, List.forall_mem_nil _, absurd rfl⟩
  | cons d z ih =>
    rw [List.forall_mem_cons] at hz
    have hrest (stop : Nat) : (∃ more, tokensFrom depth stop z = .ok more ∧ AreSeparators more ∧
        (more ≠ [] → '\n' ∈ d :: z)) ∨
        ∃ g, tokensFrom depth stop z = .error g ∧ g.IsForeign (d :: z) := by
      rcases ih hz.2 stop with ⟨more, hmore, hseparators, hline⟩ | ⟨g, hg, e, he, hforeign⟩
      · exact .inl ⟨more, hmore, hseparators, fun hne => List.mem_cons_of_mem d (hline hne)⟩
      · exact .inr ⟨g, hg, e, List.mem_cons_of_mem d he, hforeign⟩
    by_cases hspace : isSpace d = true
    · have hscan : scan d z = .ok ⟨.blank, [d], z⟩ := by
        rw [scan, if_pos hspace]
        rfl
      rw [tokensFrom_of_ok hscan]
      exact hrest _
    · by_cases hline : d = '\n'
      · obtain rfl := hline
        have hscan : scan '\n' z = .ok ⟨.lineFeed, ['\n'], z⟩ := rfl
        rw [tokensFrom_of_ok hscan]
        by_cases hdepth : depth > 0
        · simp only [Lexeme.token?, if_pos hdepth]
          exact hrest _
        · simp only [Lexeme.token?, if_neg hdepth, depthAfter]
          rcases hrest (offset + Text.byteSize ['\n']) with
            ⟨more, hmore, hseparators, -⟩ | ⟨g, hg, h⟩
          · rw [hmore]
            exact .inl ⟨_, rfl, List.forall_mem_cons.2 ⟨rfl, hseparators⟩,
              fun _ => List.mem_cons_self⟩
          · rw [hg]
            exact .inr ⟨g, rfl, h⟩
      · rw [Bool.not_eq_true] at hspace
        rw [tokensFrom_of_error (scan_of_isBlank hz.1 hspace hline z)]
        exact .inr ⟨_, rfl, d, List.mem_cons_self, hspace, rfl⟩

/-- **The tokens of a code with blanks after it**, compared with those of the code.

**Proof sketch.** By the length of the code. A lexeme before the end of the code is the same with
the blanks; what cannot be scanned is the same too, unless it is a string without an end. Only a
comment at the end of the code takes blanks in. -/
theorem tokensFrom_append_blanks (hne : z ≠ []) (depth offset : Nat) (t : Text) :
    LexedWith (offset + Text.byteSize t) (offset + Text.byteSize (t ++ z)) z
      (tokensFrom depth offset t) (tokensFrom depth offset (t ++ z)) := by
  induction hn : t.length using Nat.strongRecOn generalizing depth offset t with
  | ind n ih =>
    cases t with
    | nil =>
      have hnil : tokensFrom depth offset [] = .ok [] := by rw [tokensFrom]
      rw [hnil, List.nil_append]
      rcases tokensFrom_blanks hz depth offset with ⟨more, hmore, hseparators, hline⟩ | ⟨g, hg, h⟩
      · rw [hmore]
        exact .tokens [] hseparators hline
      · rw [hg]
        exact .foreign _ h
    | cons c t =>
      rw [List.cons_append]
      cases hs : scan c t with
      | ok s =>
        obtain ⟨happ, hspelling⟩ := scan_eq_append hs
        have hlength := length_scan hs
        rw [List.length_cons] at hn
        have hsize (u : Text) : offset + Text.byteSize (s.spelling ++ u) =
            offset + Text.byteSize s.spelling + Text.byteSize u := by
          rw [Text.byteSize_append, Nat.add_assoc]
        have hrest (depth : Nat) := ih s.rest.length (by omega) depth
          (offset + Text.byteSize s.spelling) s.rest rfl
        rw [tokensFrom_of_ok hs]
        rcases scan_append_blanks hz hs with hscan | ⟨hblank, hnil, hscan⟩
        · have hwhole : c :: (t ++ z) = s.spelling ++ (s.rest ++ z) := by
            rw [← List.cons_append, happ, List.append_assoc]
          rw [tokensFrom_of_ok hscan, happ, hwhole, hsize, hsize]
          dsimp only
          cases s.lexeme.token? depth with
          | none => exact hrest depth
          | some token => exact (hrest _).cons _
        · have hsubset : ∀ d ∈ z.dropWhile (· ≠ '\n'), d ∈ z := (List.dropWhile_suffix _).subset
          have hempty (offset : Nat) : tokensFrom depth offset [] = .ok [] := by rw [tokensFrom]
          rw [tokensFrom_of_ok hscan, hblank, hnil]
          simp only [Lexeme.token?, hempty]
          rcases tokensFrom_blanks (fun d hd => hz d (hsubset d hd)) depth
            (offset + Text.byteSize (s.spelling ++ z.takeWhile (· ≠ '\n'))) with
            ⟨more, hmore, hseparators, hline⟩ | ⟨g, hg, d, hd, hforeign⟩
          · rw [hmore]
            exact .tokens [] hseparators fun h => hsubset _ (hline h)
          · rw [hg]
            exact .foreign _ ⟨d, hsubset d hd, hforeign⟩
      | error f =>
        rw [tokensFrom_of_error hs]
        rcases scan_append_blanks_error hz hs with hscan | ⟨rfl, hstring⟩
        · rw [tokensFrom_of_error hscan]
          exact .fault (.same _)
        · have hscan (u : Text) : scan '"' u = scanString u := rfl
          rw [hscan, scanString, hstring] at hs
          cases hs
          rcases stringRest_append_blanks hz hstring with hmore | ⟨d, more, before, hd, hmore⟩
          · rw [tokensFrom_of_error (by rw [hscan, scanString, hmore])]
            exact .fault (.string offset hne)
          · rw [tokensFrom_of_error (by rw [hscan, scanString, hmore])]
            exact .fault (.escape offset _ hd)

end

/-! ## Programs -/

/-- No token of a statement is a separator. -/
lemma Clause.isSeparator_eq_false {depth : Nat} {ts : List Placed} {s : Statement}
    (h : Clause depth ts s) : ∀ p ∈ ts, p.token.isSeparator = false := by
  have hphrase {vs : List Placed} {e : Expr} (value : Phrase depth .expr vs e) :
      ∀ p ∈ vs, p.token.isSeparator = false := fun p hp => by
    have hstatements := value.isOfStatements_eq_false p hp
    generalize p.token = k at hstatements ⊢
    cases k with
    | separator => cases hstatements
    | _ => rfl
  cases h with
  | assign place eq name value => exact List.forall_mem_cons.2 ⟨rfl, List.forall_mem_cons.2
      ⟨rfl, hphrase value⟩⟩
  | expression value => exact hphrase value

/-- There is no statement without tokens. -/
lemma Clause.ne_nil {depth : Nat} {ts : List Placed} {s : Statement} (h : Clause depth ts s) :
    ts ≠ [] := by
  cases h with
  | assign => exact List.cons_ne_nil _ _
  | expression value =>
    obtain ⟨p, more, rfl, -⟩ := value.head
    exact List.cons_ne_nil p more

/-- Without tokens there are no statements. -/
lemma Clauses.eq_nil {depth : Nat} {program : Program} (h : Clauses depth [] program) :
    program = [] := by
  generalize hts : ([] : List Placed) = ts at h
  cases h with
  | nil => rfl
  | separator => cases hts
  | last clause => exact absurd hts.symm clause.ne_nil
  | statement => simp at hts

/-- One separator after a program makes no difference.

**Proof sketch.** From left to right by induction on the derivation, with the last token in each
case: it is a separator that stands alone, or comes after the last statement, or is the last one of
the rest. From right to left it is put after the last statement (`Clauses.append`). -/
lemma clauses_concat_iff {depth : Nat} {ts : List Placed} {program : Program} {p : Placed}
    (hp : p.token.isSeparator = true) :
    Clauses depth (ts ++ [p]) program ↔ Clauses depth ts program := by
  constructor
  · intro h
    generalize hus : ts ++ [p] = us at h
    induction h generalizing ts with
    | nil => simp at hus
    | separator place rest ih =>
      cases ts with
      | nil =>
        obtain ⟨-, rfl⟩ := List.cons.inj hus
        exact rest
      | cons q ts =>
        obtain ⟨rfl, hrest⟩ := List.cons.inj hus
        exact .separator place (ih hrest)
    | last clause =>
      have hlast := clause.isSeparator_eq_false p (hus ▸ by simp)
      rw [hp] at hlast
      cases hlast
    | @statement us more s program place clause rest ih =>
      rcases more.eq_nil_or_concat' with rfl | ⟨more, q, rfl⟩
      · obtain ⟨rfl, -⟩ := List.append_inj' hus rfl
        obtain rfl := rest.eq_nil
        exact .last clause
      · rw [← List.cons_append, ← List.append_assoc] at hus
        obtain ⟨rfl, hq⟩ := List.append_inj' hus rfl
        exact .statement place clause (ih (congrArg (more ++ ·) hq))
  · intro h
    obtain ⟨token, place⟩ := p
    cases token with
    | separator =>
      have happend := h.append place .nil
      rwa [List.append_nil] at happend
    | _ => cases hp

/-- **Separators after a program** make no difference. -/
theorem clauses_append_iff {depth : Nat} {ts more : List Placed} {program : Program}
    (hmore : AreSeparators more) :
    Clauses depth (ts ++ more) program ↔ Clauses depth ts program := by
  induction more using List.reverseRecOn with
  | nil => rw [List.append_nil]
  | append_singleton more p ih =>
    rw [AreSeparators, List.forall_mem_append, List.forall_mem_singleton] at hmore
    rw [← List.append_assoc, clauses_concat_iff hmore.2, ih hmore.1]

/-- **The program of a code and of the code with blanks after it.** -/
inductive ParsedWith (code z : Text) :
    Except SyntaxFault Program → Except SyntaxFault Program → Prop where
  | program (program : Program) : ParsedWith code z (.ok program) (.ok program)
  | fault {f g : SyntaxFault}
      (matches_ : f.Matches (Text.byteSize code) (Text.byteSize (code ++ z)) z g) :
      ParsedWith code z (.error f) (.error g)
  /-- A blank is found that the language does not know. -/
  | foreign (r : Except SyntaxFault Program) {g : SyntaxFault} (foreign : g.IsForeign z) :
      ParsedWith code z r (.error g)

/-- **The program of a code with blanks after it**, compared with that of the code.

**Proof sketch.** By the tokens (`tokensFrom_append_blanks`). These are the same with separators
after them, which do not change what is derived from them (`clauses_append_iff`). Without a program
the faults are compared: one at the end of the code moves to the first separator. -/
theorem parse_append_blanks {z : Text} (hz : ∀ d ∈ z, isBlank d = true) (code : Text) :
    ParsedWith code z (parse code) (parse (code ++ z)) := by
  by_cases hne : z = []
  · rw [hne, List.append_nil]
    cases parse code with
    | ok program => exact .program program
    | error f => exact .fault (.same f)
  · have hlexed := tokensFrom_append_blanks hz hne 0 0 code
    rw [Nat.zero_add, Nat.zero_add] at hlexed
    unfold parse tokenize
    generalize tokensFrom 0 0 code = r at hlexed ⊢
    generalize tokensFrom 0 0 (code ++ z) = r' at hlexed ⊢
    cases hlexed with
    | fault h => exact .fault h
    | foreign r h => exact .foreign _ h
    | @tokens ts more hseparators hline =>
      dsimp only
      by_cases hmore : more = []
      · rw [hmore, List.append_nil]
        cases statements ts.length ts with
        | ok program => exact .program program
        | error m =>
          obtain ⟨cause, span?⟩ := m
          cases span? with
          | none => exact .fault (.atEnd cause hne)
          | some span => exact .fault (.same _)
      · have hiff (program : Program) : statements (ts ++ more).length (ts ++ more) = .ok program ↔
            statements ts.length ts = .ok program := by
          rw [statements_eq_ok_iff, statements_eq_ok_iff, clauses_append_iff hseparators]
        cases hparsed : statements ts.length ts with
        | ok program =>
          rw [(hiff program).2 hparsed]
          exact .program program
        | error m =>
          cases hparsed' : statements (ts ++ more).length (ts ++ more) with
          | ok program =>
            have hok := (hiff program).1 hparsed'
            rw [hparsed] at hok
            cases hok
          | error m' => exact .fault (.lineFeed _ _ (hline hmore))

end Weave.Lit
