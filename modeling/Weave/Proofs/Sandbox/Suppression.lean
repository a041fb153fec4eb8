import Mathlib
import Weave.Lit.Parser
import Weave.Proofs.Lit.Spelling
import Weave.Proofs.Text.Rows
import Weave.Sandbox

set_option autoImplicit false
set_option relaxedAutoImplicit false

/-!
# When a value is left out

The value of a block is left out if its code ends in a semicolon. The code is read twice, and
differently: by lines from the last one on, each line as if it began outside of a string; and by
lexemes from the front. The two agree on the code after the last string that runs over a line end,
and on the whole code only as far as such a string does not mislead the reading by lines.

## Main definitions

* `Weave.Lit.endsInSemicolon` — whether the last token but line ends is a semicolon.
* `Weave.Lit.afterLongStrings` — the code after the last string that runs over a line end.
* `Weave.Text.verdict?` — what the reading by lines says, if the text holds any code.

## Main results

* `Weave.Text.verdict?_append` — what is closed in itself can be read on its own.
* `Weave.Lit.verdict?_eq` — the two readings agree where no string runs over a line end.
* `Weave.Lit.endsWithSemicolon_eq_endsInSemicolon_iff` — where they agree for a program.
* `Weave.Lit.endsWithSemicolon_ne_endsInSemicolon` — a program for which they do not.
-/

namespace Weave

namespace Text

/-! ## The reading by lines -/

/-- The last character that is not blank. -/
def lastVisible? (t : Text) : Option Char :=
  t.reverse.find? fun c => !isBlank c

/-- What a row says: whether it ends in a semicolon, blanks and comments aside. -/
def rowVerdict? (row : Text) : Option Bool :=
  (lastVisible? (stripComment false false row)).map (· == ';')

/-- **What the last row says** that says anything. -/
def verdict? (t : Text) : Option Bool :=
  ((rows t).filterMap rowVerdict?).getLast?

/-- The last visible character stands at the end when blanks are trimmed away. -/
lemma lastVisible?_eq (t : Text) : lastVisible? t = t.trimEnd.getLast? := by
  rw [lastVisible?, List.find?_eq_head?_dropWhile_not, trimEnd, trimEndBy, List.getLast?_reverse]
  simp only [Bool.not_not]

/-- The last visible character of two texts is that of the second, if there is one. -/
lemma lastVisible?_append (a b : Text) :
    lastVisible? (a ++ b) = (lastVisible? b).or (lastVisible? a) := by
  rw [lastVisible?, List.reverse_append, List.find?_append]
  rfl

/-- A visible character in the second of two texts comes after all of the first. -/
lemma lastVisible?_append_of_some {b : Text} {c : Char} (h : lastVisible? b = some c) (a : Text) :
    lastVisible? (a ++ b) = some c := by
  rw [lastVisible?_append, h, Option.some_or]

/-- One more character makes no difference to what stands before a comment, or stays there. -/
lemma stripComment_concat (c : Char) (inString escaped : Bool) (t : Text) :
    stripComment inString escaped (t ++ [c]) = stripComment inString escaped t ∨
      stripComment inString escaped (t ++ [c]) = stripComment inString escaped t ++ [c] := by
  induction t generalizing inString escaped with
  | nil =>
    simp only [List.nil_append, stripComment]
    split_ifs <;> simp
  | cons d t ih =>
    have hkept (i e : Bool) := (ih i e).imp (congrArg (d :: ·)) (congrArg (d :: ·))
    simp only [List.cons_append, stripComment]
    split_ifs
    exacts [hkept _ _, hkept _ _, hkept _ _, .inl rfl, hkept _ _]

/-- A blank at the end of a row says nothing. -/
lemma rowVerdict?_concat_blank {c : Char} (hc : isBlank c = true) (row : Text) :
    rowVerdict? (row ++ [c]) = rowVerdict? row := by
  have hnone : lastVisible? [c] = none := by simp [lastVisible?, hc]
  rw [rowVerdict?, rowVerdict?]
  rcases stripComment_concat c false false row with h | h
  · rw [h]
  · rw [h, lastVisible?_append, hnone, Option.none_or]

end Text

/-- **The test of a code** is what its last row says that says anything.

**Proof sketch.** The test looks at the rows from the last one on, and stops at the first that has
something to say. A row says something if anything but blanks is left of it without its comment, and
then its last character decides. -/
theorem endsWithSemicolon_eq (code : Text) :
    endsWithSemicolon code = (Text.verdict? code).getD false := by
  have hlines : Text.verdict? code =
      (Text.lines code).reverse.findSome? Text.rowVerdict? := by
    rw [Text.verdict?, ← Text.filterMap_lines rfl (Text.rowVerdict?_concat_blank rfl),
      List.getLast?_filterMap]
  rw [hlines, endsWithSemicolon, ← List.map_reverse]
  generalize (Text.lines code).reverse = ls
  induction ls with
  | nil => rfl
  | cons l ls ih =>
    rw [List.map_cons, List.find?_cons, List.findSome?_cons, Text.rowVerdict?, Text.lastVisible?_eq]
    cases hbare : Text.trimEnd (stripComment false false l) using List.reverseRec with
    | nil => simpa using ih
    | append_singleton bare c _ =>
      have hends : Text.endsWith [';'] (bare ++ [c]) = (c == ';') := by
        by_cases hc : c = ';'
        · simp [hc, Text.endsWith, Text.stripSuffix?, Text.stripPrefix?]
        · simp [hc, Ne.symm hc, Text.endsWith, Text.stripSuffix?, Text.stripPrefix?]
      simp [hends]

namespace Text

/-! ## Closed texts -/

/-- **A text is closed in itself** if it stays within its row and no string or comment that begins
in it goes on after it. -/
def IsClosed (s : Text) : Prop :=
  '\n' ∉ s ∧ ∀ t, stripComment false false (s ++ t) = s ++ stripComment false false t

/-- What a row that begins with a closed text says is said by what follows, or else by the closed
text. -/
lemma rowVerdict?_append {s : Text} (hs : IsClosed s) (t : Text) :
    rowVerdict? (s ++ t) = (rowVerdict? t).or (rowVerdict? s) := by
  have hself : stripComment false false s = s := by simpa [stripComment] using hs.2 []
  rw [rowVerdict?, rowVerdict?, rowVerdict?, hs.2 t, hself, lastVisible?_append, Option.map_or]

/-- A row alone says what it says. -/
lemma verdict?_of_not_mem {a : Text} (ha : '\n' ∉ a) : verdict? a = rowVerdict? a := by
  rw [verdict?, rows_eq_singleton ha]
  cases h : rowVerdict? a <;> simp [h]

/-- **What follows a line feed decides**, unless it says nothing. -/
lemma verdict?_append_lineFeed (a b : Text) :
    verdict? (a ++ '\n' :: b) = (verdict? b).or (verdict? a) := by
  rw [verdict?, rows_append, List.filterMap_append, List.getLast?_append]
  rfl

/-- **What is closed in itself can be read on its own**: it says something only if what follows says
nothing. -/
theorem verdict?_append {s : Text} (hs : IsClosed s) (t : Text) :
    verdict? (s ++ t) = (verdict? t).or (rowVerdict? s) := by
  induction t using row_induction with
  | last a ha =>
    have hsa : '\n' ∉ s ++ a := by simp [hs.1, ha]
    rw [verdict?_of_not_mem hsa, verdict?_of_not_mem ha, rowVerdict?_append hs]
  | row a b ha =>
    have hsa : '\n' ∉ s ++ a := by simp [hs.1, ha]
    rw [← List.append_assoc, verdict?_append_lineFeed, verdict?_append_lineFeed,
      verdict?_of_not_mem hsa, verdict?_of_not_mem ha, rowVerdict?_append hs, Option.or_assoc]

/-- A line feed says nothing. -/
lemma verdict?_lineFeed (t : Text) : verdict? ('\n' :: t) = verdict? t := by
  have h := verdict?_append_lineFeed [] t
  rwa [List.nil_append, show verdict? [] = none from rfl, Option.or_none] at h

/-- A comment says nothing.

**Proof sketch.** All of the row is the comment, so nothing is left of it, and the rows after it
decide. -/
lemma verdict?_comment (t : Text) :
    verdict? ('#' :: t) = verdict? (t.dropWhile (· ≠ '\n')) := by
  have hrow : '\n' ∉ '#' :: t.takeWhile (· ≠ '\n') := by
    rw [List.mem_cons, not_or]
    exact ⟨by decide, fun h => by simpa using List.mem_takeWhile_imp h⟩
  have hnone : rowVerdict? ('#' :: t.takeWhile (· ≠ '\n')) = none := by
    simp [rowVerdict?, stripComment, lastVisible?]
  have hsplit : '#' :: t = '#' :: t.takeWhile (· ≠ '\n') ++ t.dropWhile (· ≠ '\n') := by
    rw [List.cons_append, List.takeWhile_append_dropWhile]
  rw [hsplit]
  cases hrest : t.dropWhile (· ≠ '\n') with
  | nil => rw [List.append_nil, verdict?_of_not_mem hrow, hnone]; rfl
  | cons c more =>
    have hc : c = '\n' := by
      have hhead := List.head?_dropWhile_not (· ≠ '\n') t
      rw [hrest] at hhead
      simpa using hhead
    rw [hc, verdict?_append_lineFeed, verdict?_of_not_mem hrow, hnone, Option.or_none,
      verdict?_lineFeed]

/-- A text without a quotation mark, a hash or a line feed is closed in itself. -/
lemma isClosed_of_forall {s : Text} (h : ∀ c ∈ s, c ∉ ['"', '#', '\n']) : IsClosed s := by
  refine ⟨fun hmem => h _ hmem (by decide), fun t => ?_⟩
  induction s with
  | nil => rfl
  | cons c s ih =>
    rw [List.forall_mem_cons] at h
    have hc := h.1
    simp only [List.mem_cons, List.not_mem_nil, or_false, not_or] at hc
    simp [stripComment, hc.1, hc.2.1, ih h.2]

end Text

namespace Lit

/-! ## Strings -/

/-- **The spelling of a string** is its closing quotation mark, with escapes and characters in front
that are neither quotation mark nor backslash.

**Proof sketch.** By the characters of the string, as `stringRest` reads them. A backslash without a
second character is no case, since the string would have no end. -/
lemma spelling_induction {motive : Text → Prop} (closing : motive ['"'])
    (escape : ∀ e s, motive s → motive ('\\' :: e :: s))
    (char : ∀ c s, c ≠ '"' → c ≠ '\\' → motive s → motive (c :: s)) {t : Text} {r : StringRest}
    (h : stringRest t = .ok r) : motive r.spelling := by
  fun_induction stringRest t generalizing r with
  | case1 => cases h
  | case2 t =>
    cases h
    exact closing
  | case3 e t c he ih =>
    cases hs : stringRest t with
    | error f => simp [hs, pushChar] at h
    | ok s =>
      simp only [hs, pushChar, Except.ok.injEq] at h
      exact h ▸ escape e _ (ih hs)
  | case4 => cases h
  | case5 c t hquote hescape ih =>
    cases hs : stringRest t with
    | error f => simp [hs, pushChar] at h
    | ok s =>
      simp only [hs, pushChar, Except.ok.injEq] at h
      -- A backslash with nothing after it is kept, but then the string has no end.
      have hbackslash : c ≠ '\\' := by
        rintro rfl
        cases t with
        | nil => cases hs
        | cons e t => exact hescape e t rfl rfl
      exact h ▸ char c _ (fun hc => hquote hc) hbackslash (ih hs)

/-- A string is read up to its end whichever way it is read. -/
lemma stripComment_spelling {t : Text} {r : StringRest} (h : stringRest t = .ok r) (more : Text) :
    stripComment true false (r.spelling ++ more) =
      r.spelling ++ stripComment false false more := by
  refine spelling_induction (motive := fun s =>
    stripComment true false (s ++ more) = s ++ stripComment false false more) ?_ ?_ ?_ h
  · simp [stripComment]
  · intro e s ih
    simp [stripComment, ih]
  · intro c s hquote hbackslash ih
    simp [stripComment, hquote, hbackslash, ih]

/-- **A string within a row** is closed in itself. -/
lemma isClosed_string {t : Text} {r : StringRest} (h : stringRest t = .ok r)
    (hrow : '\n' ∉ r.spelling) : Text.IsClosed ('"' :: r.spelling) := by
  refine ⟨by simp [hrow], fun more => ?_⟩
  simp [stripComment, stripComment_spelling h]

/-- A string does not say that the code ends in a semicolon. -/
lemma rowVerdict?_string {t : Text} {r : StringRest} (h : stringRest t = .ok r)
    (hrow : '\n' ∉ r.spelling) : Text.rowVerdict? ('"' :: r.spelling) = some false := by
  have hstrip := (isClosed_string h hrow).2 []
  have hlast : Text.lastVisible? r.spelling = some '"' := by
    refine spelling_induction (motive := fun s => Text.lastVisible? s = some '"') rfl ?_ ?_ h
    · exact fun e s ih => Text.lastVisible?_append_of_some ih ['\\', e]
    · exact fun c s _ _ ih => Text.lastVisible?_append_of_some ih [c]
  rw [List.append_nil, stripComment, List.append_nil] at hstrip
  rw [Text.rowVerdict?, hstrip, ← List.singleton_append, Text.lastVisible?_append_of_some hlast]
  rfl

/-! ## Words and semicolons -/

/-- A word within a row is closed in itself, and does not say that the code ends in a semicolon. -/
lemma rowVerdict?_word {c : Char} {more : Text} (hc : isBlank c = false)
    (hmarks : ∀ d ∈ c :: more, d ∉ marks) :
    Text.IsClosed (c :: more) ∧ Text.rowVerdict? (c :: more) = some false := by
  have hclosed : Text.IsClosed (c :: more) := by
    refine Text.isClosed_of_forall fun d hd hmem => hmarks d hd ?_
    simp only [marks, List.mem_cons, List.not_mem_nil, or_false] at hmem ⊢
    tauto
  refine ⟨hclosed, ?_⟩
  have hstrip : stripComment false false (c :: more) = c :: more := by
    simpa [stripComment] using hclosed.2 []
  rw [Text.rowVerdict?, hstrip]
  have hvisible : (Text.lastVisible? (c :: more)).isSome := by
    rw [Text.lastVisible?, List.find?_isSome]
    exact ⟨c, by simp, by simp [hc]⟩
  obtain ⟨d, hd⟩ := Option.isSome_iff_exists.1 hvisible
  have hmem : d ∈ c :: more := List.mem_reverse.1 (List.mem_of_find?_eq_some hd)
  have hsemicolon : d ≠ ';' := fun h => hmarks d hmem (by simp [h, marks])
  simp [hd, hsemicolon]

/-! ## The reading by lexemes -/

/-- Whether a token is the end of a statement that is written as a line feed. -/
def Placed.isLineEnd (code : Text) (p : Placed) : Bool :=
  p.token.isSeparator && p.span.spelling code == ['\n']

/-- Whether a token is the end of a statement that is written as a semicolon. -/
def Placed.isSemicolon (code : Text) (p : Placed) : Bool :=
  p.token.isSeparator && p.span.spelling code == [';']

/-- Whether a token is a string that runs over a line end. -/
def Placed.isLong (code : Text) (p : Placed) : Bool :=
  match p.token with
  | .string _ => decide ('\n' ∈ p.span.spelling code)
  | _ => false

/-- **Whether the last token** but line ends is a semicolon. -/
def endsInSemicolon (code : Text) (ts : List Placed) : Bool :=
  match (ts.filter fun p => !p.isLineEnd code).getLast? with
  | some p => p.isSemicolon code
  | none => false

/-- **The code after the last string** that runs over a line end. -/
def afterLongStrings (code : Text) (ts : List Placed) : Text :=
  match ts.reverse.find? (·.isLong code) with
  | some p => Text.dropBytes p.span.stop code
  | none => code

/-- What a token says: whether it is a semicolon, unless it is a line end. -/
def tokenVerdict? (code : Text) (p : Placed) : Option Bool :=
  if p.isLineEnd code then none else some (p.isSemicolon code)

/-- A string that runs over a line end does not say that the code ends in a semicolon. -/
lemma tokenVerdict?_of_isLong {code : Text} {p : Placed} (h : p.isLong code = true) :
    tokenVerdict? code p = some false := by
  unfold Placed.isLong at h
  split at h
  next t htoken =>
    simp [tokenVerdict?, Placed.isLineEnd, Placed.isSemicolon, htoken, Token.isSeparator]
  next => cases h

/-- What the last token says that says anything. -/
def tokensVerdict? (code : Text) (ts : List Placed) : Option Bool :=
  (ts.filterMap (tokenVerdict? code)).getLast?

/-- What the tokens after say counts, unless they say nothing. -/
lemma tokensVerdict?_append (code : Text) (ts ts' : List Placed) :
    tokensVerdict? code (ts ++ ts') = (tokensVerdict? code ts').or (tokensVerdict? code ts) := by
  rw [tokensVerdict?, List.filterMap_append, List.getLast?_append]
  rfl

/-- A token alone says what it says. -/
lemma tokensVerdict?_singleton (code : Text) (p : Placed) :
    tokensVerdict? code [p] = tokenVerdict? code p := by
  rw [tokensVerdict?]
  cases h : tokenVerdict? code p <;> simp [h]

/-- What the first token says counts if none of the other ones says anything. -/
lemma tokensVerdict?_cons (code : Text) (p : Placed) (ts : List Placed) :
    tokensVerdict? code (p :: ts) = (tokensVerdict? code ts).or (tokenVerdict? code p) := by
  rw [← List.singleton_append, tokensVerdict?_append, tokensVerdict?_singleton]

/-- The last token but line ends is the last one that says anything. -/
lemma endsInSemicolon_eq (code : Text) (ts : List Placed) :
    endsInSemicolon code ts = (tokensVerdict? code ts).getD false := by
  have hverdict : tokensVerdict? code ts =
      (ts.filter fun p => !p.isLineEnd code).getLast?.map (·.isSemicolon code) := by
    rw [tokensVerdict?, ← List.getLast?_map]
    congr 1
    induction ts with
    | nil => rfl
    | cons p ts ih => cases h : p.isLineEnd code <;> simp [tokenVerdict?, h, ih]
  rw [hverdict, endsInSemicolon]
  cases (ts.filter fun p => !p.isLineEnd code).getLast? <;> rfl

/-- A space says nothing. -/
lemma verdict?_space {c : Char} (hc : isSpace c = true) (t : Text) :
    Text.verdict? (c :: t) = Text.verdict? t := by
  have hspace : isBlank c = true ∧ c ∉ ['"', '#', '\n'] := by
    simp only [isSpace, Bool.or_eq_true, beq_iff_eq, or_assoc] at hc
    rcases hc with rfl | rfl | rfl <;> decide
  have hclosed : Text.IsClosed [c] := Text.isClosed_of_forall (by simpa using hspace.2)
  have hstrip : stripComment false false [c] = [c] := hclosed.2 []
  have hnone : Text.rowVerdict? [c] = none := by
    simp [Text.rowVerdict?, hstrip, Text.lastVisible?, hspace.1]
  have happend := Text.verdict?_append hclosed t
  rwa [hnone, Option.or_none] at happend

/-- What is read without giving a token says nothing. -/
lemma verdict?_of_silent {depth : Nat} {s : Scanned} (hform : Form s)
    (hk : s.lexeme.token? depth = none) :
    Text.verdict? (s.spelling ++ s.rest) = Text.verdict? s.rest := by
  cases hform with
  | space c rest hc => exact verdict?_space hc rest
  | lineFeed rest => exact Text.verdict?_lineFeed rest
  | comment t =>
    simp only [List.cons_append, List.takeWhile_append_dropWhile]
    exact Text.verdict?_comment t
  | string t r hr => cases hk
  | semicolon rest => cases hk
  | word k c more rest hc hmarks => cases hk

/-- **A token says what its spelling says**, if it is no string that runs over a line end.

**Proof sketch.** By the form of what is read. A line feed says nothing. A semicolon, a word and a
string within its line are closed in themselves, so what follows them decides unless it says nothing
(`Text.verdict?_append`). -/
lemma verdict?_of_given {depth : Nat} {s : Scanned} {p : Placed} (hform : Form s)
    (hk : s.lexeme.token? depth = some p.token) {code : Text}
    (hspelling : p.span.spelling code = s.spelling) (hshort : p.isLong code = false) :
    Text.verdict? (s.spelling ++ s.rest) = (Text.verdict? s.rest).or (tokenVerdict? code p) := by
  rw [tokenVerdict?, Placed.isLineEnd, Placed.isSemicolon, hspelling]
  rw [Placed.isLong, hspelling] at hshort
  cases hform with
  | space c rest hc => cases hk
  | lineFeed rest =>
    have htoken : Token.separator = p.token := by
      simp only [Lexeme.token?] at hk
      split at hk
      · cases hk
      · exact Option.some.inj hk
    rw [← htoken]
    exact (Text.verdict?_lineFeed rest).trans (Option.or_none).symm
  | comment t => cases hk
  | string t r hr =>
    have htoken : Token.string r.text = p.token := Option.some.inj hk
    rw [← htoken] at hshort ⊢
    have hrow : '\n' ∉ r.spelling := by simpa using hshort
    rw [Text.verdict?_append (isClosed_string hr hrow), rowVerdict?_string hr hrow]
    rfl
  | semicolon rest =>
    have htoken : Token.separator = p.token := Option.some.inj hk
    have hclosed : Text.IsClosed [';'] := Text.isClosed_of_forall (by simp)
    rw [← htoken, Text.verdict?_append hclosed]
    rfl
  | word k c more rest hc hmarks =>
    obtain ⟨hclosed, hverdict⟩ := rowVerdict?_word hc hmarks
    have hmark := hmarks c List.mem_cons_self
    have hlineFeed : (c == '\n') = false :=
      beq_eq_false_iff_ne.2 fun h => hmark (by simp [h, marks])
    have hsemicolon : (c == ';') = false :=
      beq_eq_false_iff_ne.2 fun h => hmark (by simp [h, marks])
    rw [Text.verdict?_append hclosed, hverdict]
    simp [hlineFeed, hsemicolon]

/-- **The two readings agree** where no string runs over a line end.

**Proof sketch.** By what is read at the front of the code. It is closed in itself, so the code
after it decides, unless this says nothing. -/
theorem verdict?_eq {depth : Nat} {before t : Text} {ts : List Placed}
    (h : Lexed depth before t ts) (hshort : ∀ p ∈ ts, p.isLong (before ++ t) = false) :
    Text.verdict? t = tokensVerdict? (before ++ t) ts := by
  induction h with
  | nil => rfl
  | @skip depth before t c s ts hs hk hrest ih =>
    have happ := (scan_eq_append hs).1
    have hcode : before ++ c :: t = before ++ s.spelling ++ s.rest := by
      rw [happ, List.append_assoc]
    rw [hcode] at hshort ⊢
    rw [← ih hshort, happ]
    exact verdict?_of_silent (form_of_scan hs) hk
  | @token depth before t c s k ts hs hk hrest ih =>
    have happ := (scan_eq_append hs).1
    have hcode : before ++ c :: t = before ++ s.spelling ++ s.rest := by
      rw [happ, List.append_assoc]
    have hspelling := spelling_append before s.spelling s.rest
    rw [← List.append_assoc] at hspelling
    rw [hcode, List.forall_mem_cons] at hshort
    rw [hcode, tokensVerdict?_cons, ← ih hshort.2, happ]
    exact verdict?_of_given (form_of_scan hs) hk hspelling hshort.1

/-- **What is left after the last string** that runs over a line end: the end of the code, whose
tokens are the last ones and hold no such string. The tokens before do not end in a semicolon.

**Proof sketch.** The last such string is found from the end of the tokens, and the tokens are split
there (`Lexed.split`). A string is no semicolon, so the tokens up to it do not end in one. Without
such a string nothing is dropped. -/
lemma afterLongStrings_spec {code : Text} {ts : List Placed} (h : tokenize code = .ok ts) :
    ∃ depth read ts₁ ts₂, code = read ++ afterLongStrings code ts ∧ ts = ts₁ ++ ts₂ ∧
      Lexed depth read (afterLongStrings code ts) ts₂ ∧ (∀ p ∈ ts₂, p.isLong code = false) ∧
      (tokensVerdict? code ts₁).getD false = false := by
  have hlexed : Lexed 0 [] code ts := lexed_of_tokensFrom h
  rw [afterLongStrings]
  split
  next p hp =>
    obtain ⟨hlong, as, bs, hts, hshort⟩ := List.find?_eq_some_iff_append.1 hp
    have hsplit : ts = bs.reverse ++ p :: as.reverse := by
      simpa using congrArg List.reverse hts
    rw [hsplit] at hlexed
    obtain ⟨depth, read, rest, hcode, hstop, hrest⟩ := hlexed.split
    rw [List.nil_append] at hstop hrest
    have hdrop : Text.dropBytes p.span.stop code = rest := by
      rw [hstop, hcode, Text.dropBytes_append]
    rw [hdrop]
    refine ⟨depth, read, bs.reverse ++ [p], as.reverse, hcode, ?_, hrest, fun q hq => ?_, ?_⟩
    · rw [hsplit, List.append_assoc, List.singleton_append]
    · simpa using hshort q (List.mem_reverse.1 hq)
    · rw [tokensVerdict?_append, tokensVerdict?_singleton, tokenVerdict?_of_isLong hlong]
      rfl
  next hnone =>
    rw [List.find?_eq_none] at hnone
    exact ⟨0, [], [], ts, rfl, rfl, hlexed,
      fun p hp => by simpa using hnone p (List.mem_reverse.2 hp), rfl⟩

/-- **The reading by lines is right** about the code after the last string that runs over a line
end. -/
theorem endsWithSemicolon_afterLongStrings {code : Text} {ts : List Placed}
    (h : tokenize code = .ok ts) :
    endsWithSemicolon (afterLongStrings code ts) = endsInSemicolon code ts := by
  obtain ⟨depth, read, ts₁, ts₂, hcode, hts, hlexed, hshort, hbefore⟩ := afterLongStrings_spec h
  have hagree := verdict?_eq hlexed (by rwa [← hcode])
  rw [← hcode] at hagree
  rw [endsWithSemicolon_eq, endsInSemicolon_eq, hagree]
  conv_rhs => rw [hts, tokensVerdict?_append]
  cases tokensVerdict? code ts₂ with
  | none => exact hbefore.symm
  | some v => rfl

/-- **Where the two readings agree** for a program: where the last string that runs over a line end,
and what comes before it, make no difference to the reading by lines. So it is if there is no such
string, and if code stands on a line after the one on which it ends.

**Proof sketch.** What is left after the last string over a line end is read alike in both ways
(`endsWithSemicolon_afterLongStrings`), so the two agree exactly if the reading by lines does not
change when the part before it is dropped. Without such a string nothing is dropped; and a later
line that says something decides for all of the code. -/
theorem endsWithSemicolon_eq_endsInSemicolon_iff {code : Text} {program : Program}
    (h : parse code = .ok program) :
    ∃ ts, tokenize code = .ok ts ∧
      endsInSemicolon code ts = endsWithSemicolon (afterLongStrings code ts) ∧
      (endsWithSemicolon code = endsInSemicolon code ts ↔
        endsWithSemicolon code = endsWithSemicolon (afterLongStrings code ts)) ∧
      ((∀ p ∈ ts, p.isLong code = false) → endsWithSemicolon code = endsInSemicolon code ts) ∧
      (∀ a b, afterLongStrings code ts = a ++ '\n' :: b → (Text.verdict? b).isSome →
        endsWithSemicolon code = endsInSemicolon code ts) := by
  unfold parse at h
  split at h
  next => cases h
  next ts hts =>
    have hafter := endsWithSemicolon_afterLongStrings hts
    refine ⟨ts, hts, hafter.symm, by rw [hafter], fun hshort => ?_, fun a b hlater hcode => ?_⟩
    · have hnone : ts.reverse.find? (·.isLong code) = none := by
        rw [List.find?_eq_none]
        exact fun p hp => by simp [hshort p (List.mem_reverse.1 hp)]
      rw [afterLongStrings, hnone] at hafter
      exact hafter
    · obtain ⟨-, read, -, -, hread, -⟩ := afterLongStrings_spec hts
      obtain ⟨v, hv⟩ := Option.isSome_iff_exists.1 hcode
      rw [hlater, ← List.append_assoc] at hread
      rw [← hafter, hlater, endsWithSemicolon_eq, endsWithSemicolon_eq,
        Text.verdict?_append_lineFeed, hv]
      conv_lhs => rw [hread]
      rw [Text.verdict?_append_lineFeed, hv]
      rfl

/-- A string runs over a line end, and code stands on the line after it. -/
theorem endsWithSemicolon_eq_endsInSemicolon_string :
    ∃ program, parse "s = \"a\n# b\"\ns; # c".toList = .ok program ∧
      ∃ ts, tokenize "s = \"a\n# b\"\ns; # c".toList = .ok ts ∧
        endsWithSemicolon "s = \"a\n# b\"\ns; # c".toList =
          endsInSemicolon "s = \"a\n# b\"\ns; # c".toList ts := by
  have hparse : parse "s = \"a\n# b\"\ns; # c".toList =
      .ok [.assign ⟨0, 11⟩ "s".toList (.string ⟨4, 11⟩ "a\n# b".toList),
        .expression (.ident ⟨12, 13⟩ "s".toList)] := by cbv
  have htokens : tokenize "s = \"a\n# b\"\ns; # c".toList =
      .ok [⟨.ident "s".toList, 0, 1⟩, ⟨.eq, 2, 3⟩, ⟨.string "a\n# b".toList, 4, 11⟩,
        ⟨.separator, 11, 12⟩, ⟨.ident "s".toList, 12, 13⟩, ⟨.separator, 13, 14⟩] := by cbv
  obtain ⟨ts, hts, -, -, -, hlater⟩ := endsWithSemicolon_eq_endsInSemicolon_iff hparse
  refine ⟨_, hparse, ts, hts, ?_⟩
  cases hts.symm.trans htokens
  exact hlater [] "s; # c".toList (by decide) (by decide)

/-- A comment after a string over two lines is taken for a part of the string, and a semicolon in it
for the end of the code. -/
theorem endsWithSemicolon_ne_endsInSemicolon :
    ∃ program ts, parse "\"a\nb\" # c;".toList = .ok program ∧
      tokenize "\"a\nb\" # c;".toList = .ok ts ∧
      endsWithSemicolon "\"a\nb\" # c;".toList ≠ endsInSemicolon "\"a\nb\" # c;".toList ts := by
  refine ⟨[.expression (.string ⟨0, 5⟩ "a\nb".toList)], [⟨.string "a\nb".toList, 0, 5⟩], ?_, ?_, ?_⟩
  · cbv
  · cbv
  · decide

end Lit

end Weave
