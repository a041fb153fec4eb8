import Mathlib.Data.List.TakeWhile
import Weave.Lit.Lexer
import Weave.Text.Blank

set_option autoImplicit false
set_option relaxedAutoImplicit false

/-!
# Spellings

A token comes from a stretch of code, and the characters of this stretch spell it. What is read at
the front of a code is one of a few forms, so each spelling is of one of these forms too.

## Main definitions

* `Weave.Lit.Span.spelling` — the characters of a stretch of code.
* `Weave.Lit.Lexed` — the tokens of the rest of a code, as a relation.
* `Weave.Lit.Form` — the forms of what is read at the front of a code.

## Main results

* `Weave.Lit.lexed_of_tokensFrom` — the tokens of a code are in the relation.
* `Weave.Lit.Lexed.split` — what stands after a token is lexed too.
* `Weave.Lit.form_of_scan` — what is read is of one of the forms.

## Design

The relation keeps the code that has been read, so the offset of a token is the size of what is
before it, and no proof by induction has to carry offsets along.
-/

namespace Weave

namespace Text

/-- The text after its first `n` bytes. -/
def dropBytes : Nat → Text → Text
  | 0, t => t
  | _ + 1, [] => []
  | n + 1, c :: t => dropBytes (n + 1 - c.utf8Size) t

/-- The first `n` bytes of a text. -/
def takeBytes : Nat → Text → Text
  | 0, _ => []
  | _ + 1, [] => []
  | n + 1, c :: t => c :: takeBytes (n + 1 - c.utf8Size) t

/-- The sizes of two texts add up. -/
lemma byteSize_append (a b : Text) : byteSize (a ++ b) = byteSize a + byteSize b := by
  induction a with
  | nil => exact (Nat.zero_add _).symm
  | cons c a ih =>
    rw [List.cons_append, byteSize, byteSize, ih, Nat.add_assoc]

/-- A character takes a byte and what is left of its size. -/
lemma byteSize_cons (c : Char) (t : Text) :
    ∃ n, byteSize (c :: t) = n + 1 ∧ n + 1 - c.utf8Size = byteSize t := by
  have hpos := c.utf8Size_pos
  refine ⟨c.utf8Size + byteSize t - 1, ?_, ?_⟩
  · rw [byteSize]
    omega
  · omega

/-- **The bytes of a text** can be dropped from in front of another. -/
lemma dropBytes_append (a b : Text) : dropBytes (byteSize a) (a ++ b) = b := by
  induction a with
  | nil => cases b <;> rfl
  | cons c a ih =>
    obtain ⟨n, hn, hrest⟩ := byteSize_cons c a
    rw [hn, List.cons_append, dropBytes, hrest, ih]

/-- **The bytes of a text** can be taken from in front of another. -/
lemma takeBytes_append (a b : Text) : takeBytes (byteSize a) (a ++ b) = a := by
  induction a with
  | nil => cases b <;> rfl
  | cons c a ih =>
    obtain ⟨n, hn, hrest⟩ := byteSize_cons c a
    rw [hn, List.cons_append, takeBytes, hrest, ih]

end Text

namespace Lit

/-- **The characters of a stretch** of code. -/
def Span.spelling (code : Text) (span : Span) : Text :=
  Text.takeBytes (span.stop - span.start) (Text.dropBytes span.start code)

/-- The stretch that follows a text holds what follows the text. -/
lemma spelling_append (before spelling rest : Text) :
    Span.spelling (before ++ (spelling ++ rest))
      ⟨Text.byteSize before, Text.byteSize before + Text.byteSize spelling⟩ = spelling := by
  simp only [Span.spelling]
  rw [Text.dropBytes_append, Nat.add_sub_cancel_left, Text.takeBytes_append]

/-! ## Lexed code -/

/-- **The tokens of the rest of a code**, `before` being what has been read, at a depth in
parentheses. -/
inductive Lexed : Nat → Text → Text → List Placed → Prop where
  | nil (depth : Nat) (before : Text) : Lexed depth before [] []
  | skip {depth : Nat} {before t : Text} {c : Char} {s : Scanned} {ts : List Placed}
      (scanned : scan c t = .ok s) (silent : s.lexeme.token? depth = none)
      (rest : Lexed depth (before ++ s.spelling) s.rest ts) : Lexed depth before (c :: t) ts
  | token {depth : Nat} {before t : Text} {c : Char} {s : Scanned} {k : Token} {ts : List Placed}
      (scanned : scan c t = .ok s) (given : s.lexeme.token? depth = some k)
      (rest : Lexed (depthAfter depth k) (before ++ s.spelling) s.rest ts) :
      Lexed depth before (c :: t)
        (⟨k, Text.byteSize before, Text.byteSize before + Text.byteSize s.spelling⟩ :: ts)

/-- **The tokens of a code** are in the relation.

**Proof sketch.** Strong induction on the length of the code. What is read at its front is not
empty, so the rest is shorter. -/
theorem lexed_of_tokensFrom {depth : Nat} {before t : Text} {ts : List Placed}
    (h : tokensFrom depth (Text.byteSize before) t = .ok ts) : Lexed depth before t ts := by
  induction hn : t.length using Nat.strongRecOn generalizing depth before t ts with
  | ind n ih =>
    cases t with
    | nil =>
      rw [tokensFrom, Except.ok.injEq] at h
      exact h ▸ .nil depth before
    | cons c t =>
      rw [tokensFrom] at h
      split at h
      next => cases h
      next s hs =>
        have hlt : s.rest.length < n := hn ▸ length_scan hs
        simp only [← Text.byteSize_append] at h
        split at h
        next hk => exact .skip hs hk (ih _ hlt h rfl)
        next k hk =>
          split at h
          next => cases h
          next ts' hts =>
            cases h
            rw [Text.byteSize_append]
            exact .token hs hk (ih _ hlt hts rfl)

/-- **Code stands after a token**: the code is what is read up to the end of the token and a rest,
and the tokens of the rest are those that come after the token. -/
def LexedAfter (before t : Text) (p : Placed) (ts : List Placed) : Prop :=
  ∃ depth read rest, t = read ++ rest ∧ p.span.stop = Text.byteSize (before ++ read) ∧
    Lexed depth (before ++ read) rest ts

/-- What stands after a token does so too when one more lexeme is read before it. -/
lemma LexedAfter.scanned {before t : Text} {c : Char} {s : Scanned} {p : Placed} {ts : List Placed}
    (hs : scan c t = .ok s) (h : LexedAfter (before ++ s.spelling) s.rest p ts) :
    LexedAfter before (c :: t) p ts := by
  obtain ⟨depth, read, rest, happ, hstop, hlexed⟩ := h
  refine ⟨depth, s.spelling ++ read, rest, ?_, ?_, ?_⟩
  · rw [(scan_eq_append hs).1, happ, List.append_assoc]
  · rw [hstop, List.append_assoc]
  · rwa [← List.append_assoc]

/-- **The tokens after a token** are those of the code after it. -/
theorem Lexed.split {depth : Nat} {before t : Text} {p : Placed} {ts₁ ts₂ : List Placed}
    (h : Lexed depth before t (ts₁ ++ p :: ts₂)) : LexedAfter before t p ts₂ := by
  generalize hts : ts₁ ++ p :: ts₂ = ts at h
  induction h generalizing ts₁ with
  | nil => simp at hts
  | skip hs hk hrest ih => exact (ih hts).scanned hs
  | token hs hk hrest ih =>
    cases ts₁ with
    | nil =>
      cases hts
      exact ⟨_, _, _, (scan_eq_append hs).1, (Text.byteSize_append _ _).symm, hrest⟩
    | cons q ts₁ => exact (ih (List.cons.inj hts).2).scanned hs

/-! ## Forms -/

/-- The characters that begin or end a string, a comment, a line or a statement. -/
def marks : List Char :=
  ['"', '#', '\n', ';']

/-- **The forms of what is read** at the front of a code. -/
inductive Form : Scanned → Prop where
  | space (c : Char) (rest : Text) (hc : isSpace c = true) : Form ⟨.blank, [c], rest⟩
  | lineFeed (rest : Text) : Form ⟨.lineFeed, ['\n'], rest⟩
  | comment (t : Text) :
      Form ⟨.blank, '#' :: t.takeWhile (· ≠ '\n'), t.dropWhile (· ≠ '\n')⟩
  | string (t : Text) (r : StringRest) (hr : stringRest t = .ok r) :
      Form ⟨.token (.string r.text), '"' :: r.spelling, r.rest⟩
  | semicolon (rest : Text) : Form ⟨.token .separator, [';'], rest⟩
  | word (k : Token) (c : Char) (more rest : Text) (hc : isBlank c = false)
      (hmarks : ∀ d ∈ c :: more, d ∉ marks) : Form ⟨.token k, c :: more, rest⟩

/-- Whether no character of a word is a mark, and its first character is not blank. -/
lemma form_of_oneChar {c : Char} {k : Token} {t : Text} {s : Scanned} (hc : isBlank c = false)
    (hmark : c ∉ marks) (h : oneChar c (.token k) t = .ok s) : Form s := by
  cases h
  exact .word k c [] t hc (by simpa using hmark)

/-- A symbol of one character or of two is a word. -/
lemma form_of_oneOrTwo {c d : Char} {a b : Token} {t : Text} {s : Scanned}
    (hc : isBlank c = false) (hmark : c ∉ marks) (hd : d ∉ marks)
    (h : oneOrTwo c d a b t = .ok s) : Form s := by
  unfold oneOrTwo at h
  split at h
  next e rest =>
    split at h
    next he =>
      cases h
      exact .word b c [e] rest hc (by simpa [he] using ⟨hmark, hd⟩)
    next => exact form_of_oneChar hc hmark h
  next => exact form_of_oneChar hc hmark h

/-- A doubled symbol is a word. -/
lemma form_of_doubled {c : Char} {k : Token} {t : Text} {s : Scanned} (hc : isBlank c = false)
    (hmark : c ∉ marks) (h : doubled c k t = .ok s) : Form s := by
  unfold doubled at h
  split at h
  next e rest =>
    split at h
    next he =>
      cases h
      exact .word k c [e] rest hc (by simpa [he] using hmark)
    next => cases h
  next => cases h

/-- A symbol is a semicolon or a word. -/
lemma form_of_scanSymbol {c : Char} {t : Text} {s : Scanned} (h : scanSymbol c t = .ok s) :
    Form s := by
  unfold scanSymbol at h
  split at h
  case h_5 => exact form_of_doubled (by decide) (by decide) h
  case h_6 => exact form_of_doubled (by decide) (by decide) h
  case h_8 =>
    split at h
    next k hk =>
      unfold plainToken? at hk
      split at hk
      case h_1 =>
        cases hk
        cases h
        exact .semicolon t
      case h_11 => cases hk
      all_goals exact form_of_oneChar (by decide) (by decide) h
    next => cases h
  all_goals exact form_of_oneOrTwo (by decide) (by decide) (by decide) h

/-- A digit is not blank. -/
lemma isBlank_of_isDigit {c : Char} (h : isDigit c = true) : isBlank c = false := by
  simp only [isDigit, Bool.and_eq_true, decide_eq_true_eq, Char.le_def,
    UInt32.le_iff_toNat_le] at h
  have hlow : 48 ≤ c.toNat := h.1
  have hhigh : c.toNat ≤ 57 := h.2
  simp only [isBlank, Bool.or_eq_false_iff, Bool.and_eq_false_iff, beq_eq_false_iff_ne,
    decide_eq_false_iff_not]
  omega

/-- The first character of a name is not blank. -/
lemma isBlank_of_isNameStart {c : Char} (h : isNameStart c = true) : isBlank c = false := by
  have hc : 65 ≤ c.toNat ∧ c.toNat ≤ 122 := by
    simp only [isNameStart, Bool.or_eq_true, Bool.and_eq_true, decide_eq_true_eq, beq_iff_eq,
      Char.le_def, UInt32.le_iff_toNat_le] at h
    rcases h with (h | h) | rfl
    · have hlow : 97 ≤ c.toNat := h.1
      have hhigh : c.toNat ≤ 122 := h.2
      omega
    · have hlow : 65 ≤ c.toNat := h.1
      have hhigh : c.toNat ≤ 90 := h.2
      omega
    · decide
  simp only [isBlank, Bool.or_eq_false_iff, Bool.and_eq_false_iff, beq_eq_false_iff_ne,
    decide_eq_false_iff_not]
  omega

/-- A character of a class without marks is no mark. -/
lemma not_mem_marks {p : Char → Bool} (hp : marks.any p = false) {c : Char} (hc : p c = true) :
    c ∉ marks :=
  fun hmem => List.any_eq_false.1 hp c hmem hc

/-- **A word that goes on by a class** of characters, none of which is a mark. -/
lemma form_of_takeWhile {p : Char → Bool} (hp : marks.any p = false) {c : Char}
    (hc : isBlank c = false) (hmark : c ∉ marks) (k : Token) (t : Text) :
    Form ⟨.token k, c :: t.takeWhile p, t.dropWhile p⟩ := by
  refine .word k c _ _ hc fun d hd => ?_
  rcases List.mem_cons.1 hd with rfl | hd
  · exact hmark
  · exact not_mem_marks hp (List.mem_takeWhile_imp hd)

/-- A number is a word. -/
lemma form_of_scanNumber {c : Char} {t : Text} {s : Scanned} (hc : isDigit c = true)
    (h : scanNumber c t = .ok s) : Form s := by
  have hstart : marks.any isDigit = false := by decide
  have hclass : marks.any isNumberChar = false := by decide
  unfold scanNumber at h
  dsimp only at h
  split at h
  next x hx =>
    cases h
    exact form_of_takeWhile hclass (isBlank_of_isDigit hc) (not_mem_marks hstart hc) (.number x) t
  next => cases h

/-- A name is a word. -/
lemma form_of_scanName {c : Char} {t : Text} {s : Scanned} (hc : isNameStart c = true)
    (h : scanName c t = .ok s) : Form s := by
  have hstart : marks.any isNameStart = false := by decide
  have hclass : marks.any isNameChar = false := by decide
  cases h
  exact form_of_takeWhile hclass (isBlank_of_isNameStart hc) (not_mem_marks hstart hc) _ t

/-- **What is read is of one of the forms.**

**Proof sketch.** By the tests of `scan`, in their order: each begins one of the forms. -/
theorem form_of_scan {c : Char} {t : Text} {s : Scanned} (h : scan c t = .ok s) : Form s := by
  unfold scan at h
  split at h
  next hc =>
    cases h
    exact .space c t hc
  split at h
  next hc =>
    cases h
    exact hc ▸ .lineFeed t
  split at h
  next hc =>
    cases h
    exact hc ▸ .comment t
  split at h
  next hc =>
    unfold scanString at h
    split at h
    next r hr =>
      cases h
      exact .string t r hr
    next => cases h
    next => cases h
  split at h
  next hc => exact form_of_scanNumber hc h
  split at h
  next hc => exact form_of_scanName hc h
  next => exact form_of_scanSymbol h

end Lit

end Weave
