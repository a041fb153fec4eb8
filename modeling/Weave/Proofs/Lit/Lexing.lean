import Mathlib.Tactic.SplitIfs
import Weave.Proofs.Lit.Offsets
import Weave.Proofs.Lit.Spelling

set_option autoImplicit false
set_option relaxedAutoImplicit false

/-!
# Lexing code part by part

A lexeme is as long as the characters after it allow. So a code can be lexed in two parts wherever
no lexeme of the first part would have gone on with the first character of the second.

## Main definitions

* `Weave.Lit.Lexeme.continues` — whether a character could be a part of the lexeme before it.

## Main results

* `Weave.Lit.tokensFrom_eq_ok_iff` — the tokens of a code are those in the relation.
* `Weave.Lit.scan_append` — what is read does not depend on what stands after its end.
* `Weave.Lit.Lexed.append` — lexing a code in two parts.
* `Weave.Lit.Lexed.moved` — code that is moved has the same tokens at other offsets.
-/

namespace Weave.Lit

/-! ## The relation and the lexer -/

/-- What is in the relation is what the lexer gives. -/
lemma Lexed.tokensFrom_eq {depth : Nat} {before t : Text} {ts : List Placed}
    (h : Lexed depth before t ts) : tokensFrom depth (Text.byteSize before) t = .ok ts := by
  induction h with
  | nil => rw [tokensFrom]
  | skip hs hk _ ih =>
    rw [tokensFrom]
    split
    next f hf => cases hs.symm.trans hf
    next s hs' =>
      cases hs.symm.trans hs'
      simp only [hk, ← Text.byteSize_append, ih]
  | token hs hk _ ih =>
    rw [tokensFrom]
    split
    next f hf => cases hs.symm.trans hf
    next s hs' =>
      cases hs.symm.trans hs'
      simp only [hk, ← Text.byteSize_append, ih]

/-- **The tokens of a code** are those in the relation. -/
theorem tokensFrom_eq_ok_iff {depth : Nat} {before t : Text} {ts : List Placed} :
    tokensFrom depth (Text.byteSize before) t = .ok ts ↔ Lexed depth before t ts :=
  ⟨lexed_of_tokensFrom, Lexed.tokensFrom_eq⟩

/-- The tokens of a whole code. -/
lemma tokenize_eq_ok_iff {code : Text} {ts : List Placed} :
    tokenize code = .ok ts ↔ Lexed 0 [] code ts := by
  rw [← tokensFrom_eq_ok_iff]
  rfl

/-- **Code that is moved** behind another has the same tokens at other offsets. -/
theorem Lexed.moved {depth : Nat} {before t : Text} {ts : List Placed} (h : Lexed depth before t ts)
    (new : Text) : Lexed depth (new ++ before) t
      (ts.map (Placed.mapOffsets (· + Text.byteSize new))) := by
  induction h with
  | nil => exact .nil _ _
  | skip hs hk _ ih =>
    rw [← List.append_assoc] at ih
    exact .skip hs hk ih
  | @token depth before t c s k ts hs hk _ ih =>
    rw [← List.append_assoc] at ih
    have htoken := Lexed.token hs hk ih
    rw [Text.byteSize_append, Nat.add_comm (Text.byteSize new), Nat.add_right_comm] at htoken
    exact htoken

/-! ## The end of a lexeme -/

/-- Whether a character could be a part of the token before it. -/
def Token.continues : Token → Char → Bool
  | .number _, c => isNumberChar c
  | .ident _, c | .true, c | .false, c => isNameChar c
  | .eq, c | .bang, c | .gt, c | .lt, c => c == '='
  | .lParen, c => c == ')'
  | _, _ => Bool.false

/-- **Whether a character could be a part** of the lexeme before it. Blanks are taken for the
comments that they may be. -/
def Lexeme.continues : Lexeme → Char → Bool
  | blank, c => c ≠ '\n'
  | lineFeed, _ => false
  | token t, c => t.continues c

/-- No lexeme goes on over the end of a line. -/
lemma Lexeme.continues_lineFeed (l : Lexeme) : l.continues '\n' = false := by
  cases l with
  | blank | lineFeed => rfl
  | token t => cases t <;> rfl

/-- What characters of a class are taken does not depend on what stands after their end. -/
lemma takeWhile_append_of {p : Char → Bool} {t rest : Text}
    (h : t.dropWhile p = [] → ∀ d ∈ rest.head?, p d = false) :
    (t ++ rest).takeWhile p = t.takeWhile p ∧
      (t ++ rest).dropWhile p = t.dropWhile p ++ rest := by
  induction t with
  | nil =>
    cases rest with
    | nil => exact ⟨rfl, rfl⟩
    | cons d rest =>
      have hd := h rfl d rfl
      simp [hd]
  | cons c t ih =>
    by_cases hc : p c = true
    · simp only [List.dropWhile_cons_of_pos hc] at h
      simpa [hc] using ih h
    · simp [hc]

/-- A name goes on with the characters of names, also if it is a keyword. -/
lemma nameToken_continues (name : Text) (d : Char) :
    (nameToken name).continues d = isNameChar d := by
  unfold nameToken
  split
  · rfl
  split <;> rfl

/-- The rest of a string is the same if more text follows.

**Proof sketch.** By the characters that are read. The text ends after the quotation mark, so no
character depends on what follows it: an escape has its second character, as a backslash at the end
is an error. -/
lemma stringRest_append {t : Text} {r : StringRest} (h : stringRest t = .ok r) (rest : Text) :
    stringRest (t ++ rest) = .ok { r with rest := r.rest ++ rest } := by
  fun_induction stringRest t generalizing r with
  | case1 => cases h
  | case2 t =>
    cases h
    rfl
  | case3 e t c he ih =>
    cases hs : stringRest t with
    | error f => simp [hs, pushChar] at h
    | ok s =>
      simp only [hs, pushChar, Except.ok.injEq] at h
      subst h
      simp only [List.cons_append, stringRest, he, ih hs, pushChar, StringRest.push]
  | case4 => cases h
  | case5 c t hquote hescape ih =>
    cases hs : stringRest t with
    | error f => simp [hs, pushChar] at h
    | ok s =>
      simp only [hs, pushChar, Except.ok.injEq] at h
      subst h
      have hescape' : ∀ e more, c = '\\' → t ++ rest = e :: more → False := by
        intro e more hc heq
        cases t with
        | nil => cases hs
        | cons e' t => exact hescape e' t hc rfl
      rw [List.cons_append, stringRest.eq_4 _ _ hquote hescape', ih hs]
      rfl

section

variable {c : Char} {t rest : Text} {s : Scanned}

/-- A lexeme of one character is the same if more text follows. -/
lemma oneChar_append {l : Lexeme} (h : oneChar c l t = .ok s) :
    oneChar c l (t ++ rest) = .ok { s with rest := s.rest ++ rest } := by
  cases h
  rfl

/-- A lexeme of one or two characters is the same if what follows does not go on with it. -/
lemma oneOrTwo_append {second : Char} {single double : Token}
    (hsecond : ∀ d, single.continues d = (d == second))
    (h : oneOrTwo c second single double t = .ok s)
    (hrest : s.rest = [] → ∀ d ∈ rest.head?, s.lexeme.continues d = false) :
    oneOrTwo c second single double (t ++ rest) = .ok { s with rest := s.rest ++ rest } := by
  cases t with
  | nil =>
    cases h
    cases rest with
    | nil => rfl
    | cons d rest =>
      have hd : d ≠ second := by simpa [Lexeme.continues, hsecond] using hrest rfl d rfl
      simp only [oneOrTwo, List.nil_append, if_neg hd]
      rfl
  | cons d t =>
    rw [oneOrTwo] at h
    rw [List.cons_append, oneOrTwo]
    split_ifs at h ⊢
    · cases h
      rfl
    · exact oneChar_append h

/-- A lexeme of two equal characters is the same if more text follows. -/
lemma doubled_append {k : Token} (h : doubled c k t = .ok s) :
    doubled c k (t ++ rest) = .ok { s with rest := s.rest ++ rest } := by
  cases t with
  | nil => cases h
  | cons d t =>
    rw [doubled] at h
    rw [List.cons_append, doubled]
    split_ifs at h ⊢
    cases h
    rfl

/-- A string is the same if more text follows. -/
lemma scanString_append (h : scanString t = .ok s) :
    scanString (t ++ rest) = .ok { s with rest := s.rest ++ rest } := by
  unfold scanString at h
  split at h
  next r hr =>
    cases h
    rw [scanString, stringRest_append hr]
  all_goals cases h

/-- A number is the same if what follows does not go on with it. -/
lemma scanNumber_append (h : scanNumber c t = .ok s)
    (hrest : s.rest = [] → ∀ d ∈ rest.head?, s.lexeme.continues d = false) :
    scanNumber c (t ++ rest) = .ok { s with rest := s.rest ++ rest } := by
  simp only [scanNumber] at h
  split at h
  next x hx =>
    cases h
    obtain ⟨htake, hdrop⟩ := takeWhile_append_of hrest
    simp only [scanNumber, htake, hdrop, hx]
  next => cases h

/-- A name is the same if what follows does not go on with it. -/
lemma scanName_append (h : scanName c t = .ok s)
    (hrest : s.rest = [] → ∀ d ∈ rest.head?, s.lexeme.continues d = false) :
    scanName c (t ++ rest) = .ok { s with rest := s.rest ++ rest } := by
  cases h
  simp only [Lexeme.continues, nameToken_continues] at hrest
  obtain ⟨htake, hdrop⟩ := takeWhile_append_of hrest
  simp only [scanName, htake, hdrop]

/-- A comment is the same if what follows does not go on with it. -/
lemma scanComment_append (h : scanComment c t = .ok s)
    (hrest : s.rest = [] → ∀ d ∈ rest.head?, s.lexeme.continues d = false) :
    scanComment c (t ++ rest) = .ok { s with rest := s.rest ++ rest } := by
  cases h
  obtain ⟨htake, hdrop⟩ := takeWhile_append_of hrest
  simp only [scanComment, htake, hdrop]

/-- A symbol is the same if what follows does not go on with it. -/
lemma scanSymbol_append (h : scanSymbol c t = .ok s)
    (hrest : s.rest = [] → ∀ d ∈ rest.head?, s.lexeme.continues d = false) :
    scanSymbol c (t ++ rest) = .ok { s with rest := s.rest ++ rest } := by
  unfold scanSymbol at h ⊢
  split at h
  case h_5 => exact doubled_append h
  case h_6 => exact doubled_append h
  case h_8 =>
    split at h
    · exact oneChar_append h
    · cases h
  all_goals exact oneOrTwo_append (fun _ => rfl) h hrest

/-- **What is read** at the front of a code does not depend on what stands after its end, unless it
could go on there. -/
theorem scan_append (h : scan c t = .ok s)
    (hrest : s.rest = [] → ∀ d ∈ rest.head?, s.lexeme.continues d = false) :
    scan c (t ++ rest) = .ok { s with rest := s.rest ++ rest } := by
  unfold scan at h ⊢
  split_ifs at h ⊢
  · exact oneChar_append h
  · exact oneChar_append h
  · exact scanComment_append h hrest
  · exact scanString_append h
  · exact scanNumber_append h hrest
  · exact scanName_append h hrest
  · exact scanSymbol_append h hrest

end

/-- How deep in parentheses the code after some tokens is. -/
def depthAfterAll (depth : Nat) (ts : List Placed) : Nat :=
  (ts.map Placed.token).foldl depthAfter depth

/-- **Lexing a code in two parts**, of which the second one begins on a new line. -/
theorem Lexed.append {depth : Nat} {before t rest : Text} {ts more : List Placed}
    (h : Lexed depth before t ts)
    (hrest : Lexed (depthAfterAll depth ts) (before ++ t) ('\n' :: rest) more) :
    Lexed depth before (t ++ '\n' :: rest) (ts ++ more) := by
  have hends (l : Lexeme) : ∀ d ∈ ('\n' :: rest).head?, l.continues d = false := by
    rintro d ⟨⟩
    exact l.continues_lineFeed
  induction h with
  | nil =>
    rw [List.append_nil] at hrest
    exact hrest
  | skip hs hk _ ih =>
    rw [(scan_eq_append hs).1, ← List.append_assoc] at hrest
    exact .skip (scan_append hs fun _ => hends _) hk (ih hrest)
  | token hs hk _ ih =>
    rw [(scan_eq_append hs).1, ← List.append_assoc] at hrest
    have hlexed := Lexed.token (scan_append hs fun _ => hends _) hk (ih hrest)
    exact hlexed

end Weave.Lit
