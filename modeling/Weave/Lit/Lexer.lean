import Weave.Lit.Fault
import Weave.Number.Binary64
import Weave.Text.Alphanumeric

set_option autoImplicit false
set_option relaxedAutoImplicit false

/-!
# Lexemes

Code is cut into lexemes from its front: blanks and comments, line feeds, and the spellings of
tokens. Every lexeme takes at least one character, and the lexemes together are the code.

## Main definitions

* `Weave.Lit.scan` — the lexeme at the front of a code.
* `Weave.Lit.tokenize` — the tokens of a code.

## Main results

* `Weave.Lit.scan_eq_append` — a lexeme and the rest make up the code.
-/

namespace Weave.Lit

/-- What a lexeme stands for. -/
inductive Lexeme where
  /-- A blank or a comment. -/
  | blank
  /-- A line feed: the end of a statement, unless it stands inside parentheses. -/
  | lineFeed
  | token (t : Token)

/-- A lexeme taken off the front of a code, with its spelling. -/
structure Scanned where
  lexeme : Lexeme
  spelling : Text
  rest : Text

/-- Code whose front is no lexeme: the cause, the characters before the place it points at, and the
characters of that place. -/
structure ScanFault where
  cause : SyntaxCause
  before : Text
  extent : Text

/-! ## Strings -/

/-- The character that an escape in a string stands for. -/
def escapedChar? : Char → Option Char
  | 'n' => some '\n'
  | 't' => some '\t'
  | '"' => some '"'
  | '\\' => some '\\'
  | _ => none

/-- What is read of a string after its opening quotation mark: its text, the spelling up to and with
the closing quotation mark, and the rest. -/
structure StringRest where
  text : Text
  spelling : Text
  rest : Text

/-- Why a string ends wrongly. -/
inductive StringFault where
  | unterminated
  /-- An unknown escape of the character `c`, after `before`. -/
  | escape (before : Text) (c : Char)

/-- A string with one more character in front, spelled `spelling`. -/
def StringRest.push (spelling : Text) (c : Char) (r : StringRest) : StringRest :=
  { text := c :: r.text, spelling := spelling ++ r.spelling, rest := r.rest }

/-- A fault with more characters before it. -/
def StringFault.push (spelling : Text) : StringFault → StringFault
  | unterminated => unterminated
  | escape before c => escape (spelling ++ before) c

/-- Puts a character in front of what was read of a string. -/
def pushChar (spelling : Text) (c : Char) (r : Except StringFault StringRest) :
    Except StringFault StringRest :=
  match r with
  | .ok r => .ok (r.push spelling c)
  | .error f => .error (f.push spelling)

/-- Reads a string from after its opening quotation mark. A backslash at the very end of the code
stands for itself. -/
def stringRest : Text → Except StringFault StringRest
  | [] => .error .unterminated
  | '"' :: t => .ok { text := [], spelling := ['"'], rest := t }
  | '\\' :: e :: t =>
    match escapedChar? e with
    | some c => pushChar ['\\', e] c (stringRest t)
    | none => .error (.escape [] e)
  | c :: t => pushChar [c] c (stringRest t)

/-! ## Numbers and names -/

/-- The characters of a number. -/
def isNumberChar (c : Char) : Bool :=
  isDigit c || c == '.'

/-- The number that a spelling of digits and points stands for; at most one point is allowed. -/
def numberOf? (spelling : Text) : Option Float :=
  let whole := spelling.takeWhile isDigit
  match spelling.dropWhile isDigit with
  | [] => some (Binary64.ofDecimal false (numeralValue whole) 0)
  | '.' :: fraction =>
    if fraction.all isDigit then
      some (Binary64.ofDecimal false (numeralValue (whole ++ fraction)) (-(fraction.length : Int)))
    else none
  | _ => none

/-- The characters that a name begins with. -/
def isNameStart (c : Char) : Bool :=
  ('a' ≤ c && c ≤ 'z') || ('A' ≤ c && c ≤ 'Z') || c == '_'

/-- The characters that a name goes on with. -/
def isNameChar (c : Char) : Bool :=
  isAlphanumeric c || c == '_'

/-- The token of a name, which may be a truth value. -/
def nameToken (name : Text) : Token :=
  if name = "true".toList then .true
  else if name = "false".toList then .false
  else .ident name

/-! ## Lexemes -/

/-- A lexeme of one character. -/
def oneChar (c : Char) (lexeme : Lexeme) (t : Text) : Except ScanFault Scanned :=
  .ok { lexeme, spelling := [c], rest := t }

/-- A token of two characters if `second` follows, and otherwise a token of one character. -/
def oneOrTwo (c second : Char) (single double : Token) (t : Text) : Except ScanFault Scanned :=
  match t with
  | d :: rest =>
    if d = second then .ok { lexeme := .token double, spelling := [c, d], rest }
    else oneChar c (.token single) t
  | [] => oneChar c (.token single) t

/-- A token that is spelled by a doubled character. -/
def doubled (c : Char) (token : Token) (t : Text) : Except ScanFault Scanned :=
  match t with
  | d :: rest =>
    if d = c then .ok { lexeme := .token token, spelling := [c, d], rest }
    else .error { cause := .singleOperator c, before := [], extent := [c] }
  | [] => .error { cause := .singleOperator c, before := [], extent := [c] }

/-- The string literal at the front of a code, from after its opening quotation mark. -/
def scanString (t : Text) : Except ScanFault Scanned :=
  match stringRest t with
  | .ok r =>
    .ok { lexeme := .token (.string r.text), spelling := '"' :: r.spelling, rest := r.rest }
  | .error .unterminated =>
    .error { cause := .unterminatedString, before := [], extent := '"' :: t }
  | .error (.escape before c) =>
    .error { cause := .unknownEscape c, before := '"' :: before, extent := ['\\', c] }

/-- The number at the front of a code. -/
def scanNumber (c : Char) (t : Text) : Except ScanFault Scanned :=
  let spelling := c :: t.takeWhile isNumberChar
  match numberOf? spelling with
  | some x => .ok { lexeme := .token (.number x), spelling, rest := t.dropWhile isNumberChar }
  | none => .error { cause := .invalidNumber spelling, before := [], extent := spelling }

/-- The name at the front of a code. -/
def scanName (c : Char) (t : Text) : Except ScanFault Scanned :=
  let spelling := c :: t.takeWhile isNameChar
  .ok { lexeme := .token (nameToken spelling), spelling, rest := t.dropWhile isNameChar }

/-- The comment at the front of a code, up to the end of its line. -/
def scanComment (c : Char) (t : Text) : Except ScanFault Scanned :=
  .ok { lexeme := .blank, spelling := c :: t.takeWhile (· ≠ '\n'), rest := t.dropWhile (· ≠ '\n') }

/-- The token that a single character spells, whatever follows it. -/
def plainToken? : Char → Option Token
  | ';' => some .separator
  | '+' => some .plus
  | '-' => some .minus
  | '*' => some .star
  | '/' => some .slash
  | '%' => some .percent
  | '?' => some .question
  | ':' => some .colon
  | ',' => some .comma
  | ')' => some .rParen
  | _ => none

/-- The symbol at the front of a code. -/
def scanSymbol (c : Char) (t : Text) : Except ScanFault Scanned :=
  match c with
  | '=' => oneOrTwo c '=' .eq .eqEq t
  | '!' => oneOrTwo c '=' .bang .bangEq t
  | '>' => oneOrTwo c '=' .gt .gtEq t
  | '<' => oneOrTwo c '=' .lt .ltEq t
  | '&' => doubled c .ampAmp t
  | '|' => doubled c .pipePipe t
  | '(' => oneOrTwo c ')' .lParen .unit t
  | c =>
    match plainToken? c with
    | some token => oneChar c (.token token) t
    | none => .error { cause := .unexpectedCharacter c, before := [], extent := [c] }

/-- The characters that separate lexemes within a line. -/
def isSpace (c : Char) : Bool :=
  c == ' ' || c == '\t' || c == '\r'

/-- **The lexeme at the front** of the code `c :: t`. -/
def scan (c : Char) (t : Text) : Except ScanFault Scanned :=
  if isSpace c then oneChar c .blank t
  else if c = '\n' then oneChar c .lineFeed t
  else if c = '#' then scanComment c t
  else if c = '"' then scanString t
  else if isDigit c then scanNumber c t
  else if isNameStart c then scanName c t
  else scanSymbol c t

/-- The rest of a string is its spelling and what is left. -/
theorem stringRest_eq_append {t : Text} {r : StringRest} (h : stringRest t = .ok r) :
    t = r.spelling ++ r.rest := by
  fun_induction stringRest t generalizing r with
  | case1 => simp at h
  | case2 t =>
    simp only [Except.ok.injEq] at h
    simp [← h]
  | case3 e t c he ih =>
    cases hs : stringRest t with
    | error f => simp [hs, pushChar] at h
    | ok s =>
      simp only [hs, pushChar, Except.ok.injEq] at h
      simp [← h, StringRest.push, ← ih hs]
  | case4 => simp at h
  | case5 c t _ _ ih =>
    cases hs : stringRest t with
    | error f => simp [hs, pushChar] at h
    | ok s =>
      simp only [hs, pushChar, Except.ok.injEq] at h
      simp [← h, StringRest.push, ← ih hs]

/-- A lexeme of one character and what is left make up the text. -/
theorem oneChar_eq_append {c : Char} {l : Lexeme} {t : Text} {s : Scanned}
    (h : oneChar c l t = .ok s) : c :: t = s.spelling ++ s.rest ∧ s.spelling ≠ [] := by
  simp only [oneChar, Except.ok.injEq] at h
  simp [← h]

/-- A lexeme of one or two characters and what is left make up the text. -/
theorem oneOrTwo_eq_append {c d : Char} {a b : Token} {t : Text} {s : Scanned}
    (h : oneOrTwo c d a b t = .ok s) : c :: t = s.spelling ++ s.rest ∧ s.spelling ≠ [] := by
  unfold oneOrTwo at h
  split at h
  · split at h
    · simp only [Except.ok.injEq] at h
      simp [← h]
    · exact oneChar_eq_append h
  · exact oneChar_eq_append h

/-- A lexeme of two equal characters and what is left make up the text. -/
theorem doubled_eq_append {c : Char} {a : Token} {t : Text} {s : Scanned}
    (h : doubled c a t = .ok s) : c :: t = s.spelling ++ s.rest ∧ s.spelling ≠ [] := by
  unfold doubled at h
  split at h
  · split at h
    · simp only [Except.ok.injEq] at h
      simp [← h]
    · simp at h
  · simp at h

/-- A string and what is left make up the text. -/
theorem scanString_eq_append {t : Text} {s : Scanned} (h : scanString t = .ok s) :
    '"' :: t = s.spelling ++ s.rest ∧ s.spelling ≠ [] := by
  unfold scanString at h
  split at h
  next r hr =>
    simp only [Except.ok.injEq] at h
    simp [← h, stringRest_eq_append hr]
  · simp at h
  · simp at h

/-- A number and what is left make up the text. -/
theorem scanNumber_eq_append {c : Char} {t : Text} {s : Scanned} (h : scanNumber c t = .ok s) :
    c :: t = s.spelling ++ s.rest ∧ s.spelling ≠ [] := by
  unfold scanNumber at h
  dsimp only at h
  split at h
  · simp only [Except.ok.injEq] at h
    simp [← h]
  · simp at h

/-- A name and what is left make up the text. -/
theorem scanName_eq_append {c : Char} {t : Text} {s : Scanned} (h : scanName c t = .ok s) :
    c :: t = s.spelling ++ s.rest ∧ s.spelling ≠ [] := by
  simp only [scanName, Except.ok.injEq] at h
  simp [← h]

/-- A comment and what is left make up the text. -/
theorem scanComment_eq_append {c : Char} {t : Text} {s : Scanned} (h : scanComment c t = .ok s) :
    c :: t = s.spelling ++ s.rest ∧ s.spelling ≠ [] := by
  simp only [scanComment, Except.ok.injEq] at h
  simp [← h]

/-- A symbol and what is left make up the text. -/
theorem scanSymbol_eq_append {c : Char} {t : Text} {s : Scanned} (h : scanSymbol c t = .ok s) :
    c :: t = s.spelling ++ s.rest ∧ s.spelling ≠ [] := by
  unfold scanSymbol at h
  split at h
  case h_5 => exact doubled_eq_append h
  case h_6 => exact doubled_eq_append h
  case h_8 =>
    split at h
    · exact oneChar_eq_append h
    · simp at h
  all_goals exact oneOrTwo_eq_append h

/-- **A lexeme and the rest make up the code**, and a lexeme takes at least one character. -/
theorem scan_eq_append {c : Char} {t : Text} {s : Scanned} (h : scan c t = .ok s) :
    c :: t = s.spelling ++ s.rest ∧ s.spelling ≠ [] := by
  unfold scan at h
  split at h
  · exact oneChar_eq_append h
  split at h
  · exact oneChar_eq_append h
  split at h
  · exact scanComment_eq_append h
  split at h
  next hc => exact hc ▸ scanString_eq_append h
  split at h
  · exact scanNumber_eq_append h
  split at h
  · exact scanName_eq_append h
  · exact scanSymbol_eq_append h

/-- What is left after a lexeme is shorter than the text. -/
theorem length_scan {c : Char} {t : Text} {s : Scanned} (h : scan c t = .ok s) :
    s.rest.length < t.length + 1 := by
  obtain ⟨happ, hne⟩ := scan_eq_append h
  have hlen := congrArg List.length happ
  have := List.length_pos_iff.2 hne
  simp only [List.length_cons, List.length_append] at hlen
  omega

/-! ## Tokens -/

/-- How deep in parentheses the code after a token is. -/
def depthAfter (depth : Nat) : Token → Nat
  | .lParen => depth + 1
  | .rParen => depth - 1
  | _ => depth

/-- The token that a lexeme gives at a depth in parentheses, if it gives one. -/
def Lexeme.token? (depth : Nat) : Lexeme → Option Token
  | blank => none
  | lineFeed => if depth > 0 then none else some .separator
  | token t => some t

/-- The tokens of a code that stands at an offset and at a depth in parentheses. -/
def tokensFrom (depth offset : Nat) : Text → Except SyntaxFault (List Placed)
  | [] => .ok []
  | c :: t =>
    match _h : scan c t with
    | .error f =>
      let start := offset + Text.byteSize f.before
      .error { cause := f.cause, span := ⟨start, start + Text.byteSize f.extent⟩ }
    | .ok s =>
      let stop := offset + Text.byteSize s.spelling
      match s.lexeme.token? depth with
      | none => tokensFrom depth stop s.rest
      | some token =>
        match tokensFrom (depthAfter depth token) stop s.rest with
        | .error f => .error f
        | .ok ts => .ok ({ token, span := ⟨offset, stop⟩ } :: ts)
termination_by t => t.length
decreasing_by all_goals exact length_scan _h

/-- **The tokens of a code.** -/
def tokenize (code : Text) : Except SyntaxFault (List Placed) :=
  tokensFrom 0 0 code

end Weave.Lit
