import Mathlib.Data.List.Chain
import Weave.Proofs.Lit.Lexing

set_option autoImplicit false
set_option relaxedAutoImplicit false

/-!
# Spelled tokens

Tokens can be written one after the other, with any blanks between them. The code has just these
tokens if none of them goes on with the first character of the next one.

## Main definitions

* `Weave.Lit.Name`, `Weave.Lit.Numeral` — names, and numbers as they are spelled.
* `Weave.Lit.escaped` — a string as it stands between quotation marks.
* `Weave.Lit.Piece` — a token with its spelling.
* `Weave.Lit.spell` — the code of some pieces.

## Main results

* `Weave.Lit.stringRest_escaped` — reading an escaped string gives the string.
* `Weave.Lit.exists_lexed_spell` — the code of some pieces has their tokens.
-/

namespace Weave.Lit

/-! ## Names and numbers -/

/-- A name that is no truth value. -/
structure Name where
  first : Char
  more : Text
  isNameStart_first : isNameStart first = true
  isNameChar_more : ∀ c ∈ more, isNameChar c = true
  ne_true : first :: more ≠ "true".toList
  ne_false : first :: more ≠ "false".toList

/-- The characters of a name. -/
def Name.text (name : Name) : Text :=
  name.first :: name.more

/-- A number that is spelled with digits, and with further digits after a point unless there are
none. -/
structure Numeral where
  first : Char
  more : Text
  fraction : Text
  isDigit_first : isDigit first = true
  isDigit_more : ∀ c ∈ more, isDigit c = true
  isDigit_fraction : ∀ c ∈ fraction, isDigit c = true

namespace Numeral

/-- The digits before the point. -/
def whole (n : Numeral) : Text :=
  n.first :: n.more

/-- The point and the digits after it. -/
def tail (n : Numeral) : Text :=
  match n.fraction with
  | [] => []
  | fraction => '.' :: fraction

/-- The number that is spelled, rounded to a double. -/
def value (n : Numeral) : Float :=
  Binary64.ofDecimal false (numeralValue (n.whole ++ n.fraction)) (-(n.fraction.length : Int))

/-- **The number of a spelling.** -/
lemma numberOf?_eq (n : Numeral) : numberOf? (n.whole ++ n.tail) = some n.value := by
  have hwhole : ∀ c ∈ n.whole, isDigit c = true :=
    List.forall_mem_cons.2 ⟨n.isDigit_first, n.isDigit_more⟩
  have hall : n.fraction.all isDigit = true := List.all_eq_true.2 n.isDigit_fraction
  simp only [numberOf?, tail, value]
  rw [List.takeWhile_append_of_pos hwhole, List.dropWhile_append_of_pos hwhole]
  cases hfraction : n.fraction with
  | nil => simp
  | cons d fraction =>
    rw [hfraction] at hall
    have hpoint : isDigit '.' = false := by decide
    simp [hpoint, hall]

/-- What follows the first digit of a number is made of characters of numbers. -/
lemma isNumberChar_tail (n : Numeral) : ∀ c ∈ n.more ++ n.tail, isNumberChar c = true := by
  have hdigit : ∀ c, isDigit c = true → isNumberChar c = true := by
    simp +contextual [isNumberChar]
  refine List.forall_mem_append.2 ⟨fun c hc => hdigit c (n.isDigit_more c hc), ?_⟩
  unfold tail
  split
  · exact List.forall_mem_nil _
  · exact List.forall_mem_cons.2 ⟨rfl, fun c hc => hdigit c (n.isDigit_fraction c hc)⟩

end Numeral

/-! ## Strings -/

/-- A character as it stands between quotation marks. -/
def escapedChar : Char → Text
  | '"' => ['\\', '"']
  | '\\' => ['\\', '\\']
  | '\n' => ['\\', 'n']
  | '\t' => ['\\', 't']
  | c => [c]

/-- A string as it stands between quotation marks. -/
def escaped (t : Text) : Text :=
  t.flatMap escapedChar

/-- **Reading an escaped string** gives the string. -/
theorem stringRest_escaped (t rest : Text) :
    stringRest (escaped t ++ '"' :: rest) =
      .ok { text := t, spelling := escaped t ++ ['"'], rest } := by
  induction t with
  | nil => rfl
  | cons c t ih =>
    rw [escaped, List.flatMap_cons, List.append_assoc]
    change stringRest (escapedChar c ++ (escaped t ++ '"' :: rest)) =
      .ok ⟨c :: t, (escapedChar c ++ escaped t) ++ ['"'], rest⟩
    unfold escapedChar
    split
    case h_5 hquote hbackslash _ _ =>
      have hescape : ∀ e more, c = '\\' → escaped t ++ '"' :: rest = e :: more → False :=
        fun _ _ hc _ => hbackslash hc
      rw [List.cons_append, List.nil_append, stringRest.eq_4 _ _ hquote hescape, ih]
      rfl
    all_goals
      simp only [List.cons_append, List.nil_append, stringRest, escapedChar?, ih]
      rfl

/-! ## Pieces -/

/-- **A token with a spelling** that is read as this token when nothing stands after it. -/
structure Piece where
  token : Token
  first : Char
  more : Text
  scan_eq : scan first more = .ok ⟨.token token, first :: more, []⟩

namespace Piece

/-- The characters of a piece. -/
def text (p : Piece) : Text :=
  p.first :: p.more

end Piece

/-- The characters that lexemes of their own kind begin with, and no number, name or symbol. -/
def openers : List Char :=
  [' ', '\t', '\r', '\n', '#', '"']

/-- What begins neither with a blank nor with a mark is a number, a name or a symbol. -/
lemma scan_of_not_mem_openers {c : Char} (hc : c ∉ openers) (t : Text) :
    scan c t =
      if isDigit c then scanNumber c t
      else if isNameStart c then scanName c t
      else scanSymbol c t := by
  simp only [openers, List.mem_cons, List.not_mem_nil, or_false, not_or] at hc
  obtain ⟨hspace, htab, hreturn, hfeed, hhash, hquote⟩ := hc
  have hblank : isSpace c = false := by simp [isSpace, hspace, htab, hreturn]
  simp only [scan, hblank, hfeed, hhash, hquote, if_false, Bool.false_eq_true]

/-- A character of a class without openers is no opener. -/
lemma not_mem_openers {p : Char → Bool} (hp : openers.any p = false) {c : Char} (hc : p c = true) :
    c ∉ openers :=
  fun hmem => List.any_eq_false.1 hp c hmem hc

/-- No name begins with a digit. -/
lemma isDigit_of_isNameStart {c : Char} (h : isNameStart c = true) : isDigit c = false := by
  simp only [isNameStart, Bool.or_eq_true, Bool.and_eq_true, decide_eq_true_eq, beq_iff_eq,
    Char.le_def, UInt32.le_iff_toNat_le] at h
  simp only [isDigit, Bool.and_eq_false_iff, decide_eq_false_iff_not, Char.le_def,
    UInt32.le_iff_toNat_le]
  rcases h with (h | h) | rfl
  · have hlow : 97 ≤ c.val.toNat := h.1
    exact .inr fun hhigh => absurd (Nat.le_trans hlow hhigh) (by decide)
  · have hlow : 65 ≤ c.val.toNat := h.1
    exact .inr fun hhigh => absurd (Nat.le_trans hlow hhigh) (by decide)
  · exact .inr (by decide)

/-- The piece of a number. -/
def Numeral.piece (n : Numeral) : Piece where
  token := .number n.value
  first := n.first
  more := n.more ++ n.tail
  scan_eq := by
    have hchars := n.isNumberChar_tail
    rw [scan_of_not_mem_openers (not_mem_openers (by decide) n.isDigit_first),
      if_pos n.isDigit_first]
    simp only [scanNumber, List.takeWhile_eq_self_iff.2 hchars, List.dropWhile_eq_nil_iff.2 hchars]
    rw [← List.cons_append, show n.first :: n.more = n.whole from rfl, n.numberOf?_eq]

/-- The piece of a name. -/
def Name.piece (name : Name) : Piece where
  token := .ident name.text
  first := name.first
  more := name.more
  scan_eq := by
    have hchars := name.isNameChar_more
    rw [scan_of_not_mem_openers (not_mem_openers (by decide) name.isNameStart_first),
      isDigit_of_isNameStart name.isNameStart_first, if_neg Bool.false_ne_true,
      if_pos name.isNameStart_first]
    simp only [scanName, List.takeWhile_eq_self_iff.2 hchars, List.dropWhile_eq_nil_iff.2 hchars]
    rw [nameToken, if_neg name.ne_true, if_neg name.ne_false]
    rfl

/-- The piece of a string, between quotation marks. -/
def Piece.string (t : Text) : Piece where
  token := .string t
  first := '"'
  more := escaped t ++ ['"']
  scan_eq := by
    change scanString _ = _
    rw [scanString, stringRest_escaped]

/-- The piece of a truth value. -/
def Piece.boolean : Bool → Piece
  | true => ⟨.true, 't', "rue".toList, rfl⟩
  | false => ⟨.false, 'f', "alse".toList, rfl⟩

/-- The piece of an operator before an operand. -/
def UnaryOp.piece : UnaryOp → Piece
  | negation => ⟨.minus, '-', [], rfl⟩
  | logicalNot => ⟨.bang, '!', [], rfl⟩

/-- The piece of an operator between operands. -/
def BinaryOp.piece : BinaryOp → Piece
  | addition => ⟨.plus, '+', [], rfl⟩
  | subtraction => ⟨.minus, '-', [], rfl⟩
  | multiplication => ⟨.star, '*', [], rfl⟩
  | division => ⟨.slash, '/', [], rfl⟩
  | modulo => ⟨.percent, '%', [], rfl⟩
  | equality => ⟨.eqEq, '=', ['='], rfl⟩
  | inequality => ⟨.bangEq, '!', ['='], rfl⟩
  | greaterThan => ⟨.gt, '>', [], rfl⟩
  | lessThan => ⟨.lt, '<', [], rfl⟩
  | greaterThanOrEqual => ⟨.gtEq, '>', ['='], rfl⟩
  | lessThanOrEqual => ⟨.ltEq, '<', ['='], rfl⟩
  | logicalAnd => ⟨.ampAmp, '&', ['&'], rfl⟩
  | logicalOr => ⟨.pipePipe, '|', ['|'], rfl⟩

namespace Piece

/-- The piece of the unit value. -/
def unit : Piece :=
  ⟨.unit, '(', [')'], rfl⟩

/-- The piece of an opening parenthesis. -/
def lParen : Piece :=
  ⟨.lParen, '(', [], rfl⟩

/-- The piece of a closing parenthesis. -/
def rParen : Piece :=
  ⟨.rParen, ')', [], rfl⟩

/-- The piece of a comma. -/
def comma : Piece :=
  ⟨.comma, ',', [], rfl⟩

/-- The piece of a question mark. -/
def question : Piece :=
  ⟨.question, '?', [], rfl⟩

/-- The piece of a colon. -/
def colon : Piece :=
  ⟨.colon, ':', [], rfl⟩

/-- The piece of an equals sign. -/
def eq : Piece :=
  ⟨.eq, '=', [], rfl⟩

end Piece

/-! ## Pieces one after the other -/

/-- Blanks within a line. -/
structure Blanks where
  text : Text
  isSpace_text : ∀ c ∈ text, isSpace c = true

/-- No blanks. -/
def Blanks.none : Blanks :=
  ⟨[], List.forall_mem_nil _⟩

/-- **The code of some pieces**, with the given blanks before each of them and at the end. -/
def spell (blanks : Nat → Blanks) : List Piece → Text
  | [] => (blanks 0).text
  | p :: ps => (blanks 0).text ++ (p.text ++ spell (fun n => blanks (n + 1)) ps)

/-- **Two pieces are apart** even without blanks between them. -/
def Piece.Apart (p q : Piece) : Prop :=
  p.token.continues q.first = false

/-- No token goes on with a blank. -/
lemma continues_of_isSpace {c : Char} (hc : isSpace c = true) (k : Token) :
    k.continues c = false := by
  simp only [isSpace, Bool.or_eq_true, beq_iff_eq] at hc
  rcases hc with (rfl | rfl) | rfl <;> cases k <;> rfl

/-- Blanks give no token. -/
lemma lexed_blanks {depth : Nat} {before t : Text} {ts : List Placed} (blanks : Blanks)
    (h : Lexed depth (before ++ blanks.text) t ts) : Lexed depth before (blanks.text ++ t) ts := by
  obtain ⟨spaces, hspaces⟩ := blanks
  dsimp only at h ⊢
  induction spaces generalizing before with
  | nil => rwa [List.append_nil] at h
  | cons c spaces ih =>
    rw [List.forall_mem_cons] at hspaces
    have hscan : scan c (spaces ++ t) = .ok ⟨.blank, [c], spaces ++ t⟩ := by
      rw [scan, if_pos hspaces.1]
      rfl
    exact .skip hscan rfl (ih hspaces.2 (by rwa [List.append_assoc]))

/-- What stands after a piece does not go on with it. -/
lemma head?_spell {p : Piece} {ps : List Piece} (h : ∀ q ∈ ps.head?, p.Apart q)
    (blanks : Nat → Blanks) : ∀ d ∈ (spell blanks ps).head?, p.token.continues d = false := by
  have hblanks := (blanks 0).isSpace_text
  cases ps with
  | nil =>
    intro d hd
    exact continues_of_isSpace (hblanks d (List.mem_of_mem_head? hd)) _
  | cons q ps =>
    intro d hd
    rw [spell] at hd
    cases hspaces : (blanks 0).text with
    | nil =>
      rw [hspaces] at hd
      cases hd
      exact h q rfl
    | cons c spaces =>
      rw [hspaces] at hd hblanks
      cases hd
      exact continues_of_isSpace (hblanks _ List.mem_cons_self) _

/-- **The code of some pieces has their tokens** if every two neighbours are apart. -/
theorem exists_lexed_spell {ps : List Piece} (h : ps.IsChain Piece.Apart) (blanks : Nat → Blanks)
    (depth : Nat) (before : Text) :
    ∃ ts, ts.map Placed.token = ps.map Piece.token ∧ Lexed depth before (spell blanks ps) ts := by
  induction ps generalizing blanks depth before with
  | nil =>
    refine ⟨[], rfl, ?_⟩
    have hlexed := lexed_blanks (blanks 0) (.nil depth (before ++ (blanks 0).text))
    rwa [List.append_nil] at hlexed
  | cons p ps ih =>
    rw [List.isChain_cons] at h
    obtain ⟨ts, hts, hlexed⟩ := ih h.2 (fun n => blanks (n + 1)) (depthAfter depth p.token)
      (before ++ (blanks 0).text ++ p.text)
    have hscan := scan_append p.scan_eq fun _ => head?_spell h.1 fun n => blanks (n + 1)
    refine ⟨_, ?_, lexed_blanks (blanks 0) (.token hscan rfl hlexed)⟩
    rw [List.map_cons, List.map_cons, hts]

end Weave.Lit
