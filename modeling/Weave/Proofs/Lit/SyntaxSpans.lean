import Weave.Proofs.Lit.Layout

set_option autoImplicit false
set_option relaxedAutoImplicit false

/-!
# Where departures from the grammar are

A code that is no program is refused with the stretch of code where it departs from the grammar.
This is a stretch of what cannot be scanned, or that of a token, or the empty one at the end.

## Main definitions

* `Weave.Lit.Tracks` — what a reader leaves, or where it fails.

## Main results

* `Weave.Lit.scan_eq_error` — what cannot be scanned is in the code, after what is before it.
* `Weave.Lit.tracks_statements` — reading fails at one of the tokens, or at their end.
* `Weave.Lit.slices_of_parse_error` — the stretch of a departure can be cut out of the code.
-/

namespace Weave.Lit

/-! ## Lexemes -/

section

variable {c : Char} {t : Text} {f : ScanFault}

/-- **The characters that a fault of a lexeme points at** are in the code, after those before
them. -/
def ScanFault.At (f : ScanFault) (t : Text) : Prop :=
  ∃ rest, t = f.before ++ (f.extent ++ rest)

/-- A character that is read before an unknown escape moves it back by its spelling. -/
lemma pushChar_eq_error {spelling before : Text} {d : Char} {r : Except StringFault StringRest}
    (h : pushChar spelling d r = .error (.escape before c)) :
    ∃ between, r = .error (.escape between c) ∧ before = spelling ++ between := by
  rcases r with (_ | ⟨between, d'⟩) | r
  · cases h
  · cases h
    exact ⟨between, rfl, rfl⟩
  · cases h

/-- An unknown escape stands after what was read of the string. -/
lemma stringRest_eq_error {before : Text} (h : stringRest t = .error (.escape before c)) :
    ∃ rest, t = before ++ '\\' :: c :: rest := by
  fun_induction stringRest t generalizing before with
  | case1 => cases h
  | case2 => cases h
  | case3 e t d he ih =>
    obtain ⟨between, hs, rfl⟩ := pushChar_eq_error h
    obtain ⟨rest, rfl⟩ := ih hs
    exact ⟨rest, rfl⟩
  | case4 e t he =>
    cases h
    exact ⟨t, rfl⟩
  | case5 d t _ _ ih =>
    obtain ⟨between, hs, rfl⟩ := pushChar_eq_error h
    obtain ⟨rest, rfl⟩ := ih hs
    exact ⟨rest, rfl⟩

/-- A lexeme of one or two characters is never a fault. -/
lemma oneOrTwo_ne_error {second : Char} {single double : Token} :
    oneOrTwo c second single double t ≠ .error f := by
  unfold oneOrTwo oneChar
  split
  · split <;> nofun
  · nofun

/-- A character that ought to be doubled is pointed at in the text. -/
lemma doubled_eq_error {token : Token} (h : doubled c token t = .error f) : f.At (c :: t) := by
  unfold doubled at h
  split at h
  · split at h
    · cases h
    · cases h
      exact ⟨_, rfl⟩
  · cases h
    exact ⟨_, rfl⟩

/-- A string that is a fault is pointed at in the text. -/
lemma scanString_eq_error (h : scanString t = .error f) : f.At ('"' :: t) := by
  unfold scanString at h
  split at h
  next => cases h
  next =>
    cases h
    exact ⟨[], by simp⟩
  next before d hrest =>
    cases h
    obtain ⟨rest, rfl⟩ := stringRest_eq_error hrest
    exact ⟨rest, rfl⟩

/-- A number that is a fault is pointed at in the text. -/
lemma scanNumber_eq_error (h : scanNumber c t = .error f) : f.At (c :: t) := by
  unfold scanNumber at h
  dsimp only at h
  split at h
  · cases h
  · cases h
    exact ⟨t.dropWhile isNumberChar, by simp⟩

/-- A symbol that is a fault is pointed at in the text. -/
lemma scanSymbol_eq_error (h : scanSymbol c t = .error f) : f.At (c :: t) := by
  unfold scanSymbol at h
  split at h
  case h_5 => exact doubled_eq_error h
  case h_6 => exact doubled_eq_error h
  case h_8 =>
    split at h
    · cases h
    · cases h
      exact ⟨t, rfl⟩
  all_goals exact absurd h oneOrTwo_ne_error

/-- **What cannot be scanned**, and what is before it, is at the front of the code. -/
theorem scan_eq_error (h : scan c t = .error f) : f.At (c :: t) := by
  unfold scan at h
  split at h
  · cases h
  split at h
  · cases h
  split at h
  · cases h
  split at h
  next hc => exact hc ▸ scanString_eq_error h
  split at h
  · exact scanNumber_eq_error h
  split at h
  · cases h
  · exact scanSymbol_eq_error h

end

/-- **The stretch of a fault of a lexeme** can be cut out of the code.

**Proof sketch.** Strong induction on the length of the code. If the first lexeme cannot be read,
the fault is at a piece of the front of the code (`scan_eq_error`). If it can, the fault is one of
the rest, which is shorter. -/
theorem slices_of_tokensFrom_error {depth : Nat} {before t : Text} {f : SyntaxFault}
    (h : tokensFrom depth (Text.byteSize before) t = .error f) : f.span.Slices (before ++ t) := by
  induction hn : t.length using Nat.strongRecOn generalizing depth before t f with
  | ind n ih =>
    cases t with
    | nil =>
      rw [tokensFrom] at h
      cases h
    | cons c t =>
      rw [tokensFrom] at h
      split at h
      next fault hfault =>
        cases h
        obtain ⟨rest, hrest⟩ := scan_eq_error hfault
        rw [hrest, ← List.append_assoc, ← Text.byteSize_append]
        exact Span.slices_append ..
      next s hs =>
        have hlt : s.rest.length < n := hn ▸ length_scan hs
        rw [(scan_eq_append hs).1, ← List.append_assoc]
        simp only [← Text.byteSize_append] at h
        split at h
        next => exact ih _ hlt h rfl
        next =>
          split at h
          next fault hfault =>
            cases h
            exact ih _ hlt hfault rfl
          next => cases h

/-! ## Readers -/

/-- **What a reader leaves** is the end of the tokens that it is given. If it fails, then at one of
these tokens, or at their end. -/
def Tracks {α : Type} (ts : List Placed) : Reading α → Prop
  | .ok (_, rest) => rest <:+ ts
  | .error e => ∀ span ∈ e.span?, ∃ p ∈ ts, p.span = span

section

variable {α : Type} {sub : Nat → List Placed → Reading Expr}

/-- A reader that keeps to some tokens keeps to more tokens before them. -/
lemma Tracks.mono {ts more : List Placed} {r : Reading α} (h : Tracks ts r) (hts : ts <:+ more) :
    Tracks more r := by
  cases r with
  | ok read => exact h.trans hts
  | error e =>
    intro span hspan
    obtain ⟨p, hp, hplace⟩ := h span hspan
    exact ⟨p, hts.subset hp, hplace⟩

/-- Expecting a token keeps to the tokens. -/
lemma tracks_expect (accepts : Token → Bool) (what : Expected) (ts : List Placed) :
    Tracks ts (expect accepts what ts) := by
  unfold expect
  split
  next => exact nofun
  next t ts =>
    split
    next => exact List.suffix_cons t ts
    next =>
      rintro span ⟨⟩
      exact ⟨t, List.mem_cons_self, rfl⟩

variable (hsub : ∀ k ts, Tracks ts (sub k ts))

include hsub

/-- Reading the operand of a unary operator keeps to the tokens. -/
lemma tracks_unaryOperand (op : UnaryOp) (place : Span) (ts : List Placed) :
    Tracks ts (unaryOperand sub op place ts) := by
  unfold unaryOperand
  have h := hsub unaryStrength ts
  split
  next heq => rwa [heq] at h
  next heq => rwa [heq] at h

/-- Reading the right operand of a binary operator keeps to the tokens. -/
lemma tracks_rightOperand (op : BinaryOp) (left : Expr) (ts : List Placed) :
    Tracks ts (rightOperand sub op left ts) := by
  unfold rightOperand
  have h := hsub (op.strength + 1) ts
  split
  next heq => rwa [heq] at h
  next heq => rwa [heq] at h

/-- Reading an expression in parentheses keeps to the tokens. -/
lemma tracks_parenthesized (place : Span) (ts : List Placed) :
    Tracks ts (parenthesized sub place ts) := by
  unfold parenthesized
  split
  next close ts => exact List.suffix_cons _ ts
  next =>
    have h := hsub 0 ts
    split
    next heq => rwa [heq] at h
    next inner rest heq =>
      rw [heq] at h
      have hclose := (tracks_expect isRParen .closingParen rest).mono h
      split
      next heq => rwa [heq] at hclose
      next heq => rwa [heq] at hclose

/-- Reading the branches of a conditional keeps to the tokens. -/
lemma tracks_branches (condition : Expr) (ts : List Placed) :
    Tracks ts (branches sub condition ts) := by
  unfold branches
  have hyes := hsub 0 ts
  split
  next heq => rwa [heq] at hyes
  next yes rest heq =>
    rw [heq] at hyes
    have hcolon := (tracks_expect isColon .conditionalColon rest).mono hyes
    split
    next heq => rwa [heq] at hcolon
    next colon rest' heq =>
      rw [heq] at hcolon
      have hno := (hsub conditionalStrength rest').mono hcolon
      split
      next heq => rwa [heq] at hno
      next heq => rwa [heq] at hno

/-- Reading the arguments of a call keeps to the tokens. -/
lemma tracks_argumentList (n : Nat) (ts : List Placed) : Tracks ts (argumentList sub n ts) := by
  induction n generalizing ts with
  | zero => exact nofun
  | succ n ih =>
    unfold argumentList
    have h := hsub 0 ts
    split
    next heq => rwa [heq] at h
    next argument rest heq =>
      rw [heq] at h
      split
      next comma rest =>
        have hmore := (ih rest).mono ((List.suffix_cons _ rest).trans h)
        split
        next heq => rwa [heq] at hmore
        next heq => rwa [heq] at hmore
      next =>
        have hclose := (tracks_expect isRParen .argumentEnd rest).mono h
        split
        next heq => rwa [heq] at hclose
        next heq => rwa [heq] at hclose

/-- Reading a variable or a call keeps to the tokens. -/
lemma tracks_afterName (name : Text) (place : Span) (ts : List Placed) :
    Tracks ts (afterName sub name place ts) := by
  unfold afterName
  split
  next => exact List.suffix_cons _ _
  next => exact (List.suffix_cons _ _).trans (List.suffix_cons _ _)
  next opening ts _ =>
    have hsuffix : ts <:+ ⟨.lParen, opening⟩ :: ts := List.suffix_cons _ ts
    have h := (tracks_argumentList hsub (ts.length + 1) ts).mono hsuffix
    split
    next heq => rwa [heq] at h
    next heq => rwa [heq] at h
  next => exact List.suffix_rfl

/-- Reading an operand keeps to the tokens. -/
lemma tracks_operand (ts : List Placed) : Tracks ts (operand sub ts) := by
  unfold operand
  split
  next => exact nofun
  next token place ts =>
    have hcons := List.suffix_cons (⟨token, place⟩ : Placed) ts
    split
    case h_1 | h_2 | h_3 | h_4 | h_5 => exact hcons
    next name => exact (tracks_afterName hsub name place ts).mono hcons
    next => exact (tracks_unaryOperand hsub .logicalNot place ts).mono hcons
    next => exact (tracks_unaryOperand hsub .negation place ts).mono hcons
    next => exact (tracks_parenthesized hsub place ts).mono hcons
    next =>
      rintro span ⟨⟩
      exact ⟨_, List.mem_cons_self, rfl⟩

/-- Reading operators with their operands keeps to the tokens.

**Proof sketch.** Induction on the number of operators. The right operand is read from a suffix of
the tokens and leaves a suffix, and further operators are read from this. -/
lemma tracks_operators (strength n : Nat) (left : Expr) (ts : List Placed) :
    Tracks ts (operators sub strength n left ts) := by
  induction n generalizing left ts with
  | zero => exact List.suffix_rfl
  | succ n ih =>
    by_cases hstops : Stops strength ts
    · rw [operators_of_stops hstops]
      exact List.suffix_rfl
    cases ts with
    | nil => exact absurd (stops_nil strength) hstops
    | cons p ts =>
      obtain ⟨token, place⟩ := p
      have hcons := List.suffix_cons (⟨token, place⟩ : Placed) ts
      rcases token.strength?_cases with hnone | rfl | ⟨op, rfl⟩
      · exact absurd (stops_of_strength?_eq_none hnone strength ts) hstops
      · rw [operators_question, if_neg (mt (stops_question ..).2 hstops)]
        have h := (tracks_branches hsub left ts).mono hcons
        split
        next heq => rwa [heq] at h
        next left rest heq =>
          rw [heq] at h
          exact (ih left rest).mono h
      · rw [operators_op, if_neg (mt (stops_op ..).2 hstops)]
        have h := (tracks_rightOperand hsub op left ts).mono hcons
        split
        next heq => rwa [heq] at h
        next left rest heq =>
          rw [heq] at h
          exact (ih left rest).mono h

end

/-- **Reading an expression** leaves the end of the tokens, or fails at one of them. -/
theorem tracks_expression (depth strength : Nat) (ts : List Placed) :
    Tracks ts (expression depth strength ts) := by
  induction depth generalizing strength ts with
  | zero =>
    cases ts with
    | nil => exact nofun
    | cons p ts =>
      rintro span ⟨⟩
      exact ⟨p, List.mem_cons_self, rfl⟩
  | succ depth ih =>
    unfold expression
    have h := tracks_operand ih ts
    split
    next heq => rwa [heq] at h
    next left rest heq =>
      rw [heq] at h
      exact (tracks_operators ih strength rest.length left rest).mono h

/-- Reading a statement leaves the end of the tokens, or fails at one of them. -/
lemma tracks_statement (ts : List Placed) : Tracks ts (statement ts) := by
  unfold statement
  split
  next name place eq rest =>
    have h := (tracks_expression depthLimit 0 rest).mono
      ((List.suffix_cons ⟨.eq, eq⟩ rest).trans (List.suffix_cons ⟨.ident name, place⟩ _))
    split
    next heq => rwa [heq] at h
    next heq => rwa [heq] at h
  next =>
    have h := tracks_expression depthLimit 0 ts
    split
    next heq => rwa [heq] at h
    next heq => rwa [heq] at h

/-- **Reading a program** fails at one of the tokens, or at their end.

**Proof sketch.** Induction on the number of statements that is allowed. A fault of the first one is
at one of the tokens (`tracks_statement`), and so is one of the others, as the tokens that are left
are a suffix. What stands after a statement without a separator is a token too. -/
theorem tracks_statements {n : Nat} {ts : List Placed} {e : Misfit}
    (h : statements n ts = .error e) : ∀ span ∈ e.span?, ∃ p ∈ ts, p.span = span := by
  induction n generalizing ts with
  | zero => cases h
  | succ n ih =>
    unfold statements at h
    have hskip : skipSeparators ts <:+ ts := List.dropWhile_suffix _
    split at h
    next => cases h
    next =>
      have hstatement := (tracks_statement (skipSeparators ts)).mono hskip
      split at h
      next e' he =>
        cases h
        rwa [he] at hstatement
      next => cases h
      next s p rest hread =>
        rw [hread] at hstatement
        split at h
        next =>
          split at h
          next e' he =>
            cases h
            intro span hspan
            obtain ⟨q, hq, hplace⟩ := ih he span hspan
            exact ⟨q, hstatement.subset hq, hplace⟩
          next => cases h
        next =>
          cases h
          rintro span ⟨⟩
          exact ⟨p, hstatement.subset List.mem_cons_self, rfl⟩

/-! ## Programs -/

/-- **The stretch of a departure from the grammar** can be cut out of the code. -/
theorem slices_of_parse_error {code : Text} {f : SyntaxFault} (h : parse code = .error f) :
    f.span.Slices code := by
  unfold parse at h
  split at h
  next fault hfault =>
    cases h
    have hslices : f.span.Slices ([] ++ code) := slices_of_tokensFrom_error hfault
    exact hslices
  next ts hts =>
    split at h
    next => cases h
    next e he =>
      cases h
      cases hspan : e.span? with
      | none =>
        have hend : code.IsBoundary (Text.byteSize code) := ⟨code, [], by simp, rfl⟩
        exact Span.slices_of_boundaries (Nat.le_refl _) hend hend
      | some span =>
        obtain ⟨p, hp, rfl⟩ := tracks_statements he span hspan
        exact (tokenize_eq_ok_iff.1 hts).inOrder.2 p hp

end Weave.Lit
