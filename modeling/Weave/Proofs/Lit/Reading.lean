import Weave.Proofs.Lit.Grammar

set_option autoImplicit false
set_option relaxedAutoImplicit false

/-!
# Reading by strength

The parser reads an operand and goes on with the operators after it as long as they bind strongly
enough. The grammar derives expressions layer by layer. The two agree: the parser accepts the
sequences of tokens that the grammar derives without nesting expressions too deep, and returns the
tree of the derivation.

## Main definitions

* `Weave.Lit.Stops` — tokens that do not go on with an expression of some strength.
* `Weave.Lit.Sound` — a reader that returns what the grammar derives.

## Main results

* `Weave.Lit.sound_expression` — what is read as an expression is derived.
-/

namespace Weave.Lit

variable {sub : Nat → List Placed → Reading Expr}

/-! ## What follows an expression -/

/-- The strength of the operator that a token is after an operand. -/
def Token.strength? : Token → Option Nat
  | .question => some conditionalStrength
  | t => (BinaryOp.ofToken? t).map BinaryOp.strength

/-- The token of an operator is as strong as the operator. -/
@[simp] lemma strength?_token (op : BinaryOp) : op.token.strength? = some op.strength := by
  cases op <;> rfl

/-- After an operand, a token is no operator, a question mark, or an operator with two operands. -/
lemma Token.strength?_cases (t : Token) :
    t.strength? = none ∨ t = .question ∨ ∃ op : BinaryOp, t = op.token := by
  cases hop : BinaryOp.ofToken? t with
  | none => cases t <;> first | exact .inl rfl | exact .inr (.inl rfl) | cases hop
  | some op => exact .inr (.inr ⟨op, BinaryOp.token_of_ofToken? hop⟩)

/-- **An expression ends** before tokens if they do not begin with an operator that binds at least
as strongly as `k`. -/
def Stops (k : Nat) (rest : List Placed) : Prop :=
  ∀ t ∈ rest.head?, ∀ j ∈ t.token.strength?, j < k

/-- If no operator of some strength follows, then none of a greater strength does. -/
lemma Stops.mono {j k : Nat} {rest : List Placed} (h : Stops j rest) (hjk : j ≤ k) :
    Stops k rest :=
  fun t ht i hi => Nat.lt_of_lt_of_le (h t ht i hi) hjk

/-- No operator follows at the end of the tokens. -/
lemma stops_nil (k : Nat) : Stops k [] :=
  nofun

/-- An expression ends before an operator that is weaker than it was asked for, and before no other
one. -/
lemma stops_op {k : Nat} {op : BinaryOp} (place : Span) (ts : List Placed) :
    Stops k (⟨op.token, place⟩ :: ts) ↔ op.strength < k := by
  simp [Stops]

/-- An expression ends before a conditional if this is weaker than it was asked for. -/
lemma stops_question {k : Nat} (place : Span) (ts : List Placed) :
    Stops k (⟨.question, place⟩ :: ts) ↔ conditionalStrength < k := by
  simp [Stops, Token.strength?]

/-- An expression ends before a token that is no operator. -/
lemma stops_of_strength?_eq_none {t : Placed} (h : t.token.strength? = none) (k : Nat)
    (ts : List Placed) : Stops k (t :: ts) := by
  simp [Stops, h]

/-- No operator binds more strongly than those before an operand. -/
lemma stops_of_unaryStrength_le {k : Nat} (hk : unaryStrength ≤ k) (rest : List Placed) :
    Stops k rest := by
  cases rest with
  | nil => exact stops_nil k
  | cons t rest =>
    obtain ⟨token, place⟩ := t
    rcases token.strength?_cases with hnone | rfl | ⟨op, rfl⟩
    · exact stops_of_strength?_eq_none hnone k rest
    · exact (stops_question ..).2 (Nat.lt_of_lt_of_le (by decide) hk)
    · have := op.strength_le
      exact (stops_op ..).2 (Nat.lt_of_lt_of_le (by unfold unaryStrength; omega) hk)

/-! ## Steps of reading -/

/-- Reading on at an operator. -/
lemma operators_op (k n : Nat) (left : Expr) (op : BinaryOp) (place : Span) (ts : List Placed) :
    operators sub k (n + 1) left (⟨op.token, place⟩ :: ts) =
      if op.strength < k then .ok (left, ⟨op.token, place⟩ :: ts)
      else
        match rightOperand sub op left ts with
        | .error e => .error e
        | .ok (left, rest) => operators sub k n left rest := by
  cases op <;> rfl

/-- Reading on at a question mark. -/
lemma operators_question (k n : Nat) (left : Expr) (place : Span) (ts : List Placed) :
    operators sub k (n + 1) left (⟨.question, place⟩ :: ts) =
      if conditionalStrength < k then .ok (left, ⟨.question, place⟩ :: ts)
      else
        match branches sub left ts with
        | .error e => .error e
        | .ok (left, rest) => operators sub k n left rest :=
  rfl

/-- Nothing is read on where an expression ends. -/
lemma operators_of_stops {k : Nat} {ts : List Placed} (h : Stops k ts) (n : Nat) (left : Expr) :
    operators sub k n left ts = .ok (left, ts) := by
  cases n with
  | zero => rfl
  | succ n =>
    cases ts with
    | nil => rfl
    | cons t ts =>
      obtain ⟨token, place⟩ := t
      rcases token.strength?_cases with hnone | rfl | ⟨op, rfl⟩
      · cases token <;> first | rfl | cases hnone
      · rw [operators_question, if_pos ((stops_question ..).1 h)]
      · rw [operators_op, if_pos ((stops_op ..).1 h)]

/-- A token that was expected is the first of the tokens. -/
lemma expect_eq_ok {accepts : Token → Bool} {what : Expected} {ts rest : List Placed} {span : Span}
    (h : expect accepts what ts = .ok (span, rest)) :
    ∃ token, accepts token = true ∧ ts = ⟨token, span⟩ :: rest := by
  unfold expect at h
  split at h
  · cases h
  next t ts =>
    split at h
    next ht =>
      cases h
      exact ⟨t.token, ht, rfl⟩
    next => cases h

/-- The test for closing parentheses is right. -/
lemma isRParen_iff {t : Token} : isRParen t = true ↔ t = .rParen := by
  cases t <;> simp [isRParen]

/-- The test for colons is right. -/
lemma isColon_iff {t : Token} : isColon t = true ↔ t = .colon := by
  cases t <;> simp [isColon]

/-! ## What is read is derived -/

/-- **A reader is sound** if it takes a phrase off the front of the tokens, as strong as it was
asked for, and stops where the phrase ends. -/
def Sound (depth : Nat) (sub : Nat → List Placed → Reading Expr) : Prop :=
  ∀ (k : Nat) (ts : List Placed) (e : Expr) (rest : List Placed), k ≤ unaryStrength →
    sub k ts = .ok (e, rest) →
    ∃ s read, ts = read ++ rest ∧ k ≤ s.strength ∧ Phrase depth s read e ∧ Stops k rest

section

variable {depth : Nat} {ts rest : List Placed} {e : Expr}

/-- What is read where any expression may stand. -/
lemma Sound.expr (hsub : Sound depth sub) {k : Nat} (hk : k ≤ conditionalStrength)
    (h : sub k ts = .ok (e, rest)) :
    ∃ read, ts = read ++ rest ∧ Phrase depth .expr read e ∧ Stops k rest := by
  obtain ⟨s, read, hts, -, hphrase, hstops⟩ := hsub k ts e rest (Nat.le_trans hk (by decide)) h
  exact ⟨read, hts, hphrase.loosen s.strength_expr_le, hstops⟩

/-- A unary operator and what is read as its operand are a phrase. -/
lemma unaryOperand_sound (hsub : Sound depth sub) {op : UnaryOp} {place : Span}
    (h : unaryOperand sub op place ts = .ok (e, rest)) :
    ∃ read, ⟨op.token, place⟩ :: ts = read ++ rest ∧ Phrase (depth + 1) .unary read e := by
  unfold unaryOperand at h
  split at h
  next => cases h
  next operand rest' hoperand =>
    cases h
    obtain ⟨s, read, hts, hk, hphrase, -⟩ := hsub _ _ _ _ (Nat.le_refl _) hoperand
    exact ⟨⟨op.token, place⟩ :: read, by rw [hts, List.cons_append],
      .unary op place (hphrase.loosen hk)⟩

/-- What is read as the right operand is a phrase of the next tighter symbol. -/
lemma rightOperand_sound (hsub : Sound depth sub) {op : BinaryOp} {left : Expr}
    (h : rightOperand sub op left ts = .ok (e, rest)) :
    ∃ read right, ts = read ++ rest ∧ Phrase depth op.rightSymbol read right ∧
      e = .binary ⟨left.span.start, right.span.stop⟩ op left right ∧
      Stops (op.strength + 1) rest := by
  unfold rightOperand at h
  split at h
  next => cases h
  next right rest' hright =>
    cases h
    have hle := op.strength_le
    obtain ⟨s, read, hts, hk, hphrase, hstops⟩ :=
      hsub _ _ _ _ (by unfold unaryStrength; omega) hright
    -- The strengths are even, so what binds more strongly than the operator binds by two more.
    have hnext := Symbol.strength_of_tighter? op.tighter?_symbol
    have heven := Symbol.strength_le_of_lt (s := op.symbol) (t := s)
      (by simpa using Nat.lt_of_succ_le hk)
    exact ⟨read, right, hts, hphrase.loosen (by omega), rfl, hstops⟩

/-- What is read as branches are two phrases with a colon between them. -/
lemma branches_sound (hsub : Sound depth sub) {c : Expr}
    (h : branches sub c ts = .ok (e, rest)) :
    ∃ ys ns colon y n, ts = ys ++ ⟨.colon, colon⟩ :: (ns ++ rest) ∧ Phrase depth .expr ys y ∧
      Phrase depth .expr ns n ∧ e = .conditional ⟨c.span.start, n.span.stop⟩ c y n ∧
      Stops conditionalStrength rest := by
  unfold branches at h
  split at h
  next => cases h
  next y rest₁ hyes =>
    split at h
    next => cases h
    next colon rest₂ hcolon =>
      split at h
      next => cases h
      next n rest₃ hno =>
        cases h
        obtain ⟨ys, rfl, hys, -⟩ := hsub.expr (Nat.zero_le _) hyes
        obtain ⟨token, htoken, rfl⟩ := expect_eq_ok hcolon
        obtain ⟨ns, rfl, hns, hstops⟩ := hsub.expr (Nat.le_refl _) hno
        rw [isColon_iff.1 htoken]
        exact ⟨ys, ns, colon, y, n, rfl, hys, hns, rfl, hstops⟩

/-- What is read as arguments are phrases with commas between them, up to a parenthesis.

**Proof sketch.** Induction on the number of arguments. The first one is a phrase; after it stands a
comma, and more arguments follow by induction, or a parenthesis. -/
lemma argumentList_sound (hsub : Sound depth sub) {n stop : Nat} {arguments : List Expr}
    (h : argumentList sub n ts = .ok ((arguments, stop), rest)) :
    ∃ (first : List Placed) (e : Expr) (more : List FurtherArgument) (close : Span),
      ts = first ++ (more.flatMap FurtherArgument.placed ++ ⟨.rParen, close⟩ :: rest) ∧
      arguments = e :: more.map FurtherArgument.value ∧ stop = close.stop ∧
      Phrase depth .expr first e ∧ ∀ a ∈ more, Phrase depth .expr a.tokens a.value := by
  induction n generalizing ts arguments with
  | zero => cases h
  | succ n ih =>
    unfold argumentList at h
    split at h
    next => cases h
    next argument rest₁ hargument =>
      obtain ⟨first, rfl, hfirst, -⟩ := hsub.expr (Nat.zero_le _) hargument
      split at h
      next comma rest₂ =>
        split at h
        next => cases h
        next others stop' rest₃ hothers =>
          cases h
          obtain ⟨second, e, more, close, rfl, rfl, rfl, hsecond, hmore⟩ := ih hothers
          refine ⟨first, argument, ⟨comma, second, e⟩ :: more, close, ?_, rfl, rfl, hfirst, ?_⟩
          · simp [FurtherArgument.placed]
          · rw [List.forall_mem_cons]
            exact ⟨hsecond, hmore⟩
      next =>
        split at h
        next => cases h
        next close rest₂ hclose =>
          cases h
          obtain ⟨token, htoken, rfl⟩ := expect_eq_ok hclose
          rw [isRParen_iff.1 htoken]
          exact ⟨first, argument, [], close, rfl, rfl, rfl, hfirst,
            List.forall_mem_nil _⟩

/-- A name and what is read after it are a variable or a call. -/
lemma afterName_sound (hsub : Sound depth sub) {name : Text} {place : Span}
    (h : afterName sub name place ts = .ok (e, rest)) :
    ∃ read, ⟨.ident name, place⟩ :: ts = read ++ rest ∧ Phrase (depth + 1) .primary read e := by
  unfold afterName at h
  split at h
  next close ts =>
    cases h
    exact ⟨_, rfl, .atom depth (.callUnit place close name)⟩
  next opening close ts =>
    cases h
    exact ⟨_, rfl, .atom depth (.callNone place opening close name)⟩
  next opening ts _ =>
    split at h
    next => cases h
    next arguments stop rest' hlist =>
      cases h
      obtain ⟨first, e, more, close, rfl, rfl, rfl, hfirst, hmore⟩ := argumentList_sound hsub hlist
      exact ⟨_, by simp, .call place opening close name more hfirst hmore⟩
  next =>
    cases h
    exact ⟨_, rfl, .atom depth (.ident place name)⟩

/-- An opening parenthesis and what is read after it are a phrase in parentheses. -/
lemma parenthesized_sound (hsub : Sound depth sub) {place : Span}
    (h : parenthesized sub place ts = .ok (e, rest)) :
    ∃ read, ⟨.lParen, place⟩ :: ts = read ++ rest ∧ Phrase (depth + 1) .primary read e := by
  unfold parenthesized at h
  split at h
  next close ts =>
    cases h
    exact ⟨_, rfl, .atom depth (.emptyParens place close)⟩
  next =>
    split at h
    next => cases h
    next inner rest₁ hinner =>
      split at h
      next => cases h
      next close rest₂ hclose =>
        cases h
        obtain ⟨read, rfl, hphrase, -⟩ := hsub.expr (Nat.zero_le _) hinner
        obtain ⟨token, htoken, rfl⟩ := expect_eq_ok hclose
        rw [isRParen_iff.1 htoken]
        exact ⟨_, by simp, .parens place close hphrase⟩

/-- **What is read as an operand** is derived as one.

**Proof sketch.** By the first token, which says of what kind the operand is. All but the ones with
an operator in front are primary, and so operands too. -/
lemma operand_sound (hsub : Sound depth sub) (h : operand sub ts = .ok (e, rest)) :
    ∃ read, ts = read ++ rest ∧ Phrase (depth + 1) .unary read e := by
  have hprimary {read : List Placed} {e : Expr} (h : Phrase (depth + 1) .primary read e) :
      Phrase (depth + 1) .unary read e := .tighter rfl h
  unfold operand at h
  split at h
  next => cases h
  next token place ts =>
    split at h
    next x =>
      cases h
      exact ⟨_, rfl, hprimary (.atom depth (.number place x))⟩
    next t =>
      cases h
      exact ⟨_, rfl, hprimary (.atom depth (.string place t))⟩
    next =>
      cases h
      exact ⟨_, rfl, hprimary (.atom depth (.true place))⟩
    next =>
      cases h
      exact ⟨_, rfl, hprimary (.atom depth (.false place))⟩
    next =>
      cases h
      exact ⟨_, rfl, hprimary (.atom depth (.unit place))⟩
    next name =>
      obtain ⟨read, hread, hphrase⟩ := afterName_sound hsub h
      exact ⟨read, hread, hprimary hphrase⟩
    next => exact unaryOperand_sound hsub h
    next => exact unaryOperand_sound hsub h
    next =>
      obtain ⟨read, hread, hphrase⟩ := parenthesized_sound hsub h
      exact ⟨read, hread, hprimary hphrase⟩
    next => cases h

/-- **Reading on keeps a phrase.** If what was read so far is a phrase, and an operator after it
would not have been a part of it, then what is read in the end is a phrase of the strength asked
for.

**Proof sketch.** By the number of operators. An operator that is taken binds no more strongly than
the phrase before it, so this is an operand of its layer, and the right operand ends where the layer
ends. After a conditional nothing is left to be read. -/
lemma operators_sound (hsub : Sound depth sub) {k n : Nat} {left : Expr} {s : Symbol}
    {before : List Placed} (hleft : Phrase (depth + 1) s before left) (hk : k ≤ s.strength)
    (hguard : Stops s.guard ts) (hn : ts.length ≤ n)
    (h : operators sub k n left ts = .ok (e, rest)) :
    ∃ t read, ts = read ++ rest ∧ k ≤ t.strength ∧ Phrase (depth + 1) t (before ++ read) e ∧
      Stops k rest := by
  induction hlen : ts.length using Nat.strongRecOn generalizing n ts left s before with
  | ind m ih =>
    by_cases hstops : Stops k ts
    · rw [operators_of_stops hstops] at h
      cases h
      exact ⟨s, [], rfl, hk, by rwa [List.append_nil], hstops⟩
    cases ts with
    | nil => exact absurd (stops_nil k) hstops
    | cons p ts =>
      obtain ⟨n, rfl⟩ := Nat.exists_eq_add_of_le' (Nat.le_trans (Nat.le_add_left 1 _) hn)
      rw [List.length_cons] at hn hlen
      obtain ⟨token, place⟩ := p
      rcases token.strength?_cases with hnone | rfl | ⟨op, rfl⟩
      · exact absurd (stops_of_strength?_eq_none hnone k ts) hstops
      · rw [operators_question, if_neg (mt (stops_question ..).2 hstops)] at h
        split at h
        next => cases h
        next left' ts' hbranches =>
          obtain ⟨ys, ns, colon, y, no, rfl, hys, hns, rfl, hends⟩ := branches_sound hsub hbranches
          have hcondition : Phrase (depth + 1) .disjunction before left := by
            have hlt : 2 < s.guard := (stops_question ..).1 hguard
            exact hleft.loosen (by cases s <;> revert hlt <;> decide)
          have hlt : ts'.length < m := by
            simp only [List.length_append, List.length_cons] at hlen
            omega
          obtain ⟨t, read, rfl, ht, hphrase, hrest⟩ :=
            ih _ hlt (.conditional place colon hcondition hys hns)
              (Nat.le_of_not_lt (mt (stops_question ..).2 hstops)) hends (by omega) h rfl
          exact ⟨t, ⟨.question, place⟩ :: (ys ++ ⟨.colon, colon⟩ :: ns) ++ read, by simp, ht,
            by simpa using hphrase, hrest⟩
      · rw [operators_op, if_neg (mt (stops_op ..).2 hstops)] at h
        split at h
        next => cases h
        next left' ts' hright =>
          obtain ⟨rs, right, rfl, hrs, rfl, hends⟩ := rightOperand_sound hsub hright
          have hoperand : Phrase (depth + 1) op.symbol before left := by
            have hlt := (stops_op ..).1 hguard
            have := op.two_lt_strength
            refine hleft.loosen ?_
            rw [op.strength_symbol]
            cases s <;> simp only [Symbol.guard, conditionalStrength] at hlt <;> omega
          have hlt : ts'.length < m := by
            rw [List.length_append] at hlen
            omega
          obtain ⟨t, read, rfl, ht, hphrase, hrest⟩ :=
            ih _ hlt (.binary op place hoperand hrs)
              (by simpa using Nat.le_of_not_lt (mt (stops_op ..).2 hstops)) (by simpa using hends)
              (by omega) h rfl
          exact ⟨t, ⟨op.token, place⟩ :: rs ++ read, by simp, ht, by simpa using hphrase, hrest⟩

end

/-- **What is read as an expression** is derived. -/
theorem sound_expression (depth : Nat) : Sound depth (expression depth) := by
  induction depth with
  | zero => exact fun k ts e rest _ h => by cases h
  | succ depth ih =>
    intro k ts e rest hk h
    rw [expression] at h
    split at h
    next => cases h
    next left rest' hleft =>
      obtain ⟨read, rfl, hphrase⟩ := operand_sound ih hleft
      obtain ⟨t, more, rfl, ht, hmore, hrest⟩ := operators_sound ih hphrase hk
        (stops_of_unaryStrength_le (by decide) _) (Nat.le_refl _) h
      exact ⟨t, read ++ more, by rw [List.append_assoc], ht, hmore, hrest⟩

/-! ## What is derived is read -/

/-- Tokens that are not the arguments of a call when they follow its name. -/
def NoArguments (rest : List Placed) : Prop :=
  ∀ t ∈ rest.head?, t.token ≠ .unit ∧ t.token ≠ .lParen

/-- **Tokens before which every expression ends.** -/
def Ends (rest : List Placed) : Prop :=
  Stops 0 rest ∧ NoArguments rest

/-- An expression ends at the end of the tokens. -/
lemma ends_nil : Ends [] :=
  ⟨stops_nil 0, nofun⟩

/-- An expression ends before a token that is no operator and begins no arguments. -/
lemma ends_cons {token : Token} (place : Span) (ts : List Placed) (hop : token.strength? = none)
    (hunit : token ≠ .unit) (hparen : token ≠ .lParen) : Ends (⟨token, place⟩ :: ts) :=
  ⟨stops_of_strength?_eq_none hop 0 ts, by simp [NoArguments, hunit, hparen]⟩

/-- An expression ends before a comma. -/
lemma ends_comma (place : Span) (ts : List Placed) : Ends (⟨.comma, place⟩ :: ts) :=
  ends_cons place ts rfl nofun nofun

/-- An expression ends before a colon. -/
lemma ends_colon (place : Span) (ts : List Placed) : Ends (⟨.colon, place⟩ :: ts) :=
  ends_cons place ts rfl nofun nofun

/-- An expression ends before a closing parenthesis. -/
lemma ends_rParen (place : Span) (ts : List Placed) : Ends (⟨.rParen, place⟩ :: ts) :=
  ends_cons place ts rfl nofun nofun

/-- Arguments do not begin with an operator. -/
lemma noArguments_op (op : BinaryOp) (place : Span) (ts : List Placed) :
    NoArguments (⟨op.token, place⟩ :: ts) := by
  cases op <;> simp [NoArguments, BinaryOp.token]

/-- Arguments do not begin with a question mark. -/
lemma noArguments_question (place : Span) (ts : List Placed) :
    NoArguments (⟨.question, place⟩ :: ts) := by
  simp [NoArguments]

section

variable {depth : Nat} {ts rest : List Placed} {e : Expr}

/-- **The number of operators** that is allowed makes no difference if there are no more tokens.

**Proof sketch.** Strong induction on the number of tokens. Reading stops, or an operator and its
right operand are read. These are some of the tokens, so fewer are left and the induction hypothesis
applies. -/
lemma operators_congr (hsub : Sound depth sub) {k n m : Nat} {left : Expr} (hn : ts.length ≤ n)
    (hm : ts.length ≤ m) : operators sub k n left ts = operators sub k m left ts := by
  induction hlen : ts.length using Nat.strongRecOn generalizing n m left ts with
  | ind l ih =>
    by_cases hstops : Stops k ts
    · rw [operators_of_stops hstops, operators_of_stops hstops]
    cases ts with
    | nil => exact absurd (stops_nil k) hstops
    | cons p ts =>
      obtain ⟨n, rfl⟩ := Nat.exists_eq_add_of_le' (Nat.le_trans (Nat.le_add_left 1 _) hn)
      obtain ⟨m, rfl⟩ := Nat.exists_eq_add_of_le' (Nat.le_trans (Nat.le_add_left 1 _) hm)
      rw [List.length_cons] at hn hm hlen
      obtain ⟨token, place⟩ := p
      rcases token.strength?_cases with hnone | rfl | ⟨op, rfl⟩
      · exact absurd (stops_of_strength?_eq_none hnone k ts) hstops
      · rw [operators_question, operators_question]
        split
        · rfl
        cases hbranches : branches sub left ts with
        | error => rfl
        | ok r =>
          obtain ⟨_, _, _, _, _, hts, -⟩ := branches_sound hsub hbranches
          have hlt : r.2.length < ts.length := by simp [hts]; omega
          exact ih _ (by omega) (by omega) (by omega) rfl
      · rw [operators_op, operators_op]
        split
        · rfl
        cases hright : rightOperand sub op left ts with
        | error => rfl
        | ok r =>
          obtain ⟨_, _, hts, -⟩ := rightOperand_sound hsub hright
          have hle : r.2.length ≤ ts.length := by simp [hts]
          exact ih _ (by omega) (by omega) (by omega) rfl

/-- An operator that binds strongly enough is taken with its right operand. -/
lemma operators_taken (hsub : Sound depth sub) {k : Nat} {op : BinaryOp} {left : Expr}
    (place : Span) (hk : k ≤ op.strength) (h : rightOperand sub op left ts = .ok (e, rest)) :
    operators sub k (ts.length + 1) left (⟨op.token, place⟩ :: ts) =
      operators sub k rest.length e rest := by
  obtain ⟨_, _, hts, -⟩ := rightOperand_sound hsub h
  rw [operators_op, if_neg (Nat.not_lt.2 hk), h]
  exact operators_congr hsub (by simp [hts]) (Nat.le_refl _)

/-- A question mark is taken with its branches. -/
lemma operators_question_taken (hsub : Sound depth sub) {k : Nat} {left : Expr} (place : Span)
    (hk : k ≤ conditionalStrength) (h : branches sub left ts = .ok (e, rest)) :
    operators sub k (ts.length + 1) left (⟨.question, place⟩ :: ts) =
      operators sub k rest.length e rest := by
  obtain ⟨_, _, _, _, _, hts, -⟩ := branches_sound hsub h
  rw [operators_question, if_neg (Nat.not_lt.2 hk), h]
  exact operators_congr hsub (by simp [hts]; omega) (Nat.le_refl _)

/-- What is read as an operand is read on as an expression. -/
lemma expression_of_operand {k : Nat} (h : operand (expression depth) ts = .ok (e, rest)) :
    expression (depth + 1) k ts = operators (expression depth) k rest.length e rest := by
  rw [expression, h]

/-- An atom is read as an operand. -/
lemma operand_atom (h : Atom ts e) (hrest : NoArguments rest) :
    operand sub (ts ++ rest) = .ok (e, rest) := by
  cases h with
  | ident place name =>
    cases rest with
    | nil => rfl
    | cons t rest =>
      obtain ⟨hunit, hparen⟩ := hrest t rfl
      obtain ⟨token, span⟩ := t
      cases token <;> first | rfl | exact absurd rfl hunit | exact absurd rfl hparen
  | _ => rfl

/-- There are at least as many tokens as further arguments. -/
lemma length_le_flatMap_placed (more : List FurtherArgument) :
    more.length ≤ (more.flatMap FurtherArgument.placed).length := by
  induction more with
  | nil => exact Nat.le_refl _
  | cons a more ih =>
    simp only [List.flatMap_cons, FurtherArgument.placed, List.length_append, List.length_cons]
    omega

/-- Arguments are read up to the closing parenthesis if each of them is read.

**Proof sketch.** Induction on the further arguments. What follows an argument is a comma or the
parenthesis, and both end it. -/
lemma argumentList_eq_ok {first : List Placed} {more : List FurtherArgument} {n : Nat}
    (close : Span) (rest : List Placed)
    (hfirst : ∀ rest, Ends rest → sub 0 (first ++ rest) = .ok (e, rest))
    (hmore : ∀ a ∈ more, ∀ rest, Ends rest → sub 0 (a.tokens ++ rest) = .ok (a.value, rest))
    (hn : more.length < n) :
    argumentList sub n
        (first ++ (more.flatMap FurtherArgument.placed ++ ⟨.rParen, close⟩ :: rest)) =
      .ok ((e :: more.map FurtherArgument.value, close.stop), rest) := by
  induction more generalizing first e n with
  | nil =>
    obtain ⟨n, rfl⟩ := Nat.exists_eq_succ_of_ne_zero (Nat.ne_of_gt (Nat.zero_lt_of_lt hn))
    rw [List.flatMap_nil, List.nil_append, argumentList, hfirst _ (ends_rParen close rest)]
    rfl
  | cons a more ih =>
    rw [List.forall_mem_cons] at hmore
    obtain ⟨n, rfl⟩ := Nat.exists_eq_succ_of_ne_zero (Nat.ne_of_gt (Nat.zero_lt_of_lt hn))
    have hothers := ih hmore.1 hmore.2 (Nat.lt_of_succ_lt_succ hn)
    have hplaced :
        first ++ ((a :: more).flatMap FurtherArgument.placed ++ ⟨.rParen, close⟩ :: rest) =
        first ++ ⟨.comma, a.comma⟩ ::
          (a.tokens ++ (more.flatMap FurtherArgument.placed ++ ⟨.rParen, close⟩ :: rest)) := by
      simp [FurtherArgument.placed]
    rw [hplaced, argumentList, hfirst _ (ends_comma a.comma _)]
    dsimp only
    rw [hothers]
    rfl

/-- A name, an opening parenthesis and something else than a closing one begin a call. -/
lemma afterName_lParen (name : Text) (place opening : Span) {p : Placed}
    (hp : p.token ≠ .rParen) (more : List Placed) :
    afterName sub name place (⟨.lParen, opening⟩ :: p :: more) =
      match argumentList sub (more.length + 2) (p :: more) with
      | .error e => .error e
      | .ok ((arguments, stop), rest) => .ok (.call ⟨place.start, stop⟩ name arguments, rest) := by
  obtain ⟨token, span⟩ := p
  cases token <;> first | rfl | exact absurd rfl hp

/-- An opening parenthesis and something else than a closing one begin an expression in
parentheses. -/
lemma parenthesized_cons (place : Span) {p : Placed} (hp : p.token ≠ .rParen)
    (more : List Placed) :
    parenthesized sub place (p :: more) =
      match sub 0 (p :: more) with
      | .error e => .error e
      | .ok (inner, rest) =>
        match expect isRParen .closingParen rest with
        | .error e => .error e
        | .ok (close, rest) => .ok (inner.withSpan ⟨place.start, close.stop⟩, rest) := by
  obtain ⟨token, span⟩ := p
  cases token <;> first | rfl | exact absurd rfl hp

end

/-- **A phrase is read** up to its end, and what follows is read on, if it would not have been a
part of the phrase.

**Proof sketch.** By the derivation. A phrase of a layer begins with a phrase of that layer or a
tighter one, so the operator after this is met while reading on, with the phrase as left operand. -/
theorem Phrase.expression_append {depth : Nat} {s : Symbol} {ts : List Placed} {e : Expr}
    (h : Phrase depth s ts e) {k : Nat} (hk : k ≤ s.strength) (hu : k ≤ unaryStrength)
    {rest : List Placed} (hguard : Stops s.guard rest) (hcall : NoArguments rest) :
    expression depth k (ts ++ rest) =
      operators (expression (depth - 1)) k rest.length e rest := by
  induction h generalizing k rest with
  | tighter next _ ih =>
    have hnext := Symbol.strength_of_tighter? next
    exact ih (by omega) hu (hguard.mono (Symbol.guard_le_of_tighter? next)) hcall
  | @conditional depth cs ys ns c y n question colon _ _ _ ihc ihy ihn =>
    have hcolon := ends_colon colon (ns ++ rest)
    have hyes := ihy (Nat.zero_le _) (Nat.zero_le _) (hcolon.1.mono (Nat.zero_le _)) hcolon.2
    rw [operators_of_stops hcolon.1] at hyes
    have hends : Stops conditionalStrength rest := hguard
    have hno := ihn (Nat.le_refl conditionalStrength) (by decide) hguard hcall
    rw [operators_of_stops hends] at hno
    have hbranches : branches (expression depth) c (ys ++ ⟨.colon, colon⟩ :: (ns ++ rest)) =
        .ok (.conditional ⟨c.span.start, n.span.stop⟩ c y n, rest) := by
      simp [branches, hyes, hno, expect, isColon]
    have hcondition := ihc (Nat.le_trans hk (by decide)) hu
      ((stops_question question (ys ++ ⟨.colon, colon⟩ :: (ns ++ rest))).2 (by decide))
      (noArguments_question _ _)
    rw [List.append_assoc, List.cons_append, List.append_assoc, List.cons_append, hcondition]
    exact operators_question_taken (sound_expression depth) question hk hbranches
  | @binary depth ls rs l r op place _ _ ihl ihr =>
    rw [op.strength_symbol] at hk ihl
    rw [op.guard_symbol] at hguard ihl
    have hnext := Symbol.strength_of_tighter? op.tighter?_symbol
    rw [op.strength_symbol] at hnext
    have hguards := Symbol.guard_le_of_tighter? op.tighter?_symbol
    rw [op.guard_symbol] at hguards
    have hweak := op.strength_le
    have hright := ihr (show op.strength + 1 ≤ _ by omega) (by unfold unaryStrength; omega)
      (hguard.mono hguards) hcall
    rw [operators_of_stops hguard] at hright
    have htaken : rightOperand (expression depth) op l (rs ++ rest) =
        .ok (.binary ⟨l.span.start, r.span.stop⟩ op l r, rest) := by
      rw [rightOperand, hright]
    have hleft := ihl hk hu ((stops_op place (rs ++ rest)).2 (Nat.lt_succ_self _))
      (noArguments_op op place _)
    rw [List.append_assoc, List.cons_append, hleft]
    exact operators_taken (sound_expression depth) place hk htaken
  | @unary depth ts e op place _ ih =>
    have hread := ih (Nat.le_refl unaryStrength) (Nat.le_refl _) hguard hcall
    rw [operators_of_stops (stops_of_unaryStrength_le (Nat.le_refl _) rest)] at hread
    have hoperand : unaryOperand (expression depth) op place (ts ++ rest) =
        .ok (.unary ⟨place.start, e.span.stop⟩ op e, rest) := by
      rw [unaryOperand, hread]
    exact expression_of_operand (by cases op <;> exact hoperand)
  | atom depth hatom => exact expression_of_operand (operand_atom hatom hcall)
  | @call depth first e place opening close name more hfirst _ ih ihs =>
    have hreads {ts : List Placed} {e : Expr}
        (ih : ∀ {k : Nat}, k ≤ Symbol.expr.strength → k ≤ unaryStrength → ∀ {rest : List Placed},
          Stops Symbol.expr.guard rest → NoArguments rest →
          expression depth k (ts ++ rest) = operators (expression (depth - 1)) k rest.length e rest)
        (rest : List Placed) (hends : Ends rest) :
        expression depth 0 (ts ++ rest) = .ok (e, rest) := by
      have hread := ih (Nat.zero_le _) (Nat.zero_le _) (hends.1.mono (Nat.zero_le _)) hends.2
      rwa [operators_of_stops hends.1] at hread
    obtain ⟨p, others, rfl, hp⟩ := hfirst.head
    refine expression_of_operand ?_
    simp only [List.cons_append, List.append_assoc, List.nil_append]
    refine (afterName_lParen name place opening hp _).trans ?_
    have hcount : more.length < (others ++
        (more.flatMap FurtherArgument.placed ++ ⟨.rParen, close⟩ :: rest)).length + 2 := by
      have := length_le_flatMap_placed more
      simp only [List.length_append]
      omega
    have hlist := argumentList_eq_ok close rest (hreads ih) (fun a ha => hreads (ihs a ha)) hcount
    rw [List.cons_append] at hlist
    rw [hlist]
  | @parens depth ts e opening close hinner ih =>
    have hclose := ends_rParen close rest
    have hread := ih (Nat.zero_le _) (Nat.zero_le _) (hclose.1.mono (Nat.zero_le _)) hclose.2
    rw [operators_of_stops hclose.1] at hread
    obtain ⟨p, others, rfl, hp⟩ := hinner.head
    refine expression_of_operand ?_
    simp only [List.cons_append, List.append_assoc, List.nil_append]
    refine (parenthesized_cons opening hp _).trans ?_
    rw [List.cons_append] at hread
    rw [hread]
    rfl

/-- **A phrase is read** as an expression if every expression ends after it. -/
theorem Phrase.expression_eq_ok {depth : Nat} {ts : List Placed} {e : Expr}
    (h : Phrase depth .expr ts e) {rest : List Placed} (hends : Ends rest) :
    expression depth 0 (ts ++ rest) = .ok (e, rest) := by
  rw [h.expression_append (Nat.zero_le _) (Nat.zero_le _) (hends.1.mono (Nat.zero_le _)) hends.2,
    operators_of_stops hends.1]

end Weave.Lit
