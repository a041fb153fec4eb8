import Weave.Proofs.Lit.Joining
import Weave.Proofs.Lit.Layout

set_option autoImplicit false
set_option relaxedAutoImplicit false

/-!
# Variables that a code depends on

A code depends only on variables whose names occur in it: where two sets of variables agree on them,
it has the same value or fault in both, and does the same. It changes only variables that it assigns
to.

## Main definitions

* `Weave.Lit.Expr.Reads` — the variables that occur in an expression.
* `Weave.Lit.names` — the names that occur in a code.
* `Weave.Lit.targets` — the variables that a code assigns to.

## Main results

* `Weave.Lit.evaluate_congr` — an expression depends only on the variables that occur in it.
* `Weave.Lit.mem_names_of_reads` — the variables of a program occur in its code.
* `Weave.Lit.runCode_local` — a code depends only on the names that occur in it.

## Design

Names are told by their tokens, so a word in a string or in a comment is none. The name of a
function is one, though no variable is read where the function is called.
-/

namespace Weave.Lit

/-! ## Variables of an expression -/

namespace Expr

/-- **A variable that occurs in an expression**, at whatever place of it. -/
def Reads (e : Expr) (name : Text) : Prop :=
  ∃ span, (ident span name).OccursIn e

variable {e : Expr} {name : Text}

/-- The variables of an expression are those of its parts, unless it is a variable itself. -/
lemma reads_iff :
    e.Reads name ↔ (∃ span, e = ident span name) ∨ ∃ part ∈ e.parts, part.Reads name := by
  constructor
  · rintro ⟨span, hoccurs⟩
    cases hoccurs with
    | refl => exact .inl ⟨span, rfl⟩
    | part hpart hoccurs => exact .inr ⟨_, hpart, span, hoccurs⟩
  · rintro (⟨span, rfl⟩ | ⟨part, hpart, span, hoccurs⟩)
    · exact ⟨span, .refl _⟩
    · exact ⟨span, .part hpart hoccurs⟩

/-- What a part reads is read by the whole. -/
lemma Reads.of_part {part : Expr} (h : part.Reads name) (hpart : part ∈ e.parts) :
    e.Reads name :=
  reads_iff.2 (.inr ⟨part, hpart, h⟩)

/-- What is no variable itself reads what one of its parts reads. -/
lemma Reads.exists_part (h : e.Reads name) (hne : ∀ span, e ≠ ident span name) :
    ∃ part ∈ e.parts, part.Reads name :=
  (reads_iff.1 h).resolve_left fun ⟨span, heq⟩ => hne span heq

/-- Parentheses make no difference to the variables. -/
lemma Reads.of_withSpan {new : Span} (h : (e.withSpan new).Reads name) : e.Reads name := by
  rcases reads_iff.1 h with ⟨span, heq⟩ | ⟨part, hpart, hreads⟩
  · cases e <;> cases heq
    exact ⟨_, .refl _⟩
  · rw [parts_withSpan] at hpart
    exact hreads.of_part hpart

end Expr

/-! ## Expressions -/

section

variable {a b : Variables}

/-- Expressions that have the same values one by one have the same values together. -/
lemma evaluateAll_congr {depth : Nat} {es : List Expr}
    (h : ∀ e ∈ es, evaluate a depth e = evaluate b depth e) :
    evaluateAll a depth es = evaluateAll b depth es := by
  induction es with
  | nil => rfl
  | cons e es ih =>
    rw [List.forall_mem_cons] at h
    rw [evaluateAll, evaluateAll, h.1, ih h.2]

/-- **An expression depends only on the variables that occur in it**: where they are the same, it
is evaluated in the same way, to the same value or fault and with the same effects.

**Proof sketch.** Induction on the expression. A part reads no more than the whole does, so by
induction it is evaluated in the same way. -/
theorem evaluate_congr {e : Expr} (h : ∀ name, e.Reads name → a.get? name = b.get? name)
    (depth : Nat) : evaluate a depth e = evaluate b depth e := by
  -- A part reads no more than the whole, so the variables agree on what it reads.
  induction e using Expr.induction generalizing depth with
  | number | string | boolean | unit => rw [evaluate, evaluate]
  | ident span name =>
    have hname : a.get? name = b.get? name := h name ⟨span, .refl _⟩
    rw [evaluate, evaluate, hname]
  | unary span op operand ih =>
    have hoperand := ih fun name hreads => h name (hreads.of_part List.mem_cons_self)
    rw [evaluate, evaluate, hoperand]
  | binary span op left right ihl ihr =>
    have hleft := ihl fun name hreads => h name (hreads.of_part (by simp [Expr.parts]))
    have hright := ihr fun name hreads => h name (hreads.of_part (by simp [Expr.parts]))
    rw [evaluate, evaluate, hleft, hright]
  | conditional span condition yes no ihc ihy ihn =>
    have hcondition := ihc fun name hreads => h name (hreads.of_part (by simp [Expr.parts]))
    have hyes := ihy fun name hreads => h name (hreads.of_part (by simp [Expr.parts]))
    have hno := ihn fun name hreads => h name (hreads.of_part (by simp [Expr.parts]))
    rw [evaluate, evaluate, hcondition, hyes, hno]
  | call span name arguments ih =>
    have hall : ∀ e ∈ arguments, evaluate a (depth + 1) e = evaluate b (depth + 1) e :=
      fun e he => ih e he (fun name hreads => h name (hreads.of_part he)) (depth + 1)
    rw [evaluate, evaluate, evaluateAll_congr hall]

end

/-! ## Names of a code -/

/-- The name that a token is. -/
def Token.name? : Token → Option Text
  | .ident name => some name
  | _ => none

/-- The names among tokens. -/
def namesOf (ts : List Placed) : List Text :=
  ts.filterMap fun p => p.token.name?

/-- **The names that occur in a code**, if it consists of tokens. -/
def names (code : Text) : List Text :=
  match tokenize code with
  | .ok ts => namesOf ts
  | .error _ => []

/-- The variable that a statement assigns to. -/
def Statement.target? : Statement → Option Text
  | assign _ name _ => some name
  | expression _ => none

/-- **The variables that a code assigns to**, if it is a program. -/
def targets (code : Text) : List Text :=
  match parse code with
  | .ok program => program.filterMap Statement.target?
  | .error _ => []

section

variable {depth : Nat} {s : Symbol} {ts : List Placed} {e : Expr} {name : Text}

/-- More tokens have more names among them. -/
lemma mem_namesOf_of_subset {more : List Placed} (h : ts ⊆ more) (hname : name ∈ namesOf ts) :
    name ∈ namesOf more :=
  List.filterMap_subset _ h hname

/-- **The variables of an expression** occur among its tokens.

**Proof sketch.** Induction on the derivation. A variable that the expression reads is read by one
of its parts (`Expr.Reads.exists_part`), whose tokens are among those of the expression, or is the
expression itself. -/
theorem Phrase.mem_namesOf (h : Phrase depth s ts e) (hreads : e.Reads name) :
    name ∈ namesOf ts := by
  -- The tokens of every part are among those of the whole.
  induction h with
  | tighter _ _ ih => exact ih hreads
  | conditional question colon _ _ _ ihc ihy ihn =>
    obtain ⟨part, hpart, hname⟩ := hreads.exists_part (by rintro _ ⟨⟩)
    simp only [Expr.parts, List.mem_cons, List.not_mem_nil, or_false] at hpart
    rcases hpart with rfl | rfl | rfl
    · exact mem_namesOf_of_subset (fun p hp => by simp [hp]) (ihc hname)
    · exact mem_namesOf_of_subset (fun p hp => by simp [hp]) (ihy hname)
    · exact mem_namesOf_of_subset (fun p hp => by simp [hp]) (ihn hname)
  | binary op place _ _ ihl ihr =>
    obtain ⟨part, hpart, hname⟩ := hreads.exists_part (by rintro _ ⟨⟩)
    simp only [Expr.parts, List.mem_cons, List.not_mem_nil, or_false] at hpart
    rcases hpart with rfl | rfl
    · exact mem_namesOf_of_subset (fun p hp => by simp [hp]) (ihl hname)
    · exact mem_namesOf_of_subset (fun p hp => by simp [hp]) (ihr hname)
  | unary op place _ ih =>
    obtain ⟨part, hpart, hname⟩ := hreads.exists_part (by rintro _ ⟨⟩)
    cases List.mem_singleton.1 hpart
    exact mem_namesOf_of_subset (List.subset_cons_self _ _) (ih hname)
  | atom _ h =>
    rcases Expr.reads_iff.1 hreads with ⟨span, rfl⟩ | ⟨part, hpart, -⟩
    · cases h
      exact List.mem_cons_self
    · cases h <;> cases hpart
  | call place opening close name' more _ _ ih ihs =>
    obtain ⟨part, hpart, hname⟩ := hreads.exists_part (by rintro _ ⟨⟩)
    rcases List.mem_cons.1 hpart with rfl | hpart
    · exact mem_namesOf_of_subset (fun p hp => by simp [hp]) (ih hname)
    · obtain ⟨a, ha, rfl⟩ := List.mem_map.1 hpart
      refine mem_namesOf_of_subset (fun p hp => ?_) (ihs a ha hname)
      have hplaced : p ∈ more.flatMap FurtherArgument.placed :=
        List.mem_flatMap_of_mem ha (List.mem_cons_of_mem _ hp)
      simp [hplaced]
  | parens opening close _ ih =>
    exact mem_namesOf_of_subset (fun p hp => by simp [hp]) (ih hreads.of_withSpan)

/-- The variables of a statement occur among its tokens. -/
lemma Clause.mem_namesOf {st : Statement} (h : Clause depth ts st) (hreads : st.value.Reads name) :
    name ∈ namesOf ts := by
  cases h with
  | assign place eq target value =>
    exact mem_namesOf_of_subset (fun p hp => by simp [hp]) (value.mem_namesOf hreads)
  | expression value => exact value.mem_namesOf hreads

/-- The variables of the statements of a program occur among its tokens. -/
lemma Clauses.mem_namesOf {program : Program} (h : Clauses depth ts program) {st : Statement}
    (hst : st ∈ program) (hreads : st.value.Reads name) : name ∈ namesOf ts := by
  induction h with
  | nil => cases hst
  | separator place _ ih => exact mem_namesOf_of_subset (List.subset_cons_self _ _) (ih hst)
  | last clause =>
    cases List.mem_singleton.1 hst
    exact clause.mem_namesOf hreads
  | statement place clause _ ih =>
    rcases List.mem_cons.1 hst with rfl | hst
    · exact mem_namesOf_of_subset (fun p hp => by simp [hp]) (clause.mem_namesOf hreads)
    · exact mem_namesOf_of_subset (fun p hp => by simp [hp]) (ih hst)

/-- **The variables of a program** occur in its code. -/
theorem mem_names_of_reads {code : Text} {program : Program} (h : parse code = .ok program)
    {st : Statement} (hst : st ∈ program) (hreads : st.value.Reads name) : name ∈ names code := by
  obtain ⟨ts, hts, hclauses⟩ := parse_eq_ok_iff.1 h
  rw [names, tokenize_eq_ok_iff.2 hts]
  exact hclauses.mem_namesOf hst hreads

end

/-! ## Programs -/

section

variable {a b : Variables}

/-- Where variables were the same they are the same after a statement that has the same value. -/
lemma Statement.get?_bind_eq {name : Text} (h : a.get? name = b.get? name) (s : Statement)
    (v : Value) : (s.bind v a).get? name = (s.bind v b).get? name := by
  cases s with
  | assign span target value => rw [bind, bind, Variables.get?_set, Variables.get?_set, h]
  | expression value => exact h

/-- A statement changes only the variable that it assigns to. -/
lemma Statement.get?_bind_of_ne {name : Text} {s : Statement} (h : s.target? ≠ some name)
    (v : Value) (vars : Variables) : (s.bind v vars).get? name = vars.get? name := by
  cases s with
  | assign span target value =>
    have hne : target ≠ name := fun heq => h (congrArg some heq)
    rw [bind, Variables.get?_set, if_neg hne]
  | expression value => rfl

/-- **Statements depend only on the variables that occur in them**: where these are the same, the
statements have the same value or fault, and the same effects. Where other variables were the same,
they are the same afterwards. -/
theorem runStatements_local {program : Program}
    (h : ∀ s ∈ program, ∀ name, s.value.Reads name → a.get? name = b.get? name) (last : Value)
    (effects : Effects) :
    (runStatements last program a effects).outcome =
        (runStatements last program b effects).outcome ∧
      (runStatements last program a effects).effects =
        (runStatements last program b effects).effects ∧
      ∀ name, a.get? name = b.get? name →
        (runStatements last program a effects).vars.get? name =
          (runStatements last program b effects).vars.get? name := by
  induction program generalizing last a b effects with
  | nil => exact ⟨rfl, rfl, fun name hname => hname⟩
  | cons s rest ih =>
    rw [List.forall_mem_cons] at h
    have hvalue : evaluate a 0 s.value = evaluate b 0 s.value := evaluate_congr h.1 0
    rw [runStatements, runStatements, hvalue]
    rcases (evaluate b 0 s.value).run effects with ⟨fault | v, after⟩
    · exact ⟨rfl, rfl, fun name hname => hname⟩
    · obtain ⟨houtcome, heffects, hvars⟩ := ih (a := s.bind v a) (b := s.bind v b)
        (fun t ht name hreads => s.get?_bind_eq (h.2 t ht name hreads) v) v after
      exact ⟨houtcome, heffects, fun name hname => hvars name (s.get?_bind_eq hname v)⟩

/-- **Statements change only the variables that they assign to.** -/
lemma get?_runStatements {program : Program} {name : Text}
    (h : name ∉ program.filterMap Statement.target?) (last : Value) (vars : Variables)
    (effects : Effects) :
    (runStatements last program vars effects).vars.get? name = vars.get? name := by
  induction program generalizing last vars effects with
  | nil => rfl
  | cons s rest ih =>
    have hs : s.target? ≠ some name := fun heq =>
      h (List.mem_filterMap.2 ⟨s, List.mem_cons_self, heq⟩)
    have hrest : name ∉ rest.filterMap Statement.target? := by
      intro hmem
      obtain ⟨t, ht, htarget⟩ := List.mem_filterMap.1 hmem
      exact h (List.mem_filterMap.2 ⟨t, List.mem_cons_of_mem s ht, htarget⟩)
    rw [runStatements]
    rcases (evaluate vars 0 s.value).run effects with ⟨fault | v, after⟩
    · rfl
    · exact (ih hrest v (s.bind v vars) after).trans (Statement.get?_bind_of_ne hs v vars)

/-! ## Codes -/

/-- **A code changes only the variables that it assigns to.** -/
lemma get?_runCode {code : Text} {name : Text} (h : name ∉ targets code) (vars : Variables)
    (effects : Effects) : (runCode code vars effects).vars.get? name = vars.get? name := by
  unfold targets at h
  unfold runCode
  cases hparse : parse code with
  | error fault => rfl
  | ok program =>
    rw [hparse] at h
    exact get?_runStatements h .unit vars effects

/-- **A code depends only on the names that occur in it.** Where variables agree on them, the code
has the same value or the same fault at the same place, and it writes and displays the same. On
whatever name they agreed before, they agree afterwards. In each, the variables that the code does
not assign to are unchanged.

**Proof sketch.** All names that a program reads occur among the tokens of its code
(`mem_names_of_reads`), so its statements do the same in both and assign the same
(`runStatements_local`). What it does not assign to is kept in each (`get?_runCode`). -/
theorem runCode_local {code : Text} (h : ∀ name ∈ names code, a.get? name = b.get? name)
    (effects : Effects) :
    (runCode code a effects).outcome = (runCode code b effects).outcome ∧
      (runCode code a effects).effects = (runCode code b effects).effects ∧
      (∀ name, a.get? name = b.get? name →
        (runCode code a effects).vars.get? name = (runCode code b effects).vars.get? name) ∧
      ∀ name ∉ targets code,
        (runCode code a effects).vars.get? name = a.get? name ∧
          (runCode code b effects).vars.get? name = b.get? name := by
  have hkept : ∀ name ∉ targets code,
      (runCode code a effects).vars.get? name = a.get? name ∧
        (runCode code b effects).vars.get? name = b.get? name :=
    fun name hname => ⟨get?_runCode hname a effects, get?_runCode hname b effects⟩
  suffices hsame : (runCode code a effects).outcome = (runCode code b effects).outcome ∧
      (runCode code a effects).effects = (runCode code b effects).effects ∧
      ∀ name, a.get? name = b.get? name →
        (runCode code a effects).vars.get? name = (runCode code b effects).vars.get? name from
    ⟨hsame.1, hsame.2.1, hsame.2.2, hkept⟩
  unfold runCode
  cases hparse : parse code with
  | error fault => exact ⟨rfl, rfl, fun name hname => hname⟩
  | ok program =>
    exact runStatements_local
      (fun s hs name hreads => h name (mem_names_of_reads hparse hs hreads)) .unit effects

/-- A code that copies a variable depends on the two names in it. -/
theorem runCode_local_copy :
    (runCode "t = s".toList [("s".toList, .string ['x'])] ⟨[], none⟩).outcome =
        (runCode "t = s".toList [("r".toList, .unit), ("s".toList, .string ['x'])]
          ⟨[], none⟩).outcome ∧
      (runCode "t = s".toList [("r".toList, .unit), ("s".toList, .string ['x'])]
        ⟨[], none⟩).vars.get? "r".toList = some .unit := by
  have hnames : names "t = s".toList = ["t".toList, "s".toList] := by cbv
  have htargets : targets "t = s".toList = ["t".toList] := by cbv
  have h : ∀ name ∈ names "t = s".toList,
      Variables.get? name [("s".toList, .string ['x'])] =
        Variables.get? name [("r".toList, .unit), ("s".toList, .string ['x'])] := by
    rw [hnames]
    rintro _ (_ | ⟨_, _ | ⟨_, ⟨⟩⟩⟩) <;> rfl
  obtain ⟨houtcome, -, -, hkept⟩ := runCode_local h ⟨[], none⟩
  exact ⟨houtcome, (hkept "r".toList (by rw [htargets]; decide)).2⟩

end

end Weave.Lit
