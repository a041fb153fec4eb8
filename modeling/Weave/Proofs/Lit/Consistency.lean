import Weave.Lit.Session
import Weave.Proofs.Lit.Effectful
import Weave.Proofs.Lit.Joining

set_option autoImplicit false
set_option relaxedAutoImplicit false

/-!
# Blocks that fail

What is written and displayed while a block is run is never taken back, and no capture is begun or
ended. So after a block, whether it failed or not, the captures are those from before. The variables
are those after the last statement that succeeded.

## Main definitions

* `Weave.Lit.Effects.Extends` — effects that go on from others.
* `Weave.Lit.Grows` — a computation whose effects go on from those before it.
* `Weave.Lit.Completes`, `Weave.Lit.Faults` — statements that succeed, and a program of which one
  faults.

## Main results

* `Weave.Lit.evaluate_grows`, `Weave.Lit.runCode_extends` — effects only grow.
* `Weave.Lit.completes_or_faults` — every program succeeds or has a first statement that faults.
* `Weave.Lit.execute_eq` — what is left of a session after a block.
* `Weave.Lit.execute_consistent` — a session stays consistent.

## Design

A block is run with a capture of its own, and this capture is ended after it. That this is the same
one follows from the effects alone: displays are captured after a run if and only if they were
before it.
-/

namespace Weave.Lit

/-! ## Effects that grow -/

/-- **Effects that go on from others**: nothing is taken back, and displays are captured if and only
if they were captured before. -/
structure Effects.Extends (before after : Effects) : Prop where
  output : before.output <+: after.output
  displays : Option.Rel (· <+: ·) before.displays? after.displays?

namespace Effects.Extends

/-- Effects go on from themselves. -/
lemma refl (effects : Effects) : effects.Extends effects where
  output := List.prefix_rfl
  displays := by
    cases effects.displays? with
    | none => exact .none
    | some shown => exact .some List.prefix_rfl

/-- Effects that go on from others go on from those before these. -/
lemma trans {a b c : Effects} (hab : a.Extends b) (hbc : b.Extends c) : a.Extends c where
  output := hab.output.trans hbc.output
  displays := by
    have hfirst := hab.displays
    have hsecond := hbc.displays
    generalize a.displays? = x, b.displays? = y, c.displays? = z at hfirst hsecond
    cases hfirst with
    | none => exact hsecond
    | some h =>
      cases hsecond with
      | some h' => exact .some (List.IsPrefix.trans h h')

/-- Captured displays stay captured. -/
lemma exists_displays?_eq_some {before after : Effects} (h : before.Extends after)
    {shown : List Bundle} (hshown : before.displays? = some shown) :
    ∃ more, after.displays? = some more := by
  have hdisplays := h.displays
  rw [hshown] at hdisplays
  rcases hafter : after.displays? with _ | more
  · rw [hafter] at hdisplays
    cases hdisplays
  · exact ⟨more, rfl⟩

end Effects.Extends

/-! ## Expressions -/

/-- **A computation whose effects go on from those before it**, whether it fails or not. -/
abbrev Grows {ε α : Type} (c : Effectful ε α) : Prop :=
  Leads Effects.Extends c.run

namespace Grows

variable {ε ε' α β : Type}

/-- A computation without effects goes on from those before it. -/
lemma of_pure (a : α) : Grows (pure a : Effectful ε α) :=
  fun effects => .refl effects

/-- A computation that fails at once goes on from the effects before it. -/
lemma of_throw (e : ε) : Grows (throw e : Effectful ε α) :=
  fun effects => .refl effects

/-- Two computations one after the other go on from the effects before them if each of them does. -/
lemma bind {c : Effectful ε α} {k : α → Effectful ε β} (hc : Grows c) (hk : ∀ a, Grows (k a)) :
    Grows (c >>= k) := by
  intro effects
  have hfirst := hc effects
  change effects.Extends ((c >>= k).run effects).2
  rw [run_bind]
  rcases hrun : c.run effects with ⟨e | a, after⟩
  · rw [hrun] at hfirst
    exact hfirst
  · rw [hrun] at hfirst
    exact hfirst.trans (hk a after)

/-- A computation goes on from the effects before it whatever becomes of its faults. -/
lemma adapt {g : ε → ε'} {c : Effectful ε α} (hc : Grows c) : Grows (ExceptT.adapt g c) :=
  hc

end Grows

/-- What is written comes after what was written before. -/
lemma write_grows {ε : Type} (t : Text) : Grows (write t : Effectful ε Unit) :=
  fun effects => ⟨List.prefix_append _ t, (Effects.Extends.refl effects).displays⟩

/-- What is displayed comes after what was displayed or written before. -/
lemma showValue_grows {ε : Type} (v : Value) : Grows (showValue v : Effectful ε Unit) := by
  rintro ⟨output, _ | shown⟩
  · exact ⟨⟨v.repr ++ ['\n'], (List.append_assoc _ _ _).symm⟩, .none⟩
  · have hshown : ((showValue v : Effectful ε Unit).run ⟨output, some shown⟩).2 =
        if v.kind = .unit then ⟨output, some shown⟩
        else ⟨output, some (shown ++ [Bundle.of v.shows])⟩ := rfl
    change Effects.Extends _ ((showValue v : Effectful ε Unit).run ⟨output, some shown⟩).2
    rw [hshown]
    by_cases hunit : v.kind = .unit
    · rw [if_pos hunit]
      exact .refl _
    · rw [if_neg hunit]
      exact ⟨List.prefix_rfl, .some (List.prefix_append _ _)⟩

/-- Taking the one argument of a function goes on from the effects before it. -/
lemma single_grows (name : Text) (args : List Value) : Grows (single name args) := by
  unfold single
  split
  · exact .of_pure _
  · exact .of_throw _

/-- Taking the text of the one argument of a function goes on from the effects before it. -/
lemma singleString_grows (name : Text) (args : List Value) : Grows (singleString name args) := by
  refine (single_grows name args).bind fun v => ?_
  split
  · exact .of_pure _
  · exact .of_throw _

/-- **A call** of a function takes back nothing. -/
lemma call_grows (name : Text) (args : List Value) : Grows (call name args) := by
  unfold call
  cases Builtin.ofName? name with
  | none => exact .of_throw _
  | some f =>
    cases f with
    | print => exact (write_grows _).bind fun _ => .of_pure _
    | printLine => exact (write_grows _).bind fun _ => .of_pure _
    | display =>
      exact (single_grows name args).bind fun v => (showValue_grows v).bind fun _ => .of_pure _
    | markdown | html | svg => exact (singleString_grows name args).bind fun _ => .of_pure _
    | string => exact .of_pure _
    | length =>
      refine (single_grows name args).bind fun v => ?_
      cases v.source? with
      | some t => exact .of_pure _
      | none => exact .of_throw _
    | error => exact (single_grows name args).bind fun _ => .of_throw _

/-- A computation for an expression goes on from the effects before it, too deep or not. -/
lemma within_grows {depth : Nat} {span : Span} {c : Effectful Fault Value} (h : Grows c) :
    Grows (within depth span c) := by
  unfold within
  split
  · exact .of_throw _
  · exact h

/-- Placing the fault of an operation goes on from the effects before it. -/
lemma settle_grows {α : Type} (span : Span) (r : Except RuntimeCause α) :
    Grows (settle span r) := by
  cases r with
  | ok a => exact .of_pure a
  | error cause => exact .of_throw _

/-- Evaluating expressions goes on from the effects before it if evaluating each of them does. -/
lemma evaluateAll_grows {vars : Variables} {depth : Nat} {es : List Expr}
    (h : ∀ e ∈ es, Grows (evaluate vars depth e)) : Grows (evaluateAll vars depth es) := by
  induction es with
  | nil => exact .of_pure []
  | cons e es ih =>
    rw [List.forall_mem_cons] at h
    exact h.1.bind fun v => (ih h.2).bind fun vs => .of_pure (v :: vs)

/-- **An expression** takes back nothing, at whatever depth it is evaluated.

**Proof sketch.** Induction on the expression. Every step of its evaluation grows the effects by
`Grows.bind`: parts by induction, functions by `call_grows`, and values and faults leave the effects
as they are. -/
theorem evaluate_grows (vars : Variables) (depth : Nat) (e : Expr) :
    Grows (evaluate vars depth e) := by
  induction e using Expr.induction generalizing depth with
  | number | string | boolean | unit =>
    rw [evaluate]
    exact within_grows (.of_pure _)
  | ident span name =>
    rw [evaluate]
    refine within_grows ?_
    cases vars.get? name with
    | some v => exact .of_pure v
    | none => exact .of_throw _
  | unary span op operand ih =>
    rw [evaluate]
    exact within_grows ((ih _).bind fun v => settle_grows span (op.apply v))
  | binary span op left right ihl ihr =>
    rw [evaluate]
    refine within_grows ((ihl _).bind fun l => ?_)
    cases op.decided? l with
    | some v => exact .of_pure v
    | none => exact (ihr _).bind fun r => settle_grows span (op.apply l r)
  | conditional span condition yes no ihc ihy ihn =>
    rw [evaluate]
    refine within_grows ((ihc _).bind fun c => ?_)
    split
    · exact ihy _
    · exact ihn _
  | call span name arguments ih =>
    rw [evaluate]
    refine within_grows ((evaluateAll_grows fun a ha => ih a ha _).bind fun args => ?_)
    exact (call_grows name args).adapt

/-! ## Programs -/

/-- **Statements** take back nothing. -/
lemma runStatements_extends (last : Value) (program : Program) (vars : Variables)
    (effects : Effects) : effects.Extends (runStatements last program vars effects).effects := by
  induction program generalizing last vars effects with
  | nil => exact .refl effects
  | cons s rest ih =>
    have hfirst := evaluate_grows vars 0 s.value effects
    rw [runStatements]
    rcases hrun : (evaluate vars 0 s.value).run effects with ⟨fault | v, after⟩
    · rw [hrun] at hfirst
      exact hfirst
    · rw [hrun] at hfirst
      exact hfirst.trans (ih v (s.bind v vars) after)

/-- **A code** takes back nothing. -/
lemma runCode_extends (code : Text) (vars : Variables) (effects : Effects) :
    effects.Extends (runCode code vars effects).effects := by
  unfold runCode
  split
  · exact runStatements_extends _ _ _ _
  · exact .refl effects

/-- **Statements that succeed** one after another, each with the variables that those before it
left. Only an assignment sets a variable, and only its own. -/
inductive Completes : Program → Variables → Effects → Variables → Effects → Prop where
  | nil (vars : Variables) (effects : Effects) : Completes [] vars effects vars effects
  | expression {e : Expr} {rest : Program} {vars vars' : Variables}
      {effects next effects' : Effects} {v : Value}
      (value : (evaluate vars 0 e).run effects = (.ok v, next))
      (more : Completes rest vars next vars' effects') :
      Completes (.expression e :: rest) vars effects vars' effects'
  | assign {span : Span} {name : Text} {e : Expr} {rest : Program} {vars vars' : Variables}
      {effects next effects' : Effects} {v : Value}
      (value : (evaluate vars 0 e).run effects = (.ok v, next))
      (more : Completes rest (vars.set name v) next vars' effects') :
      Completes (.assign span name e :: rest) vars effects vars' effects'

/-- **A program of which a statement faults**, and leaves the variables as they are after the
statements before it. -/
def Faults (program : Program) (vars : Variables) (effects : Effects) (vars' : Variables)
    (fault : Fault) : Prop :=
  ∃ (before : Program) (s : Statement) (rest : Program) (reached last : Effects),
    program = before ++ s :: rest ∧ Completes before vars effects vars' reached ∧
      (evaluate vars' 0 s.value).run reached = (.error fault, last)

/-- A statement that succeeds, with statements that do after it. -/
lemma Completes.cons {s : Statement} {rest : Program} {vars vars' : Variables}
    {effects next effects' : Effects} {v : Value}
    (value : (evaluate vars 0 s.value).run effects = (.ok v, next))
    (more : Completes rest (s.bind v vars) next vars' effects') :
    Completes (s :: rest) vars effects vars' effects' := by
  cases s with
  | assign span name e => exact .assign value more
  | expression e => exact .expression value more

/-- **Every program** succeeds with all of its statements, or one of them faults. -/
theorem completes_or_faults (program : Program) (vars : Variables) (effects : Effects) :
    (∃ vars' effects', Completes program vars effects vars' effects') ∨
      ∃ vars' fault, Faults program vars effects vars' fault := by
  induction program generalizing vars effects with
  | nil => exact .inl ⟨vars, effects, .nil vars effects⟩
  | cons s rest ih =>
    rcases hrun : (evaluate vars 0 s.value).run effects with ⟨fault | v, next⟩
    · exact .inr ⟨vars, fault, [], s, rest, effects, next, rfl, .nil vars effects, hrun⟩
    · rcases ih (s.bind v vars) next with ⟨vars', effects', h⟩ |
        ⟨vars', fault, before, t, more, reached, last, rfl, hbefore, ht⟩
      · exact .inl ⟨vars', effects', .cons hrun h⟩
      · exact .inr ⟨vars', fault, s :: before, t, more, reached, last, rfl, .cons hrun hbefore, ht⟩

/-- **A run of statements that succeed** leaves what they leave one after another. -/
lemma Completes.runStatements_eq {program : Program} {vars vars' : Variables}
    {effects effects' : Effects} (h : Completes program vars effects vars' effects')
    (last : Value) : ∃ v, runStatements last program vars effects = ⟨.ok v, vars', effects'⟩ := by
  induction h generalizing last with
  | nil vars effects => exact ⟨last, rfl⟩
  | @expression e _ _ _ _ _ _ v value _ ih =>
    obtain ⟨w, hrest⟩ := ih v
    exact ⟨w, by rw [runStatements, Statement.value, value]; exact hrest⟩
  | @assign _ _ e _ _ _ _ _ _ v value _ ih =>
    obtain ⟨w, hrest⟩ := ih v
    exact ⟨w, by rw [runStatements, Statement.value, value]; exact hrest⟩

/-- **A run in which a statement faults** leaves the variables as they are after the statements
before it. -/
lemma Faults.runProgram_eq {program : Program} {vars vars' : Variables} {effects : Effects}
    {fault : Fault} (h : Faults program vars effects vars' fault) :
    ∃ last, runProgram program vars effects = ⟨.error fault, vars', last⟩ := by
  obtain ⟨before, s, rest, reached, last, rfl, hbefore, hs⟩ := h
  obtain ⟨v, hrun⟩ := hbefore.runStatements_eq .unit
  refine ⟨last, ?_⟩
  rw [runProgram, runStatements_append, hrun]
  simp only [runStatements, hs]

/-! ## Sessions -/

/-- The effects with which a block begins: nothing was written, and displays are captured. -/
def Effects.fresh : Effects where
  output := []
  displays? := some []

section

variable (code : Text) (s : Session)

/-- **What is left of a session** after a block: its captures, and the variables that the code left.
The block fails if its code does.

**Proof sketch.** The block is run with a new capture on top, and none of the captures is ended by
the code (`runCode_extends`). So the capture that is ended after the run is this one. -/
lemma execute_eq :
    (execute sandbox code s).2 = { s with vars := (runCode code s.vars .fresh).vars } ∧
      (∀ fault, (runCode code s.vars .fresh).outcome = .error fault →
        (execute sandbox code s).1 = .error ⟨code, fault⟩) ∧
      ∀ v, (runCode code s.vars .fresh).outcome = .ok v →
        ∃ done, (execute sandbox code s).1 = .ok done := by
  have hpushed : runCode code s.pushDisplay.vars
      { output := [], displays? := s.pushDisplay.captures.head? } = runCode code s.vars .fresh :=
    rfl
  have hgrows := runCode_extends code s.vars .fresh
  unfold execute sandbox
  simp only [Session.run, Session.popDisplay, hpushed]
  rcases hrun : runCode code s.vars .fresh with ⟨outcome, vars, effects⟩
  rw [hrun] at hgrows
  obtain ⟨shown, hshown⟩ := hgrows.exists_displays?_eq_some rfl
  -- The capture of the block is still the newest one, so it is the one that is ended.
  have hcaptures : effects.displays?.toList ++ s.pushDisplay.captures.tail =
      shown :: s.captures := by
    rw [hshown]
    rfl
  simp only [hcaptures]
  cases outcome with
  | error fault => exact ⟨rfl, by rintro _ ⟨⟩; rfl, nofun⟩
  | ok v => exact ⟨rfl, nofun, fun _ _ => ⟨_, rfl⟩⟩

/-- **A session stays consistent**, whether a block fails or not. The captures are those from before
the block. If the code of the block departs from the grammar, the block does nothing at all. If it
is a program, then the variables are those after its statements, or if one of them faults, those
after the statements before that one.

**Proof sketch.** What the session does is read off `runCode` (`execute_eq`). Without a program this
does nothing. With one it is a run of statements, which completes or faults (`completes_or_faults`),
and each of these says what the variables are. -/
theorem execute_consistent :
    (execute sandbox code s).2.captures = s.captures ∧
    (∀ fault, parse code = .error fault →
      execute sandbox code s = (.error ⟨code, .syntactic fault⟩, s) ∧
      sandbox.run code s.pushDisplay = ⟨.error (.syntactic fault), [], s.pushDisplay⟩) ∧
    ∀ program, parse code = .ok program →
      ((∃ vars effects, Completes program s.vars .fresh vars effects) ∨
        ∃ vars fault, Faults program s.vars .fresh vars fault) ∧
      (∀ vars effects, Completes program s.vars .fresh vars effects →
        (∃ done, (execute sandbox code s).1 = .ok done) ∧ (execute sandbox code s).2.vars = vars) ∧
      ∀ vars fault, Faults program s.vars .fresh vars fault →
        (execute sandbox code s).1 = .error ⟨code, fault⟩ ∧
          (execute sandbox code s).2.vars = vars := by
  obtain ⟨hstate, herror, hok⟩ := execute_eq code s
  refine ⟨by rw [hstate], fun fault hparse => ?_, fun program hparse => ⟨?_, ?_, ?_⟩⟩
  · have hrun : ∀ effects, runCode code s.vars effects =
        ⟨.error (.syntactic fault), s.vars, effects⟩ := by
      intro effects
      rw [runCode, hparse]
    rw [hrun] at hstate herror
    refine ⟨Prod.ext (herror _ rfl) hstate, ?_⟩
    have hpushed : runCode code s.pushDisplay.vars
        { output := [], displays? := s.pushDisplay.captures.head? } =
        ⟨.error (.syntactic fault), s.vars, .fresh⟩ := hrun _
    simp only [sandbox, Session.run, hpushed]
    rfl
  · exact completes_or_faults program s.vars .fresh
  · intro vars effects hcompletes
    obtain ⟨v, hrun⟩ := hcompletes.runStatements_eq .unit
    have hcode : runCode code s.vars .fresh = ⟨.ok v, vars, effects⟩ := by
      rw [runCode, hparse]
      exact hrun
    rw [hcode] at hstate hok
    exact ⟨hok v rfl, by rw [hstate]⟩
  · intro vars fault hfaults
    obtain ⟨last, hrun⟩ := hfaults.runProgram_eq
    have hcode : runCode code s.vars .fresh = ⟨.error fault, vars, last⟩ := by
      rw [runCode, hparse]
      exact hrun
    rw [hcode] at hstate herror
    exact ⟨herror fault rfl, by rw [hstate]⟩

end

/-- A program that prints a string and negates it. -/
def printAndNegate : Program :=
  [.assign ⟨0, 7⟩ "s".toList (.string ⟨4, 7⟩ "a".toList),
    .expression (.call ⟨8, 16⟩ "print".toList [.ident ⟨14, 15⟩ "s".toList]),
    .assign ⟨17, 23⟩ "s".toList (.unary ⟨21, 23⟩ .negation (.ident ⟨22, 23⟩ "s".toList))]

/-- The string that cannot be negated stays in its variable, as it does if it is not negated. A
string without an end does nothing, and a capture that was begun before goes on. -/
theorem execute_consistent_printAndNegate :
    (execute sandbox "s = \"a\"\nprint(s)\ns = -s".toList ⟨[], [[]]⟩).1 =
        .error ⟨"s = \"a\"\nprint(s)\ns = -s".toList,
          .runtime (.wrongKind .number .string) ⟨21, 23⟩⟩ ∧
      (execute sandbox "s = \"a\"\nprint(s)\ns = -s".toList ⟨[], [[]]⟩).2.vars =
        [("s".toList, .string "a".toList)] ∧
      (execute sandbox "s = \"a\"\nprint(s)\ns = -s".toList ⟨[], [[]]⟩).2.captures = [[]] ∧
      (execute sandbox "s = \"a\"\nprint(s)".toList ⟨[], [[]]⟩).2.vars =
        [("s".toList, .string "a".toList)] ∧
      execute sandbox "\"a".toList ⟨[], [[]]⟩ =
        (.error ⟨"\"a".toList, .syntactic ⟨.unterminatedString, ⟨0, 2⟩⟩⟩, ⟨[], [[]]⟩) := by
  have hparse : parse "s = \"a\"\nprint(s)\ns = -s".toList = .ok printAndNegate := by cbv
  have hprint : parse "s = \"a\"\nprint(s)".toList = .ok (printAndNegate.take 2) := by cbv
  have hdeparture : parse "\"a".toList = .error ⟨.unterminatedString, ⟨0, 2⟩⟩ := by cbv
  have hcompletes : Completes (printAndNegate.take 2) [] .fresh [("s".toList, .string "a".toList)]
      ⟨"a".toList, some []⟩ :=
    .assign rfl (.expression rfl (.nil _ _))
  have hfaults : Faults printAndNegate [] .fresh [("s".toList, .string "a".toList)]
      (.runtime (.wrongKind .number .string) ⟨21, 23⟩) :=
    ⟨printAndNegate.take 2, _, [], _, _, rfl, hcompletes, rfl⟩
  obtain ⟨hcaptures, -, hprograms⟩ :=
    execute_consistent "s = \"a\"\nprint(s)\ns = -s".toList ⟨[], [[]]⟩
  obtain ⟨houtcome, hvars⟩ := (hprograms _ hparse).2.2 _ _ hfaults
  exact ⟨houtcome, hvars, hcaptures,
    (((execute_consistent _ ⟨[], [[]]⟩).2.2 _ hprint).2.1 _ _ hcompletes).2,
    ((execute_consistent _ ⟨[], [[]]⟩).2.1 _ hdeparture).1⟩

end Weave.Lit
