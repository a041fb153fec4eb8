import Weave.Notebook.Execution
import Weave.Proofs.Lit.SyntaxSpans
import Weave.Proofs.Page.Groups

set_option autoImplicit false
set_option relaxedAutoImplicit false

/-!
# Where faults are

A fault points at a stretch of the code that it is reported with. While a program is run, this is
the stretch of one of its expressions; if the code is no program, it is where the code departs from
the grammar. Either can be cut out of the code, whether the code is that of a page or that of a
notebook.

## Main definitions

* `Weave.Lit.Fault.PointsInto` — a fault that points at a part of an expression.
* `Weave.Lit.negatedString` — a program whose fault ends behind a character of two bytes.

## Main results

* `Weave.Lit.evaluate_pointsInto` — the faults of an expression point at its parts.
* `Weave.Lit.slices_of_execute_error` — what a fault of a block points at is in the block.
* `Weave.Lit.spans_slice_code` — all stretches can be cut out of the code that they come with.
-/

namespace Weave.Lit

/-! ## Expressions -/

/-- **A fault that points at a part of an expression**, or at the expression itself. -/
def Fault.PointsInto (e : Expr) (fault : Fault) : Prop :=
  ∃ (cause : RuntimeCause) (sub : Expr), sub.OccursIn e ∧ fault = .runtime cause sub.span

section

variable {depth : Nat} {e : Expr}

/-- A fault at an expression points at a part of it. -/
lemma pointsInto_self (e : Expr) (cause : RuntimeCause) :
    Fault.PointsInto e (.runtime cause e.span) :=
  ⟨cause, e, .refl e, rfl⟩

/-- The faults of a part are faults of the whole. -/
lemma FailsWith.of_part {α : Type} {part : Expr} {c : Effectful Fault α}
    (h : FailsWith (Fault.PointsInto part) c) (hpart : part ∈ e.parts) :
    FailsWith (Fault.PointsInto e) c := by
  refine h.mono ?_
  rintro _ ⟨cause, sub, hsub, rfl⟩
  exact ⟨cause, sub, .part hpart hsub, rfl⟩

/-- The fault of being too deep points at the expression. -/
lemma within_pointsInto {c : Effectful Fault Value} (h : FailsWith (Fault.PointsInto e) c) :
    FailsWith (Fault.PointsInto e) (within depth e.span c) := by
  unfold within
  split
  · exact .of_throw (pointsInto_self e _)
  · exact h

/-- The fault of an operation without effects is placed at the expression. -/
lemma settle_pointsInto (r : Except RuntimeCause Value) :
    FailsWith (Fault.PointsInto e) (settle e.span r) := by
  cases r with
  | ok v => exact .of_pure v
  | error cause => exact .of_throw (pointsInto_self e cause)

/-- The faults of a computation are placed at the expression. -/
lemma locate_pointsInto (c : Effectful RuntimeCause Value) :
    FailsWith (Fault.PointsInto e) (locate e.span c) :=
  FailsWith.adapt fun _ cause _ => pointsInto_self e cause

/-- **The faults of an expression** point at its parts, at whatever depth it is evaluated.

**Proof sketch.** Induction on the expression. A fault of a part points at a part of the part, which
is one of the whole (`FailsWith.of_part`). A fault that the expression raises itself points at all
of it. -/
theorem evaluate_pointsInto (vars : Variables) (depth : Nat) (e : Expr) :
    FailsWith (Fault.PointsInto e) (evaluate vars depth e) := by
  induction e using Expr.induction generalizing depth with
  | number | string | boolean | unit =>
    rw [evaluate]
    exact within_pointsInto (.of_pure _)
  | ident span name =>
    rw [evaluate]
    refine within_pointsInto (e := .ident span name) ?_
    cases vars.get? name with
    | some v => exact .of_pure v
    | none => exact .of_throw (pointsInto_self (.ident span name) _)
  | unary span op operand ih =>
    rw [evaluate]
    refine within_pointsInto (e := .unary span op operand) ?_
    exact ((ih _).of_part List.mem_cons_self).bind fun v => settle_pointsInto (op.apply v)
  | binary span op left right ihl ihr =>
    rw [evaluate]
    refine within_pointsInto (e := .binary span op left right) ?_
    refine ((ihl _).of_part List.mem_cons_self).bind fun l => ?_
    cases op.decided? l with
    | some v => exact .of_pure v
    | none =>
      exact ((ihr _).of_part (List.mem_cons_of_mem _ List.mem_cons_self)).bind fun r =>
        settle_pointsInto (op.apply l r)
  | conditional span condition yes no ihc ihy ihn =>
    rw [evaluate]
    refine within_pointsInto (e := .conditional span condition yes no) ?_
    refine ((ihc _).of_part List.mem_cons_self).bind fun c => ?_
    split
    · exact (ihy _).of_part (by simp [Expr.parts])
    · exact (ihn _).of_part (by simp [Expr.parts])
  | call span name arguments ih =>
    rw [evaluate]
    refine within_pointsInto (e := .call span name arguments) ?_
    have hall : ∀ a ∈ arguments, FailsWith (Fault.PointsInto (.call span name arguments))
        (evaluate vars (depth + 1) a) :=
      fun a ha => (ih a ha _).of_part ha
    exact (FailsWith.evaluateAll hall).bind fun args => locate_pointsInto (call name args)

end

/-! ## Programs -/

/-- **The faults of a program** point at parts of its expressions. -/
lemma pointsInto_of_runStatements {program : Program} {last : Value} {vars : Variables}
    {effects : Effects} {fault : Fault}
    (h : (runStatements last program vars effects).outcome = .error fault) :
    ∃ s ∈ program, fault.PointsInto s.value := by
  induction program generalizing last vars effects with
  | nil => cases h
  | cons s rest ih =>
    rw [runStatements] at h
    rcases hrun : (evaluate vars 0 s.value).run effects with ⟨fault' | v, after⟩
    · rw [hrun] at h
      cases h
      refine ⟨s, List.mem_cons_self, ?_⟩
      exact evaluate_pointsInto vars 0 s.value effects fault (by rw [hrun])
    · rw [hrun] at h
      obtain ⟨t, ht, hpoints⟩ := ih h
      exact ⟨t, List.mem_cons_of_mem s ht, hpoints⟩

/-- **What a fault of a code points at** can be cut out of the code. -/
lemma slices_of_runCode_error {code : Text} {vars : Variables} {effects : Effects} {fault : Fault}
    (h : (runCode code vars effects).outcome = .error fault) : fault.span.Slices code := by
  unfold runCode at h
  split at h
  next program hprogram =>
    obtain ⟨s, hs, cause, sub, hsub, rfl⟩ := pointsInto_of_runStatements h
    exact (((laidOut_of_parse hprogram).statements s hs).value sub hsub).slices
  next f hf =>
    cases h
    exact slices_of_parse_error hf

/-! ## Blocks -/

/-- A fault of a piece of code in a session is one of running the code. -/
lemma runCode_of_run {code : Text} {s : Session} {fault : Fault}
    (h : (s.run code).outcome = .error fault) :
    ∃ vars effects, (runCode code vars effects).outcome = .error fault := by
  refine ⟨s.vars, { output := [], displays? := s.captures.head? }, ?_⟩
  unfold Session.run at h
  dsimp only at h
  generalize (runCode code s.vars { output := [], displays? := s.captures.head? }).outcome =
    outcome at h ⊢
  cases outcome with
  | ok v => cases h
  | error fault' =>
    cases h
    rfl

/-- **What a fault of a block points at** can be cut out of the code of the block. -/
theorem slices_of_execute_error {code : Text} {state last : Session} {fault : BlockFault Fault}
    (h : execute sandbox code state = (.error fault, last)) :
    fault.cause.span.Slices fault.code := by
  unfold execute at h
  dsimp only at h
  split at h
  next cause hcause =>
    cases h
    obtain ⟨vars, effects, hrun⟩ := runCode_of_run hcause
    exact slices_of_runCode_error hrun
  next => cases h

/-- A fault of running cells is that of a block. -/
lemma execute_of_runCells {σ ν ε : Type} {sandbox : Sandbox σ ν ε} {cells : List Notebook.Cell}
    {count : Nat} {state : σ} {fault : BlockFault ε}
    (h : (Notebook.runCells sandbox count cells state).fault? = some fault) :
    ∃ st last, execute sandbox fault.code st = (.error fault, last) := by
  induction cells generalizing count state with
  | nil => cases h
  | cons cell cells ih =>
    cases cell with
    | markdown metadata source => exact ih h
    | code count? metadata outputs source =>
      rw [Notebook.runCells] at h
      rcases hrun : execute sandbox source.flatten state with ⟨fault' | done, last⟩
      · rw [hrun] at h
        cases h
        rw [code_of_execute_error hrun]
        exact ⟨state, last, hrun⟩
      · rw [hrun] at h
        exact ih h

/-- A fault of a page is that of a block. -/
lemma execute_of_ofRunChunks {σ ν ε ω : Type} {sandbox : Sandbox σ ν ε}
    {write : Text → Bytes → StateM ω (Except FileFault Unit)} {state : σ} {s : Settings}
    {cs : List Chunk} {world next : ω} {fault : BlockFault ε}
    (h : Page.ofRunChunks write sandbox state s cs world = (.error (.execution fault), next)) :
    ∃ st last, execute sandbox fault.code st = (.error fault, last) := by
  obtain ⟨outcome, last, ran, rest, world', -, hrun, -, hended⟩ :=
    Page.resultsAndState_recording write sandbox (Page.sections [] cs) state [] world
  rw [Page.ofRunChunks, bind_apply, hrun] at h
  cases hended with
  | ok hran => cases h
  | fault hran hfault =>
    cases h
    exact ⟨_, _, hfault⟩
  | unsaved => cases h

/-! ## All stretches -/

/-- **All stretches can be cut out** of the code that they come with. Those of a program are nested
as it is; that of a departure from the grammar is one of the code; a fault of running a program
points at a part of one of its expressions; and a fault of a page or of a notebook comes with the
code that it points into.

**Proof sketch.** For a program by its derivation (`laidOut_of_parse`), for a departure from the
grammar by the tokens (`slices_of_parse_error`), for a fault by the part of the expression that
raised it (`pointsInto_of_runStatements`). The faults of pages and notebooks are those of their
blocks (`slices_of_execute_error`). -/
theorem spans_slice_code {ω : Type} (write : Text → Bytes → StateM ω (Except FileFault Unit)) :
    (∀ code program, parse code = .ok program → Program.LaidOut code program ∧
      ∀ vars effects fault, (runProgram program vars effects).outcome = .error fault →
        ∃ s ∈ program, fault.PointsInto s.value) ∧
    (∀ code fault, parse code = .error fault → fault.span.Slices code) ∧
    (∀ state s cs world fault next,
      Page.ofRunChunks write sandbox state s cs world = (.error (.execution fault), next) →
        fault.cause.span.Slices fault.code) ∧
    (∀ nb state fault ran, Notebook.run sandbox nb state = (some fault, ran) →
      fault.cause.span.Slices fault.code) := by
  refine ⟨fun code program hparse => ⟨laidOut_of_parse hparse, fun vars effects fault hfault => ?_⟩,
    fun code fault => slices_of_parse_error, fun state s cs world fault next hrun => ?_,
    fun nb state fault ran hrun => ?_⟩
  · exact pointsInto_of_runStatements hfault
  · obtain ⟨st, last, hexecute⟩ := execute_of_ofRunChunks hrun
    exact slices_of_execute_error hexecute
  · obtain ⟨st, last, hexecute⟩ := execute_of_runCells (congrArg Prod.fst hrun)
    exact slices_of_execute_error hexecute

/-- The program that negates a string of one character, which takes two bytes. -/
def negatedString : Program :=
  [.assign ⟨0, 9⟩ "s".toList (.unary ⟨4, 9⟩ .negation (.string ⟨5, 9⟩ "é".toList))]

/-- The fault of negating a string, and that of a string without an end, point at stretches that end
behind a character of two bytes. -/
theorem spans_slice_negatedString :
    Program.LaidOut "s = -\"é\"".toList negatedString ∧
      (∃ s ∈ negatedString,
        Fault.PointsInto s.value (.runtime (.wrongKind .number .string) ⟨4, 9⟩)) ∧
      Span.Slices ⟨0, 3⟩ "\"é".toList ∧ Span.Slices ⟨4, 9⟩ "s = -\"é\"".toList ∧
      Span.Slices ⟨4, 9⟩ ["s = -\"é\"".toList].flatten := by
  have hparse : parse "s = -\"é\"".toList = .ok negatedString := by cbv
  have hfault : (runProgram negatedString [] ⟨[], none⟩).outcome =
      .error (.runtime (.wrongKind .number .string) ⟨4, 9⟩) := by cbv
  have hdeparture : parse "\"é".toList = .error ⟨.unterminatedString, ⟨0, 3⟩⟩ := by cbv
  have hpage : Page.ofRunChunks (Page.writeInto []) sandbox {} {}
      [.code ["s = -\"é\"".toList] .terminated] Tree.bare =
      (.error (.execution
        ⟨"s = -\"é\"".toList, .runtime (.wrongKind .number .string) ⟨4, 9⟩⟩), Tree.bare) := by cbv
  have hnotebook : Notebook.run sandbox
      ⟨[.code none [] [] ["s = -\"é\"".toList]], [], 4, 5⟩ {} =
      (some ⟨"s = -\"é\"".toList, .runtime (.wrongKind .number .string) ⟨4, 9⟩⟩,
        ⟨[.code none [] [] ["s = -\"é\"".toList]], [], 4, 5⟩) := by cbv
  obtain ⟨hprograms, hdepartures, hpages, hnotebooks⟩ := spans_slice_code (Page.writeInto [])
  obtain ⟨hlaid, hpoints⟩ := hprograms _ _ hparse
  exact ⟨hlaid, hpoints _ _ _ hfault, hdepartures _ _ hdeparture, hpages _ _ _ _ _ _ hpage,
    hnotebooks _ _ _ _ hnotebook⟩

end Weave.Lit
