import Weave.Proofs.Lit.TrailingBlanks
import Weave.Proofs.Sandbox.Sequence
import Weave.Proofs.Sandbox.Suppression

set_option autoImplicit false
set_option relaxedAutoImplicit false

/-!
# Blocks without the blanks at their ends

A block of code can be run as it is, or without the blanks at its end. Its program is the same, and
so is the answer to whether its value is left out. So the same comes of both, up to the first block
that faults; and both fault there, unless one of the blanks is not known to the language.

## Main definitions

* `Weave.Lit.Fault.Matches` — the fault of a block without the blanks at its end and with them.
* `Weave.Lit.RunsAlike` — runs of blocks without the blanks at their ends and with them.

## Main results

* `Weave.endsWithSemicolon_append_blanks` — blanks at the end do not bring a value back.
* `Weave.Lit.runsAlike_trimEnd` — blocks that are run without the blanks at their ends.
-/

namespace Weave

/-! ## The last semicolon -/

namespace Text

/-- A blank at the end of a text says nothing. -/
lemma verdict?_concat_blank {c : Char} (hc : isBlank c = true) (t : Text) :
    verdict? (t ++ [c]) = verdict? t := by
  by_cases hline : c = '\n'
  · rw [hline, verdict?_append_lineFeed, show verdict? [] = none from rfl, Option.none_or]
  · induction t using row_induction with
    | last a ha =>
      have hac : '\n' ∉ a ++ [c] := by simp [ha, Ne.symm hline]
      rw [verdict?_of_not_mem hac, verdict?_of_not_mem ha, rowVerdict?_concat_blank hc]
    | row a b ha ih =>
      rw [List.append_assoc, List.cons_append, verdict?_append_lineFeed, verdict?_append_lineFeed,
        ih]

end Text

/-- **Blanks at the end of a code** make no difference to whether its value is left out. -/
theorem endsWithSemicolon_append_blanks {z : Text} (hz : ∀ d ∈ z, isBlank d = true) (code : Text) :
    endsWithSemicolon (code ++ z) = endsWithSemicolon code := by
  have hverdict : Text.verdict? (code ++ z) = Text.verdict? code := by
    induction z using List.reverseRecOn with
    | nil => rw [List.append_nil]
    | append_singleton z d ih =>
      rw [List.forall_mem_append, List.forall_mem_singleton] at hz
      rw [← List.append_assoc, Text.verdict?_concat_blank hz.2, ih hz.1]
  rw [endsWithSemicolon_eq, endsWithSemicolon_eq, hverdict]

namespace Lit

/-! ## One block -/

/-- **The fault of a block** without the blanks at its end, and with them. -/
inductive Fault.Matches (code z : Text) : Fault → Fault → Prop where
  | same (f : Fault) : Matches code z f f
  | syntactic {f g : SyntaxFault}
      (matches_ : f.Matches (Text.byteSize code) (Text.byteSize (code ++ z)) z g) :
      Matches code z (.syntactic f) (.syntactic g)

variable {code other : Text} {state : Session}

/-- **A block that departs from the grammar** faults. -/
lemma execute_of_parse_error {f : SyntaxFault} (h : parse code = .error f) (state : Session) :
    ∃ next, execute sandbox code state = (.error ⟨code, .syntactic f⟩, next) := by
  have hrun (s : Session) : (sandbox.run code s).outcome = .error (.syntactic f) := by
    simp only [sandbox, Session.run, runCode, h]
    rfl
  refine ⟨(sandbox.popDisplay (sandbox.run code (sandbox.pushDisplay state)).state).2, ?_⟩
  simp only [execute, hrun]

/-- **Blocks with the same program** and the same ending have the same outcome. -/
lemma execute_of_parse_ok {program : Program} (hcode : parse code = .ok program)
    (hother : parse other = .ok program)
    (hsemicolon : endsWithSemicolon other = endsWithSemicolon code) (state : Session) :
    execute sandbox other state =
      ((execute sandbox code state).1.mapError fun fault => { fault with code := other },
        (execute sandbox code state).2) := by
  have hrun : sandbox.run other = sandbox.run code := by
    funext s
    simp only [sandbox, Session.run, runCode, hcode, hother]
  have hsuppresses (s : Session) : sandbox.suppresses s other = sandbox.suppresses s code :=
    hsemicolon
  simp only [execute, hrun, hsuppresses]
  cases (sandbox.run code (sandbox.pushDisplay state)).outcome <;> rfl

/-! ## Blocks one after another -/

/-- **Runs of blocks** without the blanks at their ends, and with them. -/
inductive RunsAlike : RanBlocks Session Value Fault → RanBlocks Session Value Fault → Prop where
  /-- All blocks are run to their ends. -/
  | finished {ran : RanBlocks Session Value Fault} (all : ran.fault? = none) : RunsAlike ran ran
  /-- The same comes of the same blocks, and then the same block faults. -/
  | faulted (done : List (Executed Value)) (next next' : Session) {code z : Text} {f g : Fault}
      (trimmed : (code ++ z).trimEnd = code) (matches_ : f.Matches code z g) :
      RunsAlike ⟨done, some ⟨code, f⟩, next⟩ ⟨done, some ⟨code ++ z, g⟩, next'⟩
  /-- A block has a blank at its end that the language does not know. -/
  | foreign {ran : RanBlocks Session Value Fault} {done : List (Executed Value)} (next : Session)
      {code z : Text} {g : SyntaxFault} (before : done <+: ran.done)
      (trimmed : (code ++ z).trimEnd = code) (foreign : g.IsForeign z) :
      RunsAlike ran ⟨done, some ⟨code ++ z, .syntactic g⟩, next⟩

/-- One more block before makes no difference. -/
lemma RunsAlike.cons {ran ran' : RanBlocks Session Value Fault} (h : RunsAlike ran ran')
    (done : Executed Value) :
    RunsAlike { ran with done := done :: ran.done } { ran' with done := done :: ran'.done } := by
  cases h with
  | finished all => exact .finished all
  | faulted dones next next' trimmed h => exact .faulted (done :: dones) next next' trimmed h
  | foreign next before trimmed h =>
    exact .foreign next (List.cons_prefix_cons.2 ⟨rfl, before⟩) trimmed h

/-- **Blocks that are run without the blanks at their ends** are run as they are with them, up to
the first fault.

**Proof sketch.** Block by block: as long as no block faults, the sandbox is in the same state in
both runs, and the two texts of the next block have the same program. -/
theorem runsAlike_trimEnd (codes : List Text) (state : Session) :
    RunsAlike (executeAll sandbox (codes.map Text.trimEnd) state)
      (executeAll sandbox codes state) := by
  induction codes generalizing state with
  | nil => exact .finished rfl
  | cons whole codes ih =>
    obtain ⟨z, hwhole, hz⟩ := Text.exists_eq_trimEnd_append whole
    have htrimmed : Text.trimEnd (whole.trimEnd ++ z) = whole.trimEnd := by rw [← hwhole]
    rw [List.map_cons]
    generalize whole.trimEnd = code at hwhole htrimmed ⊢
    subst hwhole
    have hsemicolon := endsWithSemicolon_append_blanks hz code
    have hparsed := parse_append_blanks hz code
    generalize hcode : parse code = r at hparsed
    generalize hall : parse (code ++ z) = r' at hparsed
    cases hparsed with
    | program program =>
      have hexecute := execute_of_parse_ok hcode hall hsemicolon state
      rcases hrun : execute sandbox code state with ⟨fault | done, next⟩
      · obtain rfl := code_of_execute_error hrun
        rw [hrun] at hexecute
        rw [executeAll_cons_of_error hrun, executeAll_cons_of_error hexecute]
        exact .faulted [] next next htrimmed (.same fault.cause)
      · rw [hrun] at hexecute
        rw [executeAll_cons_of_ok hrun, executeAll_cons_of_ok hexecute]
        exact (ih next).cons done
    | fault h =>
      obtain ⟨next, hrun⟩ := execute_of_parse_error hcode state
      obtain ⟨next', hrun'⟩ := execute_of_parse_error hall state
      rw [executeAll_cons_of_error hrun, executeAll_cons_of_error hrun']
      exact .faulted [] next next' htrimmed (.syntactic h)
    | foreign r h =>
      obtain ⟨next, hrun⟩ := execute_of_parse_error hall state
      rw [executeAll_cons_of_error hrun]
      exact .foreign next List.nil_prefix htrimmed h

end Lit

end Weave
