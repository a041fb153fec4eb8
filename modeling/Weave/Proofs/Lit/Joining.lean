import Mathlib
import Weave.Lit.Session
import Weave.Proofs.Lit.Acceptance
import Weave.Proofs.Lit.Lexing

set_option autoImplicit false
set_option relaxedAutoImplicit false

/-!
# Joined codes

Two codes that are programs can be written one below the other. The result is the program of the
statements of both, and running it is running the two codes one after the other.

## Main results

* `Weave.Lit.parse_eq_ok_iff` — the program of a code in terms of its tokens and the grammar.
* `Weave.Lit.parse_joined` — the program of two codes, one below the other.
* `Weave.Lit.runStatements_append` — running the statements of two programs.
* `Weave.Lit.runCode_joined` — running two codes, one below the other.

## Design

Between the codes there is a line feed, and it is the end of a statement only outside of
parentheses. The first code is a program, so its parentheses are balanced.
-/

namespace Weave.Lit

/-! ## Programs -/

/-- **The program of a code** is derived from its tokens. -/
theorem parse_eq_ok_iff {code : Text} {program : Program} :
    parse code = .ok program ↔ ∃ ts, Lexed 0 [] code ts ∧ Clauses depthLimit ts program := by
  simp only [← tokenize_eq_ok_iff, ← statements_eq_ok_iff, parse]
  constructor
  · intro h
    split at h
    next => cases h
    next ts hts =>
      split at h
      next hprogram =>
        cases h
        exact ⟨ts, hts, hprogram⟩
      next => cases h
  · rintro ⟨ts, hts, hprogram⟩
    rw [hts]
    simp only [hprogram]

/-- Parentheses are balanced in a statement. -/
lemma Clause.depthAfterAll_eq {depth : Nat} {ts : List Placed} {s : Statement}
    (h : Clause depth ts s) (n : Nat) : depthAfterAll n ts = n := by
  cases h with
  | assign place eq name value => exact value.foldl_depthAfter n
  | expression value => exact value.foldl_depthAfter n

/-- **Parentheses are balanced** in a program. -/
lemma Clauses.depthAfterAll_eq {depth : Nat} {ts : List Placed} {program : Program}
    (h : Clauses depth ts program) (n : Nat) : depthAfterAll n ts = n := by
  induction h with
  | nil => rfl
  | separator place _ ih => exact ih
  | last clause => exact clause.depthAfterAll_eq n
  | @statement ts more s program place clause _ ih =>
    have happend : depthAfterAll n (ts ++ ⟨.separator, place⟩ :: more) =
        depthAfterAll (depthAfterAll n ts) more := by
      simp only [depthAfterAll, List.map_append, List.map_cons, List.foldl_append, List.foldl_cons,
        depthAfter]
    rw [happend, clause.depthAfterAll_eq, ih]

/-- **Two programs** with a separator between them. -/
lemma Clauses.append {depth : Nat} {ts more : List Placed} {program rest : Program}
    (h : Clauses depth ts program) (place : Span) (hrest : Clauses depth more rest) :
    Clauses depth (ts ++ ⟨.separator, place⟩ :: more) (program ++ rest) := by
  induction h with
  | nil => exact .separator place hrest
  | separator first _ ih => exact .separator first ih
  | last clause => exact .statement place clause hrest
  | statement first clause _ ih =>
    rw [List.append_assoc, List.cons_append]
    exact .statement first clause ih

/-- **The program of two codes**, one below the other: the statements of both. -/
theorem parse_joined {a b : Text} {pa pb : Program} (ha : parse a = .ok pa)
    (hb : parse b = .ok pb) :
    parse (a ++ '\n' :: b) =
      .ok (pa ++ pb.map (Statement.mapOffsets (· + (Text.byteSize a + 1)))) := by
  obtain ⟨ta, hta, hpa⟩ := parse_eq_ok_iff.1 ha
  obtain ⟨tb, htb, hpb⟩ := parse_eq_ok_iff.1 hb
  have hsize : Text.byteSize (a ++ ['\n']) = Text.byteSize a + 1 := Text.byteSize_append a ['\n']
  have hmoved := htb.moved (a ++ ['\n'])
  rw [hsize, List.append_nil] at hmoved
  have hline : Lexed (depthAfterAll 0 ta) ([] ++ a) ('\n' :: b) _ :=
    .token (k := .separator) (s := ⟨.lineFeed, ['\n'], b⟩) rfl
      (by rw [hpa.depthAfterAll_eq]; rfl) (by rw [hpa.depthAfterAll_eq]; exact hmoved)
  exact parse_eq_ok_iff.2 ⟨_, hta.append hline, hpa.append _ hpb.mapOffsets⟩

/-! ## Runs -/

/-- **Running the statements of two programs**: those of the second are run if all of the first
succeed. -/
theorem runStatements_append (program rest : Program) (last : Value) (vars : Variables)
    (effects : Effects) :
    runStatements last (program ++ rest) vars effects =
      match runStatements last program vars effects with
      | ⟨.ok v, vars, effects⟩ => runStatements v rest vars effects
      | ran => ran := by
  induction program generalizing last vars effects with
  | nil => rfl
  | cons s program ih =>
    rw [List.cons_append, runStatements, runStatements]
    rcases (evaluate vars 0 s.value).run effects with ⟨_ | v, effects⟩
    · rfl
    · exact ih v (s.bind v vars) effects

/-- The value before a program is that of the whole if the program has no statements, and otherwise
it makes no difference. -/
lemma runStatements_eq_runProgram (last : Value) (program : Program) (vars : Variables)
    (effects : Effects) :
    runStatements last program vars effects =
      { runProgram program vars effects with
        outcome := (runProgram program vars effects).outcome.map fun w =>
          if program = [] then last else w } := by
  cases program with
  | nil => rfl
  | cons s rest =>
    have hrun : runStatements last (s :: rest) vars effects =
        runProgram (s :: rest) vars effects := rfl
    rw [hrun]
    rcases runProgram (s :: rest) vars effects with ⟨_ | _, _, _⟩ <;> rfl

/-- **Running two codes**, one below the other, is running the first one and then, unless it fails,
the second one: the variables, what is written and what is displayed are the same, and so is a
fault, if the offsets in the second code are counted from the start of the first one. The value is
that of the second code unless this has no statements.

**Proof sketch.** The programs of the two codes are read one after the other (`parse_joined`), and a
list of statements is run in two parts (`runStatements_append`). Moving the offsets of the second
part changes only where its faults are (`runStatements_mapOffsets`), and its value is that of its
last statement if it has one. -/
theorem runCode_joined {a b : Text} {pa pb : Program} (ha : parse a = .ok pa)
    (hb : parse b = .ok pb) :
    parse (a ++ '\n' :: b) =
        .ok (pa ++ pb.map (Statement.mapOffsets (· + (Text.byteSize a + 1)))) ∧
      ∀ (vars : Variables) (effects : Effects),
        let first := runCode a vars effects
        let second := runCode b first.vars first.effects
        let joined := runCode (a ++ '\n' :: b) vars effects
        (∀ fault, first.outcome = .error fault → joined = first) ∧
        (∀ v, first.outcome = .ok v →
          joined.vars = second.vars ∧ joined.effects = second.effects ∧
          joined.outcome = (second.outcome.map fun w => if pb = [] then v else w).mapError
            (Fault.mapOffsets (· + (Text.byteSize a + 1)))) := by
  refine ⟨parse_joined ha hb, fun vars effects => ?_⟩
  simp only [runCode, ha, hb, parse_joined ha hb, runProgram, runStatements_append]
  rcases runStatements .unit pa vars effects with ⟨_ | v, vars, effects⟩
  · exact ⟨fun _ _ => rfl, nofun⟩
  · refine ⟨nofun, ?_⟩
    rintro _ ⟨⟩
    dsimp only
    rw [runStatements_mapOffsets, runStatements_eq_runProgram]
    exact ⟨rfl, rfl, rfl⟩

/-- The second of two codes fails, and its fault is at its place below the first one, which ends in
a comment. -/
theorem runCode_joined_undefined :
    parse "s = \"a\" # (\nt".toList =
        .ok [.assign ⟨0, 7⟩ "s".toList (.string ⟨4, 7⟩ "a".toList),
          .expression (.ident ⟨12, 13⟩ "t".toList)] ∧
      (runCode "s = \"a\" # (\nt".toList [] ⟨[], none⟩).vars =
        [("s".toList, .string "a".toList)] ∧
      (runCode "s = \"a\" # (\nt".toList [] ⟨[], none⟩).outcome =
        .error (.runtime (.undefinedVariable "t".toList) ⟨12, 13⟩) := by
  have ha : parse "s = \"a\" # (".toList =
      .ok [.assign ⟨0, 7⟩ "s".toList (.string ⟨4, 7⟩ "a".toList)] := by cbv
  have hb : parse "t".toList = .ok [.expression (.ident ⟨0, 1⟩ "t".toList)] := by cbv
  have hfirst : runCode "s = \"a\" # (".toList [] ⟨[], none⟩ =
      ⟨.ok (.string "a".toList), [("s".toList, .string "a".toList)], ⟨[], none⟩⟩ := by
    rw [runCode, ha]
    rfl
  have hsecond : runCode "t".toList [("s".toList, .string "a".toList)] ⟨[], none⟩ =
      ⟨.error (.runtime (.undefinedVariable "t".toList) ⟨0, 1⟩),
        [("s".toList, .string "a".toList)], ⟨[], none⟩⟩ := by
    rw [runCode, hb]
    rfl
  obtain ⟨hparse, hrun⟩ := runCode_joined ha hb
  obtain ⟨hvars, -, houtcome⟩ := (hrun [] ⟨[], none⟩).2 _ (by rw [hfirst])
  rw [hfirst, hsecond] at hvars houtcome
  refine ⟨hparse.trans ?_, hvars, houtcome.trans ?_⟩
  · cbv
  · rfl

end Weave.Lit
