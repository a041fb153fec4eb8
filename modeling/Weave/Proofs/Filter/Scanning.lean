import Weave.Proofs.Filter.BlockComment

set_option autoImplicit false
set_option relaxedAutoImplicit false

/-!
# Block comments in one pass

Blocks are expanded one at a time, and the search for the next one begins again with the first row.
A scanner that reads the rows once, from the top, does the same: what stands before the first block
and what has become of it opens no block. But a block has at least one row between its fences. A
scanner that takes an opening row with a closing row directly after it for a block without rows
gives another text.

## Main definitions

* `Weave.BlockComment.Opens`, `Weave.BlockComment.Closes` — the fences of a block.
* `Weave.BlockComment.scan` — rows that are read once, with blocks of at least so many rows.
* `Weave.BlockComment.MeetsEmptyBlock` — outside of all blocks there are two fences without a row
  between them.

## Main results

* `Weave.BlockComment.expandRows_eq_scan` — one pass does what is done block by block.
* `Weave.BlockComment.expand_eq_scan_iff` — when blocks without rows make no difference.
-/

namespace Weave.BlockComment

/-! ## Fences -/

/-- **A row opens a block**: a hash and one or more equals signs. -/
def Opens (row : Text) : Prop :=
  ∃ n, row = '#' :: List.replicate (n + 1) '='

/-- **A row closes a block**: one or more equals signs and a hash. -/
def Closes (row : Text) : Prop :=
  ∃ n, row = List.replicate (n + 1) '=' ++ ['#']

/-- The test for opening rows is right. -/
lemma isOpener_iff {row : Text} : isOpener row = true ↔ Opens row := by
  constructor
  · intro h
    unfold isOpener at h
    split at h
    next more =>
      refine ⟨more.length, ?_⟩
      rw [List.replicate_succ, ← List.eq_replicate_length.2 fun c hc =>
        beq_iff_eq.1 (List.all_eq_true.1 h c hc)]
    next => cases h
  · rintro ⟨n, rfl⟩
    simp [isOpener, List.replicate_succ]

/-- The test for closing rows is right. -/
lemma isCloser_iff {row : Text} : isCloser row = true ↔ Closes row := by
  rw [isCloser, isOpener_iff, Opens, Closes]
  refine exists_congr fun n => ?_
  rw [List.reverse_eq_iff, List.reverse_cons, List.reverse_replicate]

/-- Whether a row opens a block can be decided by the test. -/
instance (row : Text) : Decidable (Opens row) :=
  decidable_of_iff _ isOpener_iff

/-- Whether a row closes a block can be decided by the test. -/
instance (row : Text) : Decidable (Closes row) :=
  decidable_of_iff _ isCloser_iff

/-- A row that closes a block opens none. -/
lemma Closes.not_opens {row : Text} (h : Closes row) : ¬ Opens row := by
  obtain ⟨n, rfl⟩ := h
  rintro ⟨m, hm⟩
  rw [List.replicate_succ, List.cons_append] at hm
  exact absurd (List.cons.inj hm).1 (by decide)

/-- A row of prose opens no block. -/
lemma not_opens_asProse (row : Text) : ¬ Opens (asProse row) := by
  rintro ⟨n, hn⟩
  rw [List.replicate_succ] at hn
  exact absurd (List.cons.inj (List.cons.inj hn).2).1 (by decide)

/-! ## The scanner -/

/-- What stands between an opening row and the closing row of its block, and what stands after that:
the first closing row is looked for after `least` rows. -/
def enclosed? (least : Nat) (rows : List Text) : Option (List Text × List Text) :=
  match (rows.drop least).dropWhile (fun row => ¬ Closes row) with
  | [] => none
  | _ :: rest =>
    some (rows.take least ++ (rows.drop least).takeWhile (fun row => ¬ Closes row), rest)

/-- **The rows of a block**, its closing row and the rest make up the rows after the opening row.

**Proof sketch.** After the least number of rows is dropped, `takeWhile` and `dropWhile` cut the
rest at the first row that closes. Conversely they cut there, since no row of the body after these
does. -/
lemma enclosed?_eq_some_iff {least : Nat} {rows body rest : List Text} :
    enclosed? least rows = some (body, rest) ↔ ∃ closer, rows = body ++ closer :: rest ∧
      Closes closer ∧ least ≤ body.length ∧ ∀ row ∈ body.drop least, ¬ Closes row := by
  constructor
  · intro h
    unfold enclosed? at h
    split at h
    next => cases h
    next closer after hcut =>
      simp only [Option.some.injEq, Prod.mk.injEq] at h
      obtain ⟨hbody, rfl⟩ := h
      have hrows := List.takeWhile_append_dropWhile (p := fun row => ¬ Closes row)
        (l := rows.drop least)
      have hclose := List.head?_dropWhile_not (fun row => decide ¬ Closes row) (rows.drop least)
      rw [hcut] at hrows hclose
      have hlength : (rows.take least).length = least := by
        rw [List.length_take, min_eq_left]
        have := congrArg List.length hrows
        simp only [List.length_append, List.length_cons, List.length_drop] at this
        omega
      refine ⟨closer, ?_, by simpa using hclose, ?_, ?_⟩
      · rw [← hbody, List.append_assoc, hrows, List.take_append_drop]
      · rw [← hbody, List.length_append, hlength]
        exact Nat.le_add_right _ _
      · intro row hrow
        rw [← hbody, List.drop_left' hlength] at hrow
        simpa using List.mem_takeWhile_imp hrow
  · rintro ⟨closer, rfl, hclose, hlength, hbody⟩
    have hopen : ∀ row ∈ body.drop least, decide (¬ Closes row) = true := by simpa using hbody
    have hcloser : ¬ decide (¬ Closes closer) = true := by simpa using hclose
    rw [enclosed?, List.drop_append_of_le_length hlength, List.take_append_of_le_length hlength,
      List.dropWhile_append_of_pos hopen,
      List.dropWhile_cons_of_neg (p := fun row => decide ¬ Closes row) hcloser]
    simp only [List.takeWhile_append_of_pos hopen,
      List.takeWhile_cons_of_neg (p := fun row => decide ¬ Closes row) hcloser,
      List.append_nil, List.take_append_drop]

/-- **A block has no end** exactly if no closing row comes after `least` rows. -/
lemma enclosed?_eq_none_iff {least : Nat} {rows : List Text} :
    enclosed? least rows = none ↔ ∀ row ∈ rows.drop least, ¬ Closes row := by
  unfold enclosed?
  split
  next h => simpa [List.dropWhile_eq_nil_iff] using h
  next closer rest h =>
    have hclose := List.head?_dropWhile_not (fun row => decide ¬ Closes row) (rows.drop least)
    have hmem : closer ∈ rows.drop least :=
      (List.dropWhile_sublist _).subset (h ▸ List.mem_cons_self)
    rw [h] at hclose
    simp only [reduceCtorEq, false_iff, not_forall]
    exact ⟨closer, hmem, by simpa using hclose⟩

/-- Fewer rows are left after a block than there were. -/
lemma length_enclosed? {least : Nat} {rows body rest : List Text}
    (h : enclosed? least rows = some (body, rest)) : rest.length < rows.length := by
  obtain ⟨closer, rfl, -⟩ := enclosed?_eq_some_iff.1 h
  rw [List.length_append, List.length_cons]
  omega

/-- **Rows that are read once**, from the top. Where a row opens a block and the block has an end,
the block is expanded, and reading goes on after it. All other rows are kept. -/
def scan (least : Nat) : List Text → List Text
  | [] => []
  | row :: rows =>
    if Opens row then
      match _h : enclosed? least rows with
      | some (body, rest) => body.map asProse ++ scan least rest
      | none => row :: scan least rows
    else row :: scan least rows
termination_by rows => rows.length
decreasing_by
  · have := length_enclosed? _h
    rw [List.length_cons]
    omega
  · exact Nat.lt_succ_self _
  · exact Nat.lt_succ_self _

section Equations

variable {least : Nat} {row : Text} {rows : List Text}

/-- A row that opens no block is left as it is. -/
lemma scan_of_not_opens (h : ¬ Opens row) : scan least (row :: rows) = row :: scan least rows := by
  rw [scan, if_neg h]

/-- An opening row whose block has no end is left as it is. -/
lemma scan_of_none (h : Opens row) (hnone : enclosed? least rows = none) :
    scan least (row :: rows) = row :: scan least rows := by
  rw [scan, if_pos h]
  split
  next body rest hsome => exact absurd (hsome.symm.trans hnone) (Option.some_ne_none _)
  next => rfl

/-- A block gives way to its body as prose. -/
lemma scan_of_some (h : Opens row) {body rest : List Text}
    (hsome : enclosed? least rows = some (body, rest)) :
    scan least (row :: rows) = body.map asProse ++ scan least rest := by
  rw [scan, if_pos h]
  split
  next body' rest' h' => cases h'.symm.trans hsome; rfl
  next hnone => exact absurd (hsome.symm.trans hnone) (Option.some_ne_none _)

/-- **Without a closing row** all rows are kept. -/
lemma scan_eq_self (h : ∀ row ∈ rows.drop least, ¬ Closes row) : scan least rows = rows := by
  induction rows with
  | nil => rw [scan]
  | cons row rows ih =>
    have hrest : ∀ r ∈ rows.drop least, ¬ Closes r := fun r hr =>
      h r (List.drop_subset_drop_left (row :: rows) (Nat.le_succ least) hr)
    by_cases hopen : Opens row
    · rw [scan_of_none hopen (enclosed?_eq_none_iff.2 hrest), ih hrest]
    · rw [scan_of_not_opens hopen, ih hrest]

end Equations

/-! ## One pass for many -/

/-- What is looked for up to the first closing row may be empty. -/
lemma untilCloser?_eq_enclosed? (rows : List Text) : untilCloser? rows = enclosed? 0 rows := by
  induction rows with
  | nil => rfl
  | cons row rows ih =>
    rw [untilCloser?, ih]
    by_cases h : Closes row
    · rw [if_pos (isCloser_iff.2 h)]
      simp [enclosed?, h]
    · rw [if_neg (isCloser_iff.not.2 h)]
      simp only [enclosed?, List.drop_zero, List.take_zero, List.nil_append,
        List.dropWhile_cons, List.takeWhile_cons, h, not_false_eq_true, decide_true, if_true]
      split <;> rfl

/-- The body of a block is looked for from its second row on. -/
lemma body?_eq_enclosed? (rows : List Text) : body? rows = enclosed? 1 rows := by
  cases rows with
  | nil => rfl
  | cons row rows =>
    rw [body?, untilCloser?_eq_enclosed?]
    simp only [enclosed?, List.drop_zero, List.take_zero, List.nil_append, List.drop_succ_cons,
      List.take_succ_cons, List.cons_append]
    split <;> rfl

/-- A row that opens no block is kept, and what comes after it is expanded by itself. -/
lemma expandRows_of_not_opens {row : Text} (h : ¬ Opens row) (rows : List Text) :
    expandRows (row :: rows) = row :: expandRows rows := by
  have hfirst (rows : List Text) :
      expandFirst? (row :: rows) = (expandFirst? rows).map (row :: ·) := by
    rw [expandFirst?, if_neg (isOpener_iff.not.2 h)]
  induction rows using expandRows.induct with
  | case1 rows hnone =>
    rw [expandRows_of_none hnone, expandRows_of_none (by rw [hfirst, hnone, Option.map_none])]
  | case2 rows rows' hsome ih =>
    rw [expandRows_of_some hsome, ← ih]
    exact expandRows_of_some (by rw [hfirst, hsome, Option.map_some])

/-- A block at the beginning is expanded, and what comes after it is expanded by itself. -/
lemma expandRows_of_enclosed {row : Text} (h : Opens row) {rows body rest : List Text}
    (hsome : enclosed? 1 rows = some (body, rest)) :
    expandRows (row :: rows) = body.map asProse ++ expandRows rest := by
  have hfirst : expandFirst? (row :: rows) = some (body.map asProse ++ rest) := by
    rw [expandFirst?, if_pos (isOpener_iff.2 h), body?_eq_enclosed?, hsome]
  rw [expandRows_of_some hfirst]
  clear hfirst hsome
  induction body with
  | nil => rfl
  | cons r body ih =>
    rw [List.map_cons, List.cons_append, expandRows_of_not_opens (not_opens_asProse r), ih,
      List.cons_append]

/-- Without a closing row there is no block. -/
lemma expandRows_eq_self {rows : List Text} (h : ∀ row ∈ rows.drop 2, ¬ Closes row) :
    expandRows rows = rows := by
  refine expandRows_of_none (Option.not_isSome_iff_eq_none.1 fun hsome => ?_)
  obtain ⟨before, opener, body, closer, after, rfl, -, hclose, hne⟩ :=
    isSome_expandFirst?_iff.1 hsome
  refine h closer ?_ (isCloser_iff.1 hclose)
  have hlength : 2 ≤ (before ++ opener :: body).length := by
    have := List.length_pos_iff.2 hne
    rw [List.length_append, List.length_cons]
    omega
  rw [← List.cons_append, ← List.append_assoc, List.drop_append_of_le_length hlength]
  simp

/-- **One pass does** what is done block by block. -/
theorem expandRows_eq_scan (rows : List Text) : expandRows rows = scan 1 rows := by
  fun_induction scan 1 rows with
  | case1 => exact expandRows_of_none rfl
  | case2 row rows hopen body rest hsome ih => rw [expandRows_of_enclosed hopen hsome, ih]
  | case3 row rows hopen hnone _ =>
    have hclose := enclosed?_eq_none_iff.1 hnone
    rw [scan_eq_self hclose]
    exact expandRows_eq_self hclose
  | case4 row rows hopen ih => rw [expandRows_of_not_opens hopen, ih]

/-! ## Blocks without rows -/

/-- **Outside of all blocks** there is an opening row with a closing row directly after it. -/
inductive MeetsEmptyBlock : List Text → Prop where
  /-- It stands at the beginning. -/
  | here {opener closer : Text} (rows : List Text) : Opens opener → Closes closer →
      MeetsEmptyBlock (opener :: closer :: rows)
  /-- It stands after a row that opens no block. -/
  | row {row : Text} {rows : List Text} : ¬ Opens row → MeetsEmptyBlock rows →
      MeetsEmptyBlock (row :: rows)
  /-- It stands after a block. -/
  | block {opener closer : Text} {body rows : List Text} : Opens opener → body ≠ [] →
      (∀ row ∈ body, ¬ Closes row) → Closes closer → MeetsEmptyBlock rows →
      MeetsEmptyBlock (opener :: (body ++ closer :: rows))

/-- After a row that opens no block the rest is looked at. -/
lemma meetsEmptyBlock_of_not_opens {row : Text} {rows : List Text} (h : ¬ Opens row) :
    MeetsEmptyBlock (row :: rows) ↔ MeetsEmptyBlock rows := by
  refine ⟨fun hmeets => ?_, .row h⟩
  cases hmeets with
  | here _ hopen => exact absurd hopen h
  | row _ hrest => exact hrest
  | block hopen => exact absurd hopen h

/-- After an opening row a closing row is looked for, and what comes after that is looked at. -/
lemma meetsEmptyBlock_of_opens {row : Text} {rows : List Text} (h : Opens row) :
    MeetsEmptyBlock (row :: rows) ↔
      ∃ body rest, enclosed? 0 rows = some (body, rest) ∧ (body = [] ∨ MeetsEmptyBlock rest) := by
  constructor
  · intro hmeets
    cases hmeets with
    | here rows _ hclose =>
      exact ⟨[], rows, enclosed?_eq_some_iff.2 ⟨_, rfl, hclose, le_rfl, by simp⟩, .inl rfl⟩
    | row hopen => exact absurd h hopen
    | block _ _ hbody hclose hrest =>
      exact ⟨_, _, enclosed?_eq_some_iff.2 ⟨_, rfl, hclose, Nat.zero_le _, hbody⟩, .inr hrest⟩
  · rintro ⟨body, rest, hsome, hempty⟩
    obtain ⟨closer, rfl, hclose, -, hbody⟩ := enclosed?_eq_some_iff.1 hsome
    by_cases hne : body = []
    · subst hne
      exact .here rest h hclose
    · exact .block h hne hbody hclose (hempty.resolve_left hne)

/-- How many hashes there are in rows. -/
def hashes (rows : List Text) : Nat :=
  rows.flatten.count '#'

/-- There are no hashes in no rows. -/
@[simp] lemma hashes_nil : hashes [] = 0 := rfl

/-- The hashes of rows are those of the first row and of the others. -/
@[simp] lemma hashes_cons (row : Text) (rows : List Text) :
    hashes (row :: rows) = row.count '#' + hashes rows := by
  simp [hashes]

/-- The hashes of rows and of those after them are counted together. -/
@[simp] lemma hashes_append (rows rows' : List Text) :
    hashes (rows ++ rows') = hashes rows + hashes rows' := by
  simp [hashes]

/-- Prose has one hash more in every row. -/
@[simp] lemma hashes_map_asProse (body : List Text) :
    hashes (body.map asProse) = hashes body + body.length := by
  induction body with
  | nil => rfl
  | cons row body ih =>
    simp [ih, asProse]
    omega

/-- A fence has one hash. -/
lemma Opens.count {row : Text} (h : Opens row) : row.count '#' = 1 := by
  obtain ⟨n, rfl⟩ := h
  simp [List.count_replicate]

/-- A closing row has a single hash. -/
lemma Closes.count {row : Text} (h : Closes row) : row.count '#' = 1 := by
  obtain ⟨n, rfl⟩ := h
  simp [List.count_replicate]

/-- What becomes of rows before the first closing row, and of this row: they get no more hashes than
as prose. -/
lemma hashes_scan_append_le {body : List Text} (hbody : ∀ row ∈ body, ¬ Closes row) {closer : Text}
    (hclose : Closes closer) (rest : List Text) :
    hashes (scan 0 (body ++ closer :: rest)) ≤
      hashes body + body.length + 1 + hashes (scan 0 rest) := by
  induction body with
  | nil =>
    rw [List.nil_append, scan_of_not_opens hclose.not_opens, hashes_cons, hclose.count]
    simp
  | cons row body ih =>
    rw [List.forall_mem_cons] at hbody
    by_cases hopen : Opens row
    · rw [List.cons_append, scan_of_some hopen
        (enclosed?_eq_some_iff.2 ⟨closer, rfl, hclose, Nat.zero_le _, hbody.2⟩)]
      simp
      omega
    · have := ih hbody.2
      rw [List.cons_append, scan_of_not_opens hopen]
      simp
      omega

/-- **A scanner that expands** blocks without rows leaves fewer hashes if it meets one, and does the
same as the other one if not.

**Proof sketch.** Both scanners stand at the same row as long as no block without rows is met. Where
one is met, the one scanner drops both fences. The other one takes the closing row and all that
comes before the next one for the rows of the block, and gives each a hash; if there is no next one,
it keeps both fences. -/
lemma hashes_scan (rows : List Text) :
    (MeetsEmptyBlock rows ∧ hashes (scan 0 rows) < hashes (scan 1 rows)) ∨
      (¬ MeetsEmptyBlock rows ∧ scan 0 rows = scan 1 rows) := by
  fun_induction scan 1 rows with
  | case1 => exact .inr ⟨nofun, by rw [scan]⟩
  | case2 row rows hopen body rest hsome ih =>
    obtain ⟨closer, rfl, hclose, hlength, hbody⟩ := enclosed?_eq_some_iff.1 hsome
    obtain ⟨first, body, rfl⟩ := List.exists_cons_of_length_pos hlength
    rw [List.drop_succ_cons, List.drop_zero] at hbody
    rw [meetsEmptyBlock_of_opens hopen]
    by_cases hfirst : Closes first
    · have hempty : enclosed? 0 (first :: body ++ closer :: rest) =
          some ([], body ++ closer :: rest) :=
        enclosed?_eq_some_iff.2 ⟨first, rfl, hfirst, le_rfl, by simp⟩
      refine .inl ⟨⟨_, _, hempty, .inl rfl⟩, ?_⟩
      have hle := hashes_scan_append_le hbody hclose rest
      have hrest : hashes (scan 0 rest) ≤ hashes (scan 1 rest) := by
        rcases ih with ⟨-, hlt⟩ | ⟨-, heq⟩
        · exact hlt.le
        · rw [heq]
      rw [scan_of_some hopen hempty, List.map_nil, List.nil_append, hashes_append,
        hashes_map_asProse, hashes_cons, hfirst.count, List.length_cons]
      omega
    · have hsame : enclosed? 0 (first :: body ++ closer :: rest) = some (first :: body, rest) :=
        enclosed?_eq_some_iff.2 ⟨closer, rfl, hclose, Nat.zero_le _, by simpa using ⟨hfirst, hbody⟩⟩
      rw [scan_of_some hopen hsame, hsame]
      simpa using ih
  | case3 row rows hopen hnone _ =>
    have hlater := enclosed?_eq_none_iff.1 hnone
    rw [meetsEmptyBlock_of_opens hopen, scan_eq_self hlater]
    by_cases hfirst : ∃ first after, rows = first :: after ∧ Closes first
    · obtain ⟨first, after, rfl, hclose⟩ := hfirst
      have hempty : enclosed? 0 (first :: after) = some ([], after) :=
        enclosed?_eq_some_iff.2 ⟨first, rfl, hclose, le_rfl, by simp⟩
      refine .inl ⟨⟨_, _, hempty, .inl rfl⟩, ?_⟩
      rw [scan_of_some hopen hempty, scan_eq_self (by simpa using hlater)]
      simp [hopen.count]
      omega
    · have hall : ∀ row ∈ rows.drop 0, ¬ Closes row := by
        cases rows with
        | nil => simp
        | cons first after => simpa using ⟨fun h => hfirst ⟨_, _, rfl, h⟩, hlater⟩
      have hend := enclosed?_eq_none_iff.2 hall
      refine .inr ⟨by simp [hend], ?_⟩
      rw [scan_of_none hopen hend, scan_eq_self hall]
  | case4 row rows hopen ih =>
    rw [meetsEmptyBlock_of_not_opens hopen, scan_of_not_opens hopen]
    simpa using ih

/-- **Blocks without rows** are not expanded. One pass with blocks of at least one row is what is
done, and a pass that expands blocks without rows as well does the same exactly if it meets none.

**Proof sketch.** Both passes are one scan with another least number of rows. They give the same
rows if no empty block is met. If one is, the second pass leaves fewer hashes (`hashes_scan`), and
the texts differ. -/
theorem expand_eq_scan_iff (t : Text) :
    expand t = Text.unrows (scan 1 (Text.rows t)) ∧
      (expand t = Text.unrows (scan 0 (Text.rows t)) ↔ ¬ MeetsEmptyBlock (Text.rows t)) := by
  have hexpand : expand t = Text.unrows (scan 1 (Text.rows t)) := by
    rw [expand, expandRows_eq_scan]
  have hcount (rows : List Text) : (Text.unrows rows).count '#' = hashes rows := by
    simp [count_unrows, hashes]
  refine ⟨hexpand, ?_⟩
  rw [hexpand]
  obtain ⟨hmeets, hlt⟩ | ⟨hnone, heq⟩ := hashes_scan (Text.rows t)
  · refine iff_of_false (fun h => ?_) (not_not.2 hmeets)
    have := congrArg (List.count '#') h
    rw [hcount, hcount] at this
    omega
  · exact iff_of_true (by rw [heq]) hnone

/-- The first closing row belongs to a block without rows, and the code after it becomes prose. -/
theorem expand_ne_scan :
    expand "#=\n=#\nx = 1\n#=\nnote\n=#\n".toList ≠
      Text.unrows (scan 0 (Text.rows "#=\n=#\nx = 1\n#=\nnote\n=#\n".toList)) := by
  decide +kernel

end Weave.BlockComment
