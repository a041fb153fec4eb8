import Weave.Lit.Session
import Weave.Page
import Weave.Proofs.Files.Writing
import Weave.Proofs.Stateful

set_option autoImplicit false
set_option relaxedAutoImplicit false

/-!
# The images of a page

A block whose value is an image is followed by a reference to a file, and the image is saved to that
file. The file is named for the code of the block, so blocks with the same code share a file, and it
holds the image of the last of them. The same goes for blocks with different code, if a link makes
one file of the two names.

## Main definitions

* `Weave.Page.outcomes` — the blocks that are run, and what is shown of them.
* `Weave.Page.files` — the files that their images are saved to.

## Main results

* `Weave.Page.results_eq_ok` — a run that succeeds shows all blocks and saves all images.
* `Weave.Page.read_image_ofRunChunks` — what the file of an image holds in the end.
* `Weave.Page.read_image_ne_payload` — it need not be the image of the block.
-/

namespace Weave

/-- No digit of base sixteen is a slash. -/
lemma slash_not_mem_hexNumeral (n : Nat) : '/' ∉ hexNumeral n := by
  induction n using Nat.strongRecOn with
  | ind n ih =>
    rw [hexNumeral, Nat.toDigits_eq_if (by decide)]
    split
    next => simp
    next h =>
      rw [List.mem_append, not_or]
      exact ⟨ih (n / 16) (Nat.div_lt_self (by omega) (by decide)), by simp⟩

namespace Page

/-- **The name of an image** leads to a file in whatever directory it is looked up. -/
lemma isFileName_imageName {mime : Mime} (h : mime ∈ Mime.images) (code : Text) :
    Path.IsFileName (imageName code mime) := by
  have hextension : '/' ∉ mime.extension ∧ 4 ≤ mime.extension.length := by
    simp only [Mime.images, List.mem_cons, List.not_mem_nil, or_false] at h
    rcases h with rfl | rfl | rfl <;> decide
  refine Path.isFileName_of_length ?_ ?_
  · rw [imageName, List.mem_append, not_or]
    refine ⟨?_, hextension.1⟩
    simp only [Bytes.hex, List.mem_flatMap, not_exists, not_and]
    intro b _
    rw [hexNumeralOfWidth, List.mem_append, not_or]
    exact ⟨fun hzero => absurd (List.eq_of_mem_replicate hzero) (by decide),
      slash_not_mem_hexNumeral _⟩
  · rw [imageName, List.length_append]
    omega

variable {σ ν ε : Type}

/-- An image that is shown is of one of the kinds of images. -/
lemma mem_images_of_ofBlock {sandbox : Sandbox σ ν ε} {done : Executed ν} {mime : Mime}
    {payload : Payload} (h : Shown.ofBlock sandbox done = .image mime payload) :
    mime ∈ Mime.images := by
  unfold Shown.ofBlock Shown.ofValue at h
  split at h
  next v _ =>
    split at h
    next m p _ _ himage =>
      cases h
      obtain ⟨mime', hmem, hshows⟩ := List.exists_of_findSome?_eq_some himage
      obtain ⟨_, -, hpair⟩ := Option.map_eq_some_iff.1 hshows
      cases hpair
      exact hmem
    next => cases h
    next => cases h
    next => cases h
  next =>
    split at h
    next => cases h
    next => cases h

/-! ## Blocks -/

/-- A block that was run, and what is shown of it. -/
structure Block where
  code : Text
  shown : Shown
deriving DecidableEq, Repr

/-- **The blocks that are run**, one at most for each section. Nothing is saved. -/
def outcomes (sandbox : Sandbox σ ν ε) :
    List Section → σ → Except (Failure ε) (List (Option Block))
  | [], _ => .ok []
  | s :: rest, state =>
    match s.code? with
    | none => (outcomes sandbox rest state).map (none :: ·)
    | some code =>
      match execute sandbox code state with
      | (.error fault, _) => .error (.execution fault)
      | (.ok done, state) =>
        (outcomes sandbox rest state).map (some ⟨code, Shown.ofBlock sandbox done⟩ :: ·)

/-- What stands on the page after a section. -/
def blockText : Option Block → Text
  | none => []
  | some block => block.shown.text block.code

/-- The file that the image of a block is saved to, and what is put into it. -/
def Block.file? (block : Block) : Option (Text × Bytes) :=
  match block.shown with
  | .image mime payload => some (imageName block.code mime, payload.bytes)
  | _ => none

/-- **The files that images are saved to**, in the order in which they are. -/
def files (blocks : List (Option Block)) : List (Text × Bytes) :=
  blocks.filterMap fun block? => block?.bind Block.file?

/-! ## Runs -/

/-- Saves files of images into a directory. -/
def writeInto (directory : Text) (name : Text) (contents : Bytes) :
    StateM Tree (Except FileFault Unit) :=
  Tree.fileSystem.write (Path.join directory name) contents

/-- Writing changes the tree, or ends in a fault and leaves it as it is. -/
lemma writeInto_apply (directory name : Text) (contents : Bytes) (tree : Tree) :
    writeInto directory name contents tree =
      match tree.write (Path.join directory name) contents with
      | .ok next => (.ok (), next)
      | .error fault => (.error fault, tree) :=
  Tree.change_apply (·.write (Path.join directory name) contents) tree

/-- What is shown is saved, if it is an image, and nothing else is written. -/
lemma save_eq_ok {directory code : Text} {shown : Shown} {tree next : Tree}
    (h : shown.save (writeInto directory) code tree = (.ok (), next)) :
    Tree.writeFiles directory (files [some ⟨code, shown⟩]) tree = .ok next := by
  cases shown with
  | image mime payload =>
    rw [Shown.save, writeInto_apply] at h
    split at h
    next written hwrite =>
      cases h
      simp [files, Block.file?, Tree.writeFiles, hwrite]
    next => cases h
  | nothing =>
    cases h
    rfl
  | markdown t =>
    cases h
    rfl
  | plain t =>
    cases h
    rfl

/-- The files of the first block come first. -/
lemma files_cons (block? : Option Block) (blocks : List (Option Block)) :
    files (block? :: blocks) = files [block?] ++ files blocks := by
  rw [← List.singleton_append, files, List.filterMap_append]
  rfl

section Runs

variable {sandbox : Sandbox σ ν ε} {directory : Text} {s : Section} {ss : List Section} {state : σ}
  {tree last : Tree} {shown : List Text}

/-- A section without code to run shows nothing. -/
lemma results_eq_ok_of_none (hcode : s.code? = none)
    (h : results (writeInto directory) sandbox (s :: ss) state tree = (.ok shown, last)) :
    ∃ shown', results (writeInto directory) sandbox ss state tree = (.ok shown', last) ∧
      shown = [] :: shown' := by
  rw [results] at h
  simp only [hcode, bind_apply] at h
  cases hrest : results (writeInto directory) sandbox ss state tree with
  | mk outcome next =>
    simp only [hrest] at h
    cases outcome with
    | error failure => cases h
    | ok shown' =>
      cases h
      exact ⟨shown', rfl, rfl⟩

/-- **A block is run**, its image is saved, and the run goes on with what this leaves.

**Proof sketch.** By steps: the block is run, its image is saved, the rest is run. If one of them
failed, so would the whole. -/
lemma results_eq_ok_of_some {code : Text} (hcode : s.code? = some code)
    (h : results (writeInto directory) sandbox (s :: ss) state tree = (.ok shown, last)) :
    ∃ done state' next shown', execute sandbox code state = (.ok done, state') ∧
      (Shown.ofBlock sandbox done).save (writeInto directory) code tree = (.ok (), next) ∧
      results (writeInto directory) sandbox ss state' next = (.ok shown', last) ∧
      shown = (Shown.ofBlock sandbox done).text code :: shown' := by
  rw [results] at h
  simp only [hcode] at h
  cases hdone : execute sandbox code state with
  | mk outcome state' =>
    simp only [hdone] at h
    cases outcome with
    | error fault => cases h
    | ok done =>
      simp only [bind_apply] at h
      cases hsave : (Shown.ofBlock sandbox done).save (writeInto directory) code tree with
      | mk saved next =>
        simp only [hsave] at h
        cases saved with
        | error fault => cases h
        | ok _ =>
          simp only [bind_apply] at h
          cases hrest : results (writeInto directory) sandbox ss state' next with
          | mk outcome last' =>
            simp only [hrest] at h
            cases outcome with
            | error failure => cases h
            | ok shown' =>
              cases h
              exact ⟨done, state', next, shown', rfl, hsave, hrest, rfl⟩

/-- The file of a block that is shown has the name of a file. -/
lemma isFileName_of_ofBlock {code : Text} {done : Executed ν} {file : Text × Bytes}
    (h : Block.file? ⟨code, Shown.ofBlock sandbox done⟩ = some file) : Path.IsFileName file.1 := by
  unfold Block.file? at h
  split at h
  next mime payload hshown =>
    cases h
    exact isFileName_imageName (mem_images_of_ofBlock hshown) code
  next => cases h

/-- **A run that succeeds** shows all blocks and saves all images.

**Proof sketch.** By sections, each time for the state of the sandbox and the tree of files that the
sections before have left. -/
theorem results_eq_ok
    (h : results (writeInto directory) sandbox ss state tree = (.ok shown, last)) :
    ∃ blocks, outcomes sandbox ss state = .ok blocks ∧ shown = blocks.map blockText ∧
      Tree.writeFiles directory (files blocks) tree = .ok last ∧
      ∀ file ∈ files blocks, Path.IsFileName file.1 := by
  induction ss generalizing state tree shown with
  | nil =>
    cases h
    exact ⟨[], rfl, rfl, rfl, by simp [files]⟩
  | cons s ss ih =>
    rw [outcomes]
    cases hcode : s.code? with
    | none =>
      obtain ⟨shown', hrest, rfl⟩ := results_eq_ok_of_none hcode h
      obtain ⟨blocks, hblocks, rfl, hfiles, hnames⟩ := ih hrest
      exact ⟨none :: blocks, by rw [hblocks]; rfl, rfl, hfiles, hnames⟩
    | some code =>
      obtain ⟨done, state', next, shown', hdone, hsave, hrest, rfl⟩ :=
        results_eq_ok_of_some hcode h
      obtain ⟨blocks, hblocks, rfl, hfiles, hnames⟩ := ih hrest
      refine ⟨some ⟨code, Shown.ofBlock sandbox done⟩ :: blocks, ?_, rfl, ?_, ?_⟩
      · simp only [hdone, hblocks]
        rfl
      · rw [files_cons, Tree.writeFiles_append, save_eq_ok hsave]
        exact hfiles
      · rw [files_cons, List.forall_mem_append]
        refine ⟨fun file hfile => ?_, hnames⟩
        obtain ⟨block?, hmem, hblock⟩ := List.mem_filterMap.1 hfile
        obtain rfl := List.mem_singleton.1 hmem
        exact isFileName_of_ofBlock hblock

end Runs

/-- The reference after a block names the file that its image is saved to. -/
lemma blockText_of_file? {block : Block} {name : Text} {contents : Bytes}
    (h : block.file? = some (name, contents)) :
    blockText (some block) = "\n![](".toList ++ name ++ ")\n".toList := by
  unfold Block.file? at h
  split at h
  next mime payload hshown =>
    cases h
    rw [blockText, hshown]
    rfl
  next => cases h

/-- **What the file of an image holds in the end**: the image of the last block whose image is saved
to this file, from the block itself on. It is the file that the reference after the block names. In
a plain tree these are the blocks whose images have this name.

**Proof sketch.** A run that succeeds saves the images of all blocks one after another
(`results_eq_ok`), and after many writes the last one counts (`Tree.read_writeFiles`). -/
theorem read_image_ofRunChunks {sandbox : Sandbox σ ν ε} {directory : Text} {state : σ}
    {s : Settings} {cs : List Chunk} {tree last : Tree} {text : Text}
    (h : ofRunChunks (writeInto directory) sandbox state s cs tree = (.ok text, last)) :
    ∃ blocks, outcomes sandbox (sections [] cs) state = .ok blocks ∧
      text = assemble s cs (blocks.map blockText) ∧
      ∀ before block after name contents, blocks = before ++ some block :: after →
        block.file? = some (name, contents) →
        blockText (some block) = "\n![](".toList ++ name ++ ")\n".toList ∧
          last.read (Path.join directory name) = .ok (Tree.lastContents
            (fun other => last.sameFile (Path.join directory other) (Path.join directory name))
            contents (files after)) ∧
          (tree.Plain → last.read (Path.join directory name) =
            .ok (Tree.lastContents (· == name) contents (files after))) := by
  rw [ofRunChunks, bind_apply] at h
  cases hrun : results (writeInto directory) sandbox (sections [] cs) state tree with
  | mk outcome last' =>
    simp only [hrun] at h
    cases outcome with
    | error failure => cases h
    | ok shown =>
      cases h
      obtain ⟨blocks, hblocks, rfl, hfiles, hnames⟩ := results_eq_ok hrun
      refine ⟨blocks, hblocks, rfl, ?_⟩
      rintro before block after name contents rfl hfile
      have hsplit : files (before ++ some block :: after) =
          files before ++ (name, contents) :: files after := by
        rw [files, List.filterMap_append, List.filterMap_cons]
        simp only [Option.bind_some, hfile]
        rfl
      rw [hsplit] at hfiles hnames
      exact ⟨blockText_of_file? hfile, Tree.read_writeFiles hfiles,
        fun hplain => Tree.read_writeFiles_of_plain hplain hnames hfiles⟩

/-- What can be had as an option has come out well. -/
lemma eq_ok_of_toOption {α : Type} {x : Except ε α} {a : α} (h : x.toOption = some a) :
    x = .ok a := by
  cases x with
  | error failure => cases h
  | ok b => exact congrArg Except.ok (Option.some.inj h)

/-- A run that comes out well has a result. -/
lemma exists_eq_of_isOk {α : Type} {x : Except ε α × Tree} (h : x.1.isOk = true) :
    ∃ a last, x = (.ok a, last) := by
  obtain ⟨outcome, last⟩ := x
  cases outcome with
  | error failure => cases h
  | ok a => exact ⟨a, last, rfl⟩

/-- A page with the same code twice, for different values. -/
def sameCodeTwice : List Chunk :=
  [.code ["s = \"a\";".toList] .terminated, .code ["svg(s)".toList] .terminated,
    .code ["s = \"b\";".toList] .terminated, .code ["svg(s)".toList] .terminated]

/-- The blocks of the page with the same code twice show different images. -/
lemma outcomes_sameCodeTwice :
    outcomes Lit.sandbox (sections [] sameCodeTwice) {} =
      .ok [some ⟨"s = \"a\";".toList, .nothing⟩,
        some ⟨"svg(s)".toList, .image .svg (.text "a".toList)⟩,
        some ⟨"s = \"b\";".toList, .nothing⟩,
        some ⟨"svg(s)".toList, .image .svg (.text "b".toList)⟩] := by
  exact eq_ok_of_toOption (by decide +kernel)

/-- The page with the same code twice can be made in an empty directory. -/
lemma exists_ofRunChunks_sameCodeTwice :
    ∃ text last, ofRunChunks (writeInto []) Lit.sandbox {} {} sameCodeTwice Tree.bare =
      (.ok text, last) :=
  exists_eq_of_isOk (by decide +kernel)

/-- In the end the file of both images holds the second one. -/
theorem read_image_sameCodeTwice :
    ∃ text last, ofRunChunks (writeInto []) Lit.sandbox {} {} sameCodeTwice Tree.bare =
        (.ok text, last) ∧
      last.read (Path.join [] (imageName "svg(s)".toList .svg)) =
        .ok (Payload.text "b".toList).bytes := by
  obtain ⟨text, last, hrun⟩ := exists_ofRunChunks_sameCodeTwice
  obtain ⟨blocks, hblocks, -, hread⟩ := read_image_ofRunChunks hrun
  cases hblocks.symm.trans outcomes_sameCodeTwice
  refine ⟨text, last, hrun, ?_⟩
  have hfiles : files [some ⟨"s = \"b\";".toList, .nothing⟩,
      some ⟨"svg(s)".toList, .image .svg (.text "b".toList)⟩] =
      [(imageName "svg(s)".toList .svg, (Payload.text "b".toList).bytes)] := rfl
  rw [(hread [_] ⟨"svg(s)".toList, .image .svg (.text "a".toList)⟩ _ _ _ rfl rfl).2.2 ⟨rfl, rfl⟩,
    hfiles, Tree.lastContents_cons, if_pos (beq_self_eq_true _)]
  rfl

/-- **An image on a page need not be the right one**: the file that the reference after the first
block names holds another image than that of the block. -/
theorem read_image_ne_payload :
    ∃ text last blocks before block after name contents,
      ofRunChunks (writeInto []) Lit.sandbox {} {} sameCodeTwice Tree.bare = (.ok text, last) ∧
      outcomes Lit.sandbox (sections [] sameCodeTwice) {} = .ok blocks ∧
      blocks = before ++ some block :: after ∧ block.file? = some (name, contents) ∧
      last.read (Path.join [] name) ≠ .ok contents := by
  obtain ⟨text, last, hrun⟩ := exists_ofRunChunks_sameCodeTwice
  refine ⟨text, last, _, [_], _, _, _, _, hrun, outcomes_sameCodeTwice, rfl, rfl, ?_⟩
  have hlast : (ofRunChunks (writeInto []) Lit.sandbox {} {} sameCodeTwice Tree.bare).2 = last :=
    congrArg Prod.snd hrun
  have hread : (last.read (Path.join [] (imageName "svg(s)".toList .svg))).toOption =
      some (Payload.text "b".toList).bytes := by
    rw [← hlast]
    decide +kernel
  intro h
  rw [h] at hread
  revert hread
  decide

end Page

end Weave
