import Weave.Proofs.Lit.Joining

set_option autoImplicit false
set_option relaxedAutoImplicit false

/-!
# Where the parts of a program are

The stretch of code that an expression comes from can be cut out of the code, it is not empty, and
the stretches of the parts lie in it one after another. So do the stretches of the statements in the
whole code.

## Main definitions

* `Weave.Text.IsBoundary` — an offset in bytes between two characters.
* `Weave.Lit.Span.Slices` — a stretch that can be cut out of a code.
* `Weave.Lit.InOrder` — stretches that follow one another between two offsets.
* `Weave.Lit.Expr.OccursIn` — the parts of an expression, the parts of its parts, and so on.
* `Weave.Lit.Expr.LaidOut`, `Weave.Lit.Program.LaidOut` — the stretches of a tree are as above.

## Main results

* `Weave.Lit.Lexed.inOrder` — tokens follow one another.
* `Weave.Lit.Phrase.laidOut` — so do the parts of an expression that is derived from them.
* `Weave.Lit.laidOut_of_parse` — and the parts of a program.
-/

namespace Weave

/-- **An offset between two characters** of a text, or at one of its ends, in bytes. -/
def Text.IsBoundary (t : Text) (n : Nat) : Prop :=
  ∃ before after, t = before ++ after ∧ n = byteSize before

namespace Text.IsBoundary

/-- What is read of a text ends at a boundary. -/
lemma of_append (before after : Text) : (before ++ after).IsBoundary (byteSize before) :=
  ⟨before, after, rfl, rfl⟩

/-- A boundary is within the text. -/
lemma le {t : Text} {n : Nat} (h : t.IsBoundary n) : n ≤ byteSize t := by
  obtain ⟨before, after, rfl, rfl⟩ := h
  rw [byteSize_append]
  exact Nat.le_add_right ..

end Text.IsBoundary

namespace Lit

/-! ## Stretches -/

/-- **A stretch that can be cut out** of a code. -/
structure Span.Slices (span : Span) (code : Text) : Prop where
  start_le_stop : span.start ≤ span.stop
  start_boundary : code.IsBoundary span.start
  stop_boundary : code.IsBoundary span.stop
  stop_le : span.stop ≤ Text.byteSize code

/-- A stretch between two boundaries can be cut out. -/
lemma Span.slices_of_boundaries {code : Text} {span : Span} (hle : span.start ≤ span.stop)
    (hstart : code.IsBoundary span.start) (hstop : code.IsBoundary span.stop) :
    span.Slices code :=
  ⟨hle, hstart, hstop, hstop.le⟩

/-- The stretch of what is read next can be cut out. -/
lemma Span.slices_append (before spelling rest : Text) :
    Span.Slices ⟨Text.byteSize before, Text.byteSize before + Text.byteSize spelling⟩
      (before ++ (spelling ++ rest)) := by
  refine Span.slices_of_boundaries (Nat.le_add_right ..) (.of_append ..) ?_
  rw [← List.append_assoc, ← Text.byteSize_append]
  exact .of_append ..

/-- **A stretch that lies in another one.** -/
def Span.Within (inner outer : Span) : Prop :=
  outer.start ≤ inner.start ∧ inner.stop ≤ outer.stop

/-- **A stretch that ends** where another one begins, or before. -/
def Span.Before (first second : Span) : Prop :=
  first.stop ≤ second.start

/-- **Stretches that follow one another** between two offsets: none is empty, and none begins before
the one in front of it ends. -/
def InOrder (start : Nat) : List Span → Nat → Prop
  | [], stop => start ≤ stop
  | s :: ss, stop => start ≤ s.start ∧ s.start < s.stop ∧ InOrder s.stop ss stop

namespace InOrder

variable {a b : Nat} {s : Span} {ss more : List Span}

/-- The offsets are in order too. -/
lemma le (h : InOrder a ss b) : a ≤ b := by
  induction ss generalizing a with
  | nil => exact h
  | cons s ss ih =>
    have hrest := ih h.2.2
    have hstart := h.1
    have hstop := h.2.1
    omega

/-- **Two runs of stretches**, one after the other, are divided by an offset. -/
lemma append_iff : InOrder a (ss ++ more) b ↔ ∃ m, InOrder a ss m ∧ InOrder m more b := by
  induction ss generalizing a with
  | nil =>
    constructor
    · exact fun h => ⟨a, Nat.le_refl a, h⟩
    · rintro ⟨m, ham, h⟩
      cases more with
      | nil => exact Nat.le_trans ham h
      | cons s more => exact ⟨Nat.le_trans ham h.1, h.2⟩
  | cons s ss ih =>
    simp only [List.cons_append, InOrder, ih]
    constructor
    · rintro ⟨hstart, hstop, m, hss, hmore⟩
      exact ⟨m, ⟨hstart, hstop, hss⟩, hmore⟩
    · rintro ⟨m, ⟨hstart, hstop, hss⟩, hmore⟩
      exact ⟨hstart, hstop, m, hss, hmore⟩

/-- Room before and after stretches makes no difference. -/
lemma mono {a' b' : Nat} (h : InOrder a ss b) (ha : a' ≤ a) (hb : b ≤ b') :
    InOrder a' ss b' := by
  have hrest : InOrder a (ss ++ []) b' := append_iff.2 ⟨b, h, hb⟩
  rw [List.append_nil] at hrest
  have hall : InOrder a' ([] ++ ss) b' := append_iff.2 ⟨a, ha, hrest⟩
  exact hall

/-- Every stretch lies between the offsets. -/
lemma within (h : InOrder a ss b) : ∀ s ∈ ss, s.Within ⟨a, b⟩ := by
  induction ss generalizing a with
  | nil => exact List.forall_mem_nil _
  | cons s ss ih =>
    obtain ⟨hstart, hstop, hrest⟩ := h
    rw [List.forall_mem_cons]
    refine ⟨⟨hstart, hrest.le⟩, fun t ht => ?_⟩
    obtain ⟨htstart, htstop⟩ := ih hrest t ht
    exact ⟨Nat.le_trans hstart (Nat.le_trans (Nat.le_of_lt hstop) htstart), htstop⟩

/-- **Every stretch ends** before the later ones begin. -/
lemma pairwise (h : InOrder a ss b) : ss.Pairwise Span.Before := by
  induction ss generalizing a with
  | nil => exact .nil
  | cons s ss ih => exact .cons (fun t ht => (h.2.2.within t ht).1) (ih h.2.2)

end InOrder

/-! ## Trees -/

namespace Expr

/-- **The parts** that an expression is directly made of, in the order of the source. -/
def parts : Expr → List Expr
  | unary _ _ operand => [operand]
  | binary _ _ left right => [left, right]
  | conditional _ condition yes no => [condition, yes, no]
  | call _ _ arguments => arguments
  | _ => []

/-- **A part of an expression**, or a part of a part, and so on, or the expression itself. -/
inductive OccursIn : Expr → Expr → Prop
  | refl (e : Expr) : OccursIn e e
  | part {sub part e : Expr} : part ∈ e.parts → OccursIn sub part → OccursIn sub e

/-- The stretch of an expression can be cut out of the code, it is not empty, and those of its parts
lie in it one after another. -/
structure Fits (code : Text) (e : Expr) : Prop where
  slices : e.span.Slices code
  nonempty : e.span.start < e.span.stop
  parts_within : ∀ part ∈ e.parts, part.span.Within e.span
  parts_ordered : (e.parts.map span).Pairwise Span.Before

/-- **The stretches of a tree** are nested as the tree is. -/
def LaidOut (code : Text) (e : Expr) : Prop :=
  ∀ sub : Expr, sub.OccursIn e → sub.Fits code

variable {code : Text} {e : Expr} {a b : Nat}

/-- An expression is laid out if it fits and its parts are laid out. -/
lemma Fits.laidOut (h : e.Fits code) (hparts : ∀ part ∈ e.parts, part.LaidOut code) :
    e.LaidOut code := by
  intro sub hsub
  cases hsub with
  | refl => exact h
  | part hpart hsub => exact hparts _ hpart sub hsub

/-- An expression is laid out if its parts follow one another, in a stretch between the beginning of
a stretch and the end of another, and are laid out. -/
lemma laidOut_of_inOrder {first last : Span} (hspan : e.span = ⟨first.start, last.stop⟩)
    (hfirst : first.Slices code) (hlast : last.Slices code) (hlt : first.start < last.stop)
    (horder : InOrder first.start (e.parts.map span) last.stop)
    (hparts : ∀ part ∈ e.parts, part.LaidOut code) : e.LaidOut code := by
  refine Fits.laidOut ⟨?_, ?_, fun part hpart => ?_, horder.pairwise⟩ hparts
  · rw [hspan]
    exact Span.slices_of_boundaries (Nat.le_of_lt hlt) hfirst.start_boundary hlast.stop_boundary
  · rw [hspan]
    exact hlt
  · rw [hspan]
    exact horder.within part.span (List.mem_map_of_mem hpart)

/-- The stretch of an expression that is laid out can be cut out of the code. -/
lemma LaidOut.slices (h : e.LaidOut code) : e.span.Slices code :=
  (h e (.refl e)).slices

/-- An expression has the span that it is given. -/
@[simp] lemma span_withSpan (e : Expr) (new : Span) : (e.withSpan new).span = new := by
  cases e <;> rfl

/-- An expression has the same parts whatever its span is. -/
@[simp] lemma parts_withSpan (e : Expr) (new : Span) : (e.withSpan new).parts = e.parts := by
  cases e <;> rfl

/-- **Parentheses** only widen the stretch of an expression. -/
lemma LaidOut.withSpan (h : e.LaidOut code) {new : Span} (hslices : new.Slices code)
    (hwithin : e.span.Within new) : (e.withSpan new).LaidOut code := by
  have hfits := h e (.refl e)
  refine Fits.laidOut ⟨?_, ?_, ?_, ?_⟩ ?_
  · rwa [span_withSpan]
  · rw [span_withSpan]
    exact Nat.lt_of_le_of_lt hwithin.1 (Nat.lt_of_lt_of_le hfits.nonempty hwithin.2)
  · rw [span_withSpan, parts_withSpan]
    intro part hpart
    obtain ⟨hstart, hstop⟩ := hfits.parts_within part hpart
    exact ⟨Nat.le_trans hwithin.1 hstart, Nat.le_trans hstop hwithin.2⟩
  · rw [parts_withSpan]
    exact hfits.parts_ordered
  · rw [parts_withSpan]
    exact fun part hpart sub hsub => h sub (.part hpart hsub)

end Expr

/-- **The stretch of a statement** can be cut out of the code, it is not empty, and that of its
expression lies in it and is that of a tree which is laid out. -/
structure Statement.LaidOut (code : Text) (s : Statement) : Prop where
  slices : s.span.Slices code
  nonempty : s.span.start < s.span.stop
  value_within : s.value.span.Within s.span
  value : s.value.LaidOut code

/-- **The stretches of a program** follow one another as the statements do. -/
structure Program.LaidOut (code : Text) (program : Program) : Prop where
  statements : ∀ s ∈ program, s.LaidOut code
  ordered : (program.map Statement.span).Pairwise Span.Before

/-! ## Tokens -/

/-- **Tokens follow one another**, and the stretch of each can be cut out of the code.

**Proof sketch.** Induction on the lexemes. Each is as long as its spelling, which is not empty, and
the next one begins where it stops. It is cut out of the code as the part between what has been read
and the rest. -/
theorem Lexed.inOrder {depth : Nat} {before t : Text} {ts : List Placed}
    (h : Lexed depth before t ts) :
    InOrder (Text.byteSize before) (ts.map Placed.span) (Text.byteSize (before ++ t)) ∧
      ∀ p ∈ ts, p.span.Slices (before ++ t) := by
  induction h with
  | nil depth before =>
    rw [List.append_nil]
    exact ⟨Nat.le_refl _, List.forall_mem_nil _⟩
  | @skip depth before t c s ts hs hk _ ih =>
    obtain ⟨horder, hslices⟩ := ih
    rw [List.append_assoc, ← (scan_eq_append hs).1] at horder hslices
    refine ⟨horder.mono ?_ (Nat.le_refl _), hslices⟩
    rw [Text.byteSize_append]
    exact Nat.le_add_right ..
  | @token depth before t c s k ts hs hk _ ih =>
    obtain ⟨horder, hslices⟩ := ih
    obtain ⟨happ, hne⟩ := scan_eq_append hs
    rw [List.append_assoc, ← happ] at horder hslices
    rw [Text.byteSize_append] at horder
    rw [List.map_cons, List.forall_mem_cons]
    refine ⟨⟨Nat.le_refl _, ?_, horder⟩, ?_, hslices⟩
    · have hpos : 0 < Text.byteSize s.spelling := by
        obtain ⟨d, more, heq⟩ := List.exists_cons_of_ne_nil hne
        obtain ⟨n, hn, -⟩ := Text.byteSize_cons d more
        rw [heq, hn]
        exact Nat.succ_pos n
      exact Nat.lt_add_of_pos_right hpos
    · rw [happ]
      exact Span.slices_append before s.spelling s.rest

/-! ## Expressions -/

section

variable {code : Text} {depth a b : Nat} {ts : List Placed}

/-- The stretch of an expression without parts is that of its tokens.

**Proof sketch.** The stretch of every such expression goes from a first token to a last one, which
may be the same. Tokens follow one another, so the one begins before the other ends. -/
lemma Atom.laidOut {e : Expr} (h : Atom ts e) (horder : InOrder a (ts.map Placed.span) b)
    (hslices : ∀ p ∈ ts, p.span.Slices code) : InOrder a [e.span] b ∧ e.LaidOut code := by
  obtain ⟨first, last, hspan, hfirst, hlast, hinOrder, hparts⟩ : ∃ first last : Span,
      e.span = ⟨first.start, last.stop⟩ ∧ first.Slices code ∧ last.Slices code ∧
        InOrder a [⟨first.start, last.stop⟩] b ∧ e.parts = [] := by
    cases h with
    | emptyParens opening close | callUnit opening close =>
      simp only [List.map_cons, List.map_nil, InOrder, List.forall_mem_cons] at horder hslices
      obtain ⟨hopening, hopen, hclose, hlt, hend⟩ := horder
      have hlt' : opening.start < close.stop := by omega
      exact ⟨opening, close, rfl, hslices.1, hslices.2.1, ⟨hopening, hlt', hend⟩, rfl⟩
    | callNone place opening close =>
      simp only [List.map_cons, List.map_nil, InOrder, List.forall_mem_cons] at horder hslices
      exact ⟨place, close, rfl, hslices.1, hslices.2.2.1,
        ⟨horder.1, by dsimp only; omega, horder.2.2.2.2.2.2⟩, rfl⟩
    | number place | string place | true place | false place | unit place | ident place =>
      exact ⟨place, place, rfl, hslices _ List.mem_cons_self, hslices _ List.mem_cons_self, horder,
        rfl⟩
  rw [hspan]
  refine ⟨hinOrder, Expr.laidOut_of_inOrder hspan hfirst hlast hinOrder.2.1 ?_ ?_⟩
  · rw [hparts]
    exact Nat.le_of_lt hinOrder.2.1
  · rw [hparts]
    exact List.forall_mem_nil _

/-- The further arguments of a call follow one another if the tokens do that they are derived
from. -/
lemma inOrder_furtherArguments {more : List FurtherArgument}
    (h : ∀ arg ∈ more, ∀ a b : Nat, InOrder a (arg.tokens.map Placed.span) b →
      (∀ p ∈ arg.tokens, p.span.Slices code) →
        InOrder a [arg.value.span] b ∧ arg.value.LaidOut code)
    (horder : InOrder a ((more.flatMap FurtherArgument.placed).map Placed.span) b)
    (hslices : ∀ p ∈ more.flatMap FurtherArgument.placed, p.span.Slices code) :
    InOrder a (more.map fun arg => arg.value.span) b ∧ ∀ arg ∈ more, arg.value.LaidOut code := by
  induction more generalizing a with
  | nil => exact ⟨horder, List.forall_mem_nil _⟩
  | cons arg more ih =>
    rw [List.forall_mem_cons] at h
    simp only [List.flatMap_cons, FurtherArgument.placed, List.cons_append, List.map_cons,
      List.map_append, InOrder, InOrder.append_iff, List.forall_mem_cons,
      List.forall_mem_append] at horder hslices
    obtain ⟨hcomma, hlt, m, hargument, hmore⟩ := horder
    obtain ⟨hfirst, hlaid⟩ := h.1 _ _ hargument hslices.2.1
    obtain ⟨hrest, hlaidRest⟩ := ih h.2 hmore hslices.2.2
    rw [List.map_cons, List.forall_mem_cons]
    refine ⟨?_, hlaid, hlaidRest⟩
    exact InOrder.append_iff.2
      ⟨m, hfirst.mono (Nat.le_trans hcomma (Nat.le_of_lt hlt)) (Nat.le_refl _), hrest⟩

/-- **The parts of an expression** follow one another if the tokens do that it is derived from.

**Proof sketch.** Induction on the derivation. In each rule the order of all tokens is split where
the tokens of a part begin and end, so the parts follow one another with the other tokens between
them. The stretch goes from the first part or token to the last one, and `Expr.laidOut_of_inOrder`
puts all this together. Parentheses only widen the stretch. -/
theorem Phrase.laidOut {sym : Symbol} {e : Expr} (h : Phrase depth sym ts e)
    (horder : InOrder a (ts.map Placed.span) b) (hslices : ∀ p ∈ ts, p.span.Slices code) :
    InOrder a [e.span] b ∧ e.LaidOut code := by
  induction h generalizing a b with
  | tighter _ _ ih => exact ih horder hslices
  | @conditional _ _ _ _ c y n question colon _ _ _ ihc ihy ihn =>
    simp only [List.map_append, List.map_cons, InOrder, InOrder.append_iff, List.forall_mem_append,
      List.forall_mem_cons] at horder hslices
    obtain ⟨m, hc, hquestion, hq, m', hy, hcolon, hl, hn⟩ := horder
    obtain ⟨⟨hc₁, hc₂, hc₃⟩, hcondition⟩ := ihc hc hslices.1
    obtain ⟨⟨hy₁, hy₂, hy₃⟩, hyes⟩ := ihy hy hslices.2.2.1
    obtain ⟨⟨hn₁, hn₂, hn₃⟩, hno⟩ := ihn hn hslices.2.2.2.2
    simp only [InOrder] at hc₃ hy₃ hn₃
    have hlt : c.span.start < n.span.stop := by omega
    refine ⟨⟨hc₁, hlt, hn₃⟩, Expr.laidOut_of_inOrder rfl hcondition.slices hno.slices hlt ?_ ?_⟩
    · simp only [Expr.parts, List.map_cons, List.map_nil, InOrder]
      omega
    · simp only [Expr.parts, List.forall_mem_cons]
      exact ⟨hcondition, hyes, hno, List.forall_mem_nil _⟩
  | @binary _ _ _ l r op place _ _ ihl ihr =>
    simp only [List.map_append, List.map_cons, InOrder, InOrder.append_iff, List.forall_mem_append,
      List.forall_mem_cons] at horder hslices
    obtain ⟨m, hl, hplace, hop, hr⟩ := horder
    obtain ⟨⟨hl₁, hl₂, hl₃⟩, hleft⟩ := ihl hl hslices.1
    obtain ⟨⟨hr₁, hr₂, hr₃⟩, hright⟩ := ihr hr hslices.2.2
    simp only [InOrder] at hl₃ hr₃
    have hlt : l.span.start < r.span.stop := by omega
    refine ⟨⟨hl₁, hlt, hr₃⟩, Expr.laidOut_of_inOrder rfl hleft.slices hright.slices hlt ?_ ?_⟩
    · simp only [Expr.parts, List.map_cons, List.map_nil, InOrder]
      omega
    · simp only [Expr.parts, List.forall_mem_cons]
      exact ⟨hleft, hright, List.forall_mem_nil _⟩
  | @unary _ _ e op place _ ih =>
    simp only [List.map_cons, InOrder, List.forall_mem_cons] at horder hslices
    obtain ⟨hplace, hop, he⟩ := horder
    obtain ⟨⟨he₁, he₂, he₃⟩, hoperand⟩ := ih he hslices.2
    simp only [InOrder] at he₃
    have hlt : place.start < e.span.stop := by omega
    refine ⟨⟨hplace, hlt, he₃⟩, Expr.laidOut_of_inOrder rfl hslices.1 hoperand.slices hlt ?_ ?_⟩
    · simp only [Expr.parts, List.map_cons, List.map_nil, InOrder]
      omega
    · simp only [Expr.parts, List.forall_mem_cons]
      exact ⟨hoperand, List.forall_mem_nil _⟩
  | atom _ h => exact h.laidOut horder hslices
  | @call n first e place opening close name more _ _ ih ihs =>
    simp only [List.map_append, List.map_cons, List.map_nil, InOrder, InOrder.append_iff,
      List.forall_mem_append, List.forall_mem_cons] at horder hslices
    obtain ⟨hplace, hname, hopening, hopen, m, hfirst, m', hmore, hclosing, hclose, hend⟩ := horder
    obtain ⟨⟨he₁, he₂, he₃⟩, hargument⟩ := ih hfirst hslices.2.2.1
    obtain ⟨hfurther, harguments⟩ := inOrder_furtherArguments
      (fun arg harg a b => ihs arg harg) hmore hslices.2.2.2.1
    have hle := hfurther.le
    simp only [InOrder] at he₃
    have hlt : place.start < close.stop := by omega
    refine ⟨⟨hplace, hlt, hend⟩,
      Expr.laidOut_of_inOrder rfl hslices.1 hslices.2.2.2.2.1 hlt ?_ ?_⟩
    · simp only [Expr.parts, List.map_cons, List.map_map, InOrder]
      exact ⟨by omega, he₂, hfurther.mono he₃ (by omega)⟩
    · simp only [Expr.parts, List.forall_mem_cons, List.forall_mem_map]
      exact ⟨hargument, harguments⟩
  | @parens _ _ e opening close _ ih =>
    simp only [List.map_append, List.map_cons, List.map_nil, InOrder, InOrder.append_iff,
      List.forall_mem_append, List.forall_mem_cons] at horder hslices
    obtain ⟨hopening, hopen, m, hinner, hclosing, hclose, hend⟩ := horder
    obtain ⟨⟨he₁, he₂, he₃⟩, he⟩ := ih hinner hslices.2.1
    simp only [InOrder] at he₃
    rw [Expr.span_withSpan]
    have hlt : opening.start < close.stop := by omega
    have hstart : opening.start ≤ e.span.start := by omega
    have hstop : e.span.stop ≤ close.stop := by omega
    refine ⟨⟨hopening, hlt, hend⟩, he.withSpan ?_ ⟨hstart, hstop⟩⟩
    exact Span.slices_of_boundaries (Nat.le_of_lt hlt) hslices.1.start_boundary
      hslices.2.2.1.stop_boundary

/-! ## Programs -/

/-- **The expression of a statement** lies in the stretch of the statement. -/
lemma Clause.laidOut {s : Statement} (h : Clause depth ts s)
    (horder : InOrder a (ts.map Placed.span) b) (hslices : ∀ p ∈ ts, p.span.Slices code) :
    InOrder a [s.span] b ∧ s.LaidOut code := by
  cases h with
  | @assign _ e place eq name value =>
    simp only [List.map_cons, InOrder, List.forall_mem_cons] at horder hslices
    obtain ⟨hplace, hname, heq, heqlt, hvalue⟩ := horder
    obtain ⟨⟨he₁, he₂, he₃⟩, he⟩ := value.laidOut hvalue hslices.2.2
    have hlt : place.start < e.span.stop := by omega
    have hstart : place.start ≤ e.span.start := by omega
    refine ⟨⟨hplace, hlt, he₃⟩, ⟨?_, hlt, ⟨hstart, Nat.le_refl _⟩, he⟩⟩
    exact Span.slices_of_boundaries (Nat.le_of_lt hlt) hslices.1.start_boundary
      he.slices.stop_boundary
  | expression value =>
    obtain ⟨hinOrder, he⟩ := value.laidOut horder hslices
    exact ⟨hinOrder, he.slices, hinOrder.2.1, ⟨Nat.le_refl _, Nat.le_refl _⟩, he⟩

/-- **The statements of a program** follow one another if the tokens do that it is derived from.

**Proof sketch.** Induction on the derivation. Separators stand between the statements, so these
follow one another as their tokens do (`Clause.laidOut`). -/
theorem Clauses.laidOut {program : Program} (h : Clauses depth ts program)
    (horder : InOrder a (ts.map Placed.span) b) (hslices : ∀ p ∈ ts, p.span.Slices code) :
    InOrder a (program.map Statement.span) b ∧ ∀ s ∈ program, s.LaidOut code := by
  induction h generalizing a with
  | nil => exact ⟨horder, List.forall_mem_nil _⟩
  | separator place _ ih =>
    rw [List.forall_mem_cons] at hslices
    obtain ⟨hstart, hstop, hrest⟩ := horder
    obtain ⟨hinOrder, hlaid⟩ := ih hrest hslices.2
    exact ⟨hinOrder.mono (Nat.le_trans hstart (Nat.le_of_lt hstop)) (Nat.le_refl _), hlaid⟩
  | last clause =>
    obtain ⟨hinOrder, hlaid⟩ := clause.laidOut horder hslices
    exact ⟨hinOrder, List.forall_mem_singleton.2 hlaid⟩
  | statement place clause _ ih =>
    simp only [List.map_append, List.map_cons, InOrder, InOrder.append_iff, List.forall_mem_append,
      List.forall_mem_cons] at horder hslices
    obtain ⟨m, hclause, hstart, hstop, hrest⟩ := horder
    obtain ⟨hfirst, hlaid⟩ := clause.laidOut hclause hslices.1
    obtain ⟨hmore, hlaidMore⟩ := ih hrest hslices.2.2
    rw [List.map_cons, List.forall_mem_cons]
    refine ⟨InOrder.append_iff.2 ⟨m, hfirst, hmore.mono ?_ (Nat.le_refl _)⟩, hlaid, hlaidMore⟩
    exact Nat.le_trans hstart (Nat.le_of_lt hstop)

end

/-- **The program of a code** is laid out in it. -/
theorem laidOut_of_parse {code : Text} {program : Program} (h : parse code = .ok program) :
    Program.LaidOut code program := by
  obtain ⟨ts, hlexed, hclauses⟩ := parse_eq_ok_iff.1 h
  obtain ⟨horder, hslices⟩ := hlexed.inOrder
  obtain ⟨hinOrder, hlaid⟩ := hclauses.laidOut horder hslices
  exact ⟨hlaid, hinOrder.pairwise⟩

end Lit

end Weave
