import Weave.Proofs.Json.Scalars

set_option autoImplicit false
set_option relaxedAutoImplicit false

/-!
# Values of JSON that are laid out

A value that is laid out on lines is read again, if its numbers are integers of 64 bits and it is
not nested deeper than the reader goes. What is read of an object are its fields as they are
written.

## Main definitions

* `Weave.Json.all` — whether something holds of a value and of all values in it.
* `Weave.Json.isIntegral` — whether all numbers of a value are integers of 64 bits.
* `Weave.Json.depth` — how deep arrays and objects are nested.
* `Weave.Json.ReadsBack` — a reader that reads what is laid out.

## Main results

* `Weave.Json.induction` — induction on values, for all items and fields at once.
* `Weave.Json.readsBack_value` — a value that is laid out is read again.
* `Weave.Json.readFields?_layout` — so are the fields of an object that makes up a text.

## Design

After a value comes a comma, a line feed or the end of the text, and none of them goes on as a
number. A reader passes over the blanks before a value, so the line that a value stands on makes no
difference.
-/

namespace Weave.Json

/-! ## Values and the values in them -/

/-- **Induction on values**, where a claim about an array or an object may use it for all values in
it. -/
@[elab_as_elim]
theorem induction {motive : Json → Prop} (null : motive .null) (bool : ∀ b, motive (.bool b))
    (number : ∀ n, motive (.number n)) (string : ∀ t, motive (.string t))
    (array : ∀ items, (∀ v ∈ items, motive v) → motive (.array items))
    (object : ∀ fields, (∀ field ∈ fields, motive field.2) → motive (.object fields))
    (v : Json) : motive v :=
  @Json.rec motive (fun items => ∀ v ∈ items, motive v)
    (fun fields => ∀ field ∈ fields, motive field.2) (fun field => motive field.2)
    null bool number string array object
    (List.forall_mem_nil _) (fun _ _ h hs => List.forall_mem_cons.2 ⟨h, hs⟩)
    (List.forall_mem_nil _) (fun _ _ h hs => List.forall_mem_cons.2 ⟨h, hs⟩) (fun _ _ h => h) v

mutual

/-- **Whether something holds** of a value and of all values in it. -/
def all (p : Json → Bool) : Json → Bool
  | array items => p (array items) && allItems p items
  | object fields => p (object fields) && allFields p fields
  | v => p v

/-- Whether something holds of all values in some items. -/
def allItems (p : Json → Bool) : List Json → Bool
  | [] => true
  | v :: vs => all p v && allItems p vs

/-- Whether something holds of all values in some fields. -/
def allFields (p : Json → Bool) : Fields → Bool
  | [] => true
  | (_, v) :: fs => all p v && allFields p fs

end

mutual

/-- **How deep** arrays and objects are nested. -/
def depth : Json → Nat
  | array items => depthItems items + 1
  | object fields => depthFields fields + 1
  | _ => 0

/-- How deep the deepest of some items is. -/
def depthItems : List Json → Nat
  | [] => 0
  | v :: vs => max (depth v) (depthItems vs)

/-- How deep the deepest of some fields is. -/
def depthFields : Fields → Nat
  | [] => 0
  | (_, v) :: fs => max (depth v) (depthFields fs)

end

/-- A test holds of all of a list of items if it does of each. -/
lemma allItems_iff {p : Json → Bool} {items : List Json} :
    allItems p items = true ↔ ∀ v ∈ items, all p v = true := by
  induction items with
  | nil => simp [allItems]
  | cons v vs ih => rw [allItems, Bool.and_eq_true, ih, List.forall_mem_cons]

/-- A test holds of all of a list of fields if it does of the value of each. -/
lemma allFields_iff {p : Json → Bool} {fields : Fields} :
    allFields p fields = true ↔ ∀ field ∈ fields, all p field.2 = true := by
  induction fields with
  | nil => simp [allFields]
  | cons field fs ih => rw [allFields, Bool.and_eq_true, ih, List.forall_mem_cons]

/-- What holds in an array holds of it and in its items. -/
lemma all_array_iff {p : Json → Bool} {items : List Json} :
    all p (.array items) = true ↔ p (.array items) = true ∧ ∀ v ∈ items, all p v = true := by
  rw [all, Bool.and_eq_true, allItems_iff]

/-- What holds in an object holds of it and in its fields. -/
lemma all_object_iff {p : Json → Bool} {fields : Fields} :
    all p (.object fields) = true ↔
      p (.object fields) = true ∧ ∀ field ∈ fields, all p field.2 = true := by
  rw [all, Bool.and_eq_true, allFields_iff]

/-- A list of items is no deeper than a bound if no item is. -/
lemma depthItems_le_iff {items : List Json} {d : Nat} :
    depthItems items ≤ d ↔ ∀ v ∈ items, v.depth ≤ d := by
  induction items with
  | nil => simp [depthItems]
  | cons v vs ih => rw [depthItems, Nat.max_le, ih, List.forall_mem_cons]

/-- A list of fields is no deeper than a bound if no value of a field is. -/
lemma depthFields_le_iff {fields : Fields} {d : Nat} :
    depthFields fields ≤ d ↔ ∀ field ∈ fields, field.2.depth ≤ d := by
  induction fields with
  | nil => simp [depthFields]
  | cons field fs ih => rw [depthFields, Nat.max_le, ih, List.forall_mem_cons]

/-- **Whether all numbers** of a value are integers of 64 bits. -/
def isIntegral : Json → Bool :=
  all fun
    | number n => n.isInteger
    | _ => true

/-- All numbers of an array are integers if all numbers of each item are. -/
lemma isIntegral_array_iff {items : List Json} :
    (array items).isIntegral = true ↔ ∀ v ∈ items, v.isIntegral = true := by
  simp [isIntegral, all_array_iff]

/-- All numbers of an object are integers if all numbers of each field are. -/
lemma isIntegral_object_iff {fields : Fields} :
    (object fields).isIntegral = true ↔ ∀ field ∈ fields, field.2.isIntegral = true := by
  simp [isIntegral, all_object_iff]

/-! ## Blanks -/

/-- Blanks do not begin a value. -/
lemma skipBlanks_cons {c : Char} (h : isJsonBlank c = false) (t : Text) :
    skipBlanks (c :: t) = c :: t :=
  List.dropWhile_cons_of_neg (by simp [h])

/-- A line feed and an indentation are passed over. -/
lemma skipBlanks_newLine (level : Nat) (t : Text) :
    skipBlanks (newLine level ++ t) = skipBlanks t := by
  have hall : ∀ c ∈ newLine level, isJsonBlank c = true := by
    intro c hc
    rcases List.mem_cons.1 hc with rfl | hc
    · rfl
    · rw [List.eq_of_mem_replicate hc]
      rfl
  exact List.dropWhile_append_of_pos hall

/-- A digit or a sign is no blank. -/
lemma isJsonBlank_of_beginsNumber {c : Char} (hc : isDigit c = true ∨ c = '-') :
    isJsonBlank c = false := by
  simp [isJsonBlank, ne_of_beginsNumber hc (d := ' ') (by decide),
    ne_of_beginsNumber hc (d := '\n') (by decide), ne_of_beginsNumber hc (d := '\t') (by decide),
    ne_of_beginsNumber hc (d := '\r') (by decide)]

/-- Blanks before a value make no difference. -/
lemma value_eq_of_skipBlanks {t u : Text} (h : skipBlanks t = skipBlanks u) (care : Care)
    (d : Nat) : value care d t = value care d u := by
  rw [value, value, h]

/-! ## What begins and what ends a value -/

/-- **A value that is laid out** begins with a character that is no blank and closes nothing. -/
lemma exists_layout_eq_cons {v : Json} (hv : v.isIntegral = true) (level : Nat) :
    ∃ c t, layout level v = c :: t ∧ isJsonBlank c = false ∧ c ≠ ']' := by
  cases v with
  | null => exact ⟨'n', _, rfl, rfl, by decide⟩
  | bool b => cases b <;> exact ⟨_, _, rfl, rfl, by decide⟩
  | string t => exact ⟨'"', _, rfl, rfl, by decide⟩
  | number n =>
    obtain ⟨c, t, hwrite, hc⟩ := Number.exists_write_eq_cons hv
    exact ⟨c, t, hwrite, isJsonBlank_of_beginsNumber hc, ne_of_beginsNumber hc (by decide)⟩
  | array items =>
    rw [layout]
    split
    · exact ⟨'[', _, rfl, rfl, by decide⟩
    · exact ⟨'[', newLine (level + 1) ++ layoutItems (level + 1) items ++ newLine level ++ [']'],
        rfl, rfl, by decide⟩
  | object fields =>
    rw [layout]
    split
    · exact ⟨'\x7b', _, rfl, rfl, by decide⟩
    · exact ⟨'\x7b',
        newLine (level + 1) ++ layoutFields (level + 1) fields ++ newLine level ++ ['\x7d'],
        rfl, rfl, by decide⟩

/-- What comes after a value that is laid out: a comma, a line feed, or nothing. -/
def EndsValue (rest : Text) : Prop :=
  ∀ c ∈ rest.head?, c = ',' ∨ c = '\n'

/-- What ends a value ends a number. -/
lemma EndsValue.endsNumber {rest : Text} (h : EndsValue rest) : EndsNumber rest := by
  intro c hc
  rcases h c hc with rfl | rfl <;> decide

/-- A comma ends a value. -/
lemma endsValue_comma (t : Text) : EndsValue (',' :: t) := by
  rintro c ⟨⟩
  exact .inl rfl

/-- A new line ends a value. -/
lemma endsValue_newLine (level : Nat) (t : Text) : EndsValue (newLine level ++ t) := by
  rintro c ⟨⟩
  exact .inr rfl

/-- **A reader that reads a value** which is laid out at a level, whatever blanks stand before it
and whatever ends it. -/
def ReadsBack (read : Text → Option (Json × Text)) (level : Nat) (v : Json) : Prop :=
  ∀ t rest, skipBlanks t = skipBlanks (layout level v ++ rest) → EndsValue rest →
    read t = some (v, rest)

/-! ## Arrays -/

section

variable {read : Text → Option (Json × Text)} {level inner : Nat} {rest : Text}

/-- **The last item** of an array is read again. -/
lemma items_last {v : Json} {more t : Text} (n : Nat) (hv : read t = some (v, more))
    (hmore : skipBlanks more = ']' :: rest) : items read (n + 1) t = some ([v], rest) := by
  simp only [items, hv, hmore]

/-- **An item that others follow** is read again, and then the others are. -/
lemma items_cons {v : Json} {vs : List Json} {more next t : Text} {n : Nat}
    (hv : read t = some (v, more)) (hmore : skipBlanks more = ',' :: next)
    (hvs : items read n next = some (vs, rest)) :
    items read (n + 1) t = some (v :: vs, rest) := by
  simp only [items, hv, hmore, hvs, Option.map_some]

/-- **The items of an array** are read again, one after another, if each of them is.

**Proof sketch.** Induction on the items. Each is read up to what follows it: a comma, with the next
item on a line of its own, or the bracket on the last line. -/
lemma items_layoutItems {vs : List Json} {t : Text} {n : Nat}
    (hread : ∀ v ∈ vs, ReadsBack read inner v)
    (ht : skipBlanks t = skipBlanks (layoutItems inner vs ++ (newLine level ++ ']' :: rest)))
    (hne : vs ≠ []) (hn : vs.length ≤ n) : items read n t = some (vs, rest) := by
  induction vs generalizing t n with
  | nil => exact absurd rfl hne
  | cons v vs ih =>
    rw [List.forall_mem_cons] at hread
    obtain ⟨n, rfl⟩ := Nat.exists_eq_add_of_le' (Nat.le_trans (Nat.le_add_left 1 _) hn)
    -- The last item is followed by the bracket, every other one by a comma and a line of its own.
    cases vs with
    | nil =>
      refine items_last n (hread.1 t _ ht (endsValue_newLine level _)) ?_
      rw [skipBlanks_newLine, skipBlanks_cons rfl]
    | cons w ws =>
      have hsplit : layoutItems inner (v :: w :: ws) ++ (newLine level ++ ']' :: rest) =
          layout inner v ++ ',' :: (newLine inner ++ (layoutItems inner (w :: ws) ++
            (newLine level ++ ']' :: rest))) := by
        simp [layoutItems]
      rw [hsplit] at ht
      refine items_cons (hread.1 t _ ht (endsValue_comma _)) (skipBlanks_cons rfl _) ?_
      exact ih hread.2 (skipBlanks_newLine inner _) (List.cons_ne_nil w ws)
        (Nat.le_of_succ_le_succ hn)

/-- Items that are laid out begin as the first of them does. -/
lemma exists_layoutItems_eq_cons {v : Json} (hv : v.isIntegral = true) (vs : List Json) :
    ∃ c t, layoutItems inner (v :: vs) = c :: t ∧ isJsonBlank c = false ∧ c ≠ ']' := by
  obtain ⟨c, t, hlayout, hc⟩ := exists_layout_eq_cons hv inner
  cases vs with
  | nil => exact ⟨c, t, hlayout, hc⟩
  | cons w ws =>
    exact ⟨c, t ++ ',' :: newLine inner ++ layoutItems inner (w :: ws), by
      simp [layoutItems, hlayout], hc⟩

/-- Every item has a character of its own. -/
lemma length_le_length_layoutItems {vs : List Json} (hvs : ∀ v ∈ vs, v.isIntegral = true)
    (inner : Nat) : vs.length ≤ (layoutItems inner vs).length := by
  induction vs with
  | nil => exact Nat.zero_le _
  | cons v vs ih =>
    rw [List.forall_mem_cons] at hvs
    obtain ⟨c, u, hlayout, -⟩ := exists_layout_eq_cons hvs.1 inner
    have hvs := ih hvs.2
    cases vs with
    | nil => simp [layoutItems, hlayout]
    | cons w ws =>
      simp only [layoutItems, hlayout, List.length_append, List.length_cons] at hvs ⊢
      omega

/-- **An array** is read again from after its opening bracket.

**Proof sketch.** The items are read as long as the text is, which is longer than they are many
(`length_le_length_layoutItems`), and the first of them does not close the array. -/
lemma arrayBody_layoutItems (level : Nat) (rest : Text) {vs : List Json}
    (hvs : ∀ v ∈ vs, v.isIntegral = true)
    (hread : ∀ v ∈ vs, ReadsBack read inner v) (hne : vs ≠ []) :
    arrayBody read (newLine inner ++ (layoutItems inner vs ++ (newLine level ++ ']' :: rest))) =
      some (vs, rest) := by
  set body := layoutItems inner vs ++ (newLine level ++ ']' :: rest) with hbody
  have hlength : vs.length ≤ body.length + 1 := by
    have := length_le_length_layoutItems hvs inner
    rw [hbody, List.length_append]
    omega
  obtain ⟨c, t, hcons, hblank, hc⟩ : ∃ c t, body = c :: t ∧ isJsonBlank c = false ∧ c ≠ ']' := by
    obtain ⟨v, ws, rfl⟩ := List.exists_cons_of_ne_nil hne
    obtain ⟨c, t, hitems, hc⟩ := exists_layoutItems_eq_cons (hvs v List.mem_cons_self) ws
    exact ⟨c, _, by rw [hbody, hitems, List.cons_append], hc⟩
  have hitems : items read (body.length + 1) body = some (vs, rest) :=
    items_layoutItems hread rfl hne hlength
  rw [arrayBody, skipBlanks_newLine]
  rw [hcons] at hitems ⊢
  rw [skipBlanks_cons hblank]
  split
  next heq => exact absurd (List.cons.inj heq).1 hc
  next => exact hitems

end

/-! ## Objects -/

section

variable {read : Text → Text → Option (Json × Text)} {level inner : Nat} {rest : Text}

/-- A field that is laid out begins with its key. -/
def layoutField (level : Nat) (field : Text × Json) : Text :=
  '"' :: (field.1.flatMap stringChar ++ '"' :: ':' :: ' ' :: layout level field.2)

/-- A single field is laid out without a comma. -/
lemma layoutFields_singleton (field : Text × Json) :
    layoutFields inner [field] = layoutField inner field := by
  simp [layoutFields, layoutField, writeString]

/-- Two fields have a comma and a new line between them. -/
lemma layoutFields_cons_cons (field next : Text × Json) (fs : Fields) :
    layoutFields inner (field :: next :: fs) =
      layoutField inner field ++ ',' :: (newLine inner ++ layoutFields inner (next :: fs)) := by
  simp [layoutFields, layoutField, writeString]

/-- Fields that are laid out begin with the key of the first of them. -/
lemma exists_layoutFields_eq_cons (inner : Nat) {fs : Fields} (hne : fs ≠ []) :
    ∃ t, layoutFields inner fs = '"' :: t := by
  cases fs with
  | nil => exact absurd rfl hne
  | cons field fs =>
    cases fs with
    | nil => exact ⟨_, layoutFields_singleton field⟩
    | cons next fs => exact ⟨_, layoutFields_cons_cons field next fs⟩

/-- Fields that are laid out do not begin with blanks. -/
lemma skipBlanks_layoutFields {fs : Fields} (hne : fs ≠ []) (t : Text) :
    skipBlanks (layoutFields inner fs ++ t) = layoutFields inner fs ++ t := by
  obtain ⟨u, hfields⟩ := exists_layoutFields_eq_cons inner hne
  rw [hfields]
  exact skipBlanks_cons rfl _

/-- **The last field** of an object is read again. -/
lemma fieldList_last {field : Text × Json} {more t : Text} (n : Nat)
    (hread : ReadsBack (read field.1) inner field.2) (hends : EndsValue more)
    (ht : skipBlanks t = layoutField inner field ++ more)
    (hmore : skipBlanks more = '\x7d' :: rest) :
    fieldList .full read (n + 1) t = some ([field], rest) := by
  obtain ⟨key, v⟩ := field
  have hv : read key (' ' :: (layout inner v ++ more)) = some (v, more) := hread _ _ rfl hends
  simp only [fieldList, ht, layoutField, List.cons_append, List.append_assoc,
    stringBody_flatMap_stringChar, skipBlanks_cons (c := ':') rfl, hv, hmore]

/-- **A field that others follow** is read again, and then the others are. -/
lemma fieldList_cons {field : Text × Json} {fs : Fields} {more next t : Text} {n : Nat}
    (hread : ReadsBack (read field.1) inner field.2) (hends : EndsValue more)
    (ht : skipBlanks t = layoutField inner field ++ more)
    (hmore : skipBlanks more = ',' :: next)
    (hfs : fieldList .full read n next = some (fs, rest)) :
    fieldList .full read (n + 1) t = some (field :: fs, rest) := by
  obtain ⟨key, v⟩ := field
  have hv : read key (' ' :: (layout inner v ++ more)) = some (v, more) := hread _ _ rfl hends
  simp only [fieldList, ht, layoutField, List.cons_append, List.append_assoc,
    stringBody_flatMap_stringChar, skipBlanks_cons (c := ':') rfl, hv, hmore, hfs,
    Option.map_some]

/-- **The fields of an object** are read again, one after another, if each of them is. -/
lemma fieldList_layoutFields {fs : Fields} {t : Text} {n : Nat}
    (hread : ∀ field ∈ fs, ReadsBack (read field.1) inner field.2)
    (ht : skipBlanks t = layoutFields inner fs ++ (newLine level ++ '\x7d' :: rest))
    (hne : fs ≠ []) (hn : fs.length ≤ n) : fieldList .full read n t = some (fs, rest) := by
  induction fs generalizing t n with
  | nil => exact absurd rfl hne
  | cons field fs ih =>
    rw [List.forall_mem_cons] at hread
    obtain ⟨n, rfl⟩ := Nat.exists_eq_add_of_le' (Nat.le_trans (Nat.le_add_left 1 _) hn)
    cases fs with
    | nil =>
      rw [layoutFields_singleton] at ht
      refine fieldList_last n hread.1 (endsValue_newLine level _) ht ?_
      rw [skipBlanks_newLine, skipBlanks_cons rfl]
    | cons next fs =>
      rw [layoutFields_cons_cons, List.append_assoc, List.cons_append, List.append_assoc] at ht
      refine fieldList_cons hread.1 (endsValue_comma _) ht (skipBlanks_cons rfl _) ?_
      refine ih hread.2 ?_ (List.cons_ne_nil next fs) (Nat.le_of_succ_le_succ hn)
      rw [skipBlanks_newLine, skipBlanks_layoutFields (List.cons_ne_nil next fs)]

/-- Every field has a character of its own. -/
lemma length_le_length_layoutFields (inner : Nat) (fs : Fields) :
    fs.length ≤ (layoutFields inner fs).length := by
  induction fs with
  | nil => exact Nat.zero_le _
  | cons field fs ih =>
    cases fs with
    | nil =>
      rw [layoutFields_singleton, layoutField]
      exact Nat.succ_le_succ (Nat.zero_le _)
    | cons next fs =>
      rw [layoutFields_cons_cons, layoutField]
      simp only [List.length_append, List.length_cons] at ih ⊢
      omega

/-- **An object** is read again from after its opening brace. -/
lemma objectBody_layoutFields (read : Text → Text → Option (Json × Text)) (level : Nat)
    (rest : Text) {fs : Fields}
    (hread : ∀ field ∈ fs, ReadsBack (read field.1) inner field.2)
    (hne : fs ≠ []) :
    objectBody .full read
      (newLine inner ++ (layoutFields inner fs ++ (newLine level ++ '\x7d' :: rest))) =
      some (fs, rest) := by
  set body := layoutFields inner fs ++ (newLine level ++ '\x7d' :: rest) with hbody
  have hskip : skipBlanks body = body := skipBlanks_layoutFields hne _
  have hlength : fs.length ≤ body.length + 1 := by
    have := length_le_length_layoutFields inner fs
    rw [hbody, List.length_append]
    omega
  have hlist : fieldList .full read (body.length + 1) body = some (fs, rest) :=
    fieldList_layoutFields hread hskip hne hlength
  obtain ⟨t, hfields⟩ := exists_layoutFields_eq_cons inner hne
  have hcons : body = '"' :: (t ++ (newLine level ++ '\x7d' :: rest)) := by
    rw [hbody, hfields, List.cons_append]
  rw [objectBody, skipBlanks_newLine, hskip]
  rw [hcons] at hlist ⊢
  exact hlist

end

/-! ## Values -/

/-- What begins with a digit or a sign is read as a number. -/
lemma value_eq_numberValue {c : Char} (hc : isDigit c = true ∨ c = '-') (t : Text) (care : Care)
    (d : Nat) : value care d (c :: t) = numberValue care (c :: t) := by
  rw [value, skipBlanks_cons (isJsonBlank_of_beginsNumber hc)]
  split
  case h_7 => rfl
  all_goals
    rename_i heq
    exact absurd (List.cons.inj heq).1 (ne_of_beginsNumber hc (by decide))

/-- Whether a value is read again does not depend on the blanks before it. -/
lemma readsBack_value_iff {care : Care} {d level : Nat} {v : Json} :
    ReadsBack (value care d) level v ↔
      ∀ rest, EndsValue rest → value care d (layout level v ++ rest) = some (v, rest) := by
  constructor
  · exact fun h rest hrest => h _ rest rfl hrest
  · intro h t rest ht hrest
    rw [value_eq_of_skipBlanks ht]
    exact h rest hrest

/-- **A value that is laid out** is read again, if it is not nested too deep.

**Proof sketch.** Induction on the value. Numbers and strings are read up to what follows them
(`numberValue_write`, `stringBody_flatMap_stringChar`). The items of an array and the fields of an
object are one level less deep, so each is read by induction, and `arrayBody_layoutItems` and
`objectBody_layoutFields` put them together. -/
theorem readsBack_value {v : Json} (hv : v.isIntegral = true) {d : Nat} (hd : v.depth ≤ d)
    (level : Nat) : ReadsBack (value .full d) level v := by
  refine readsBack_value_iff.2 fun rest hrest => ?_
  induction v using Json.induction generalizing d level rest with
  | null => rw [value]; rfl
  | bool b => rw [value]; cases b <;> rfl
  | number n =>
    obtain ⟨c, u, hwrite, hc⟩ := Number.exists_write_eq_cons hv
    have hread := numberValue_write hv hrest.endsNumber
    rw [hwrite, List.cons_append] at hread
    rw [layout, hwrite, List.cons_append, value_eq_numberValue hc, hread]
  | string s =>
    have hread := stringBody_flatMap_stringChar s rest
    rw [layout, writeString, value]
    simp [skipBlanks_cons, isJsonBlank, hread]
  | array items ih =>
    rw [isIntegral_array_iff] at hv
    obtain ⟨d, rfl⟩ : ∃ e, d = e + 1 :=
      Nat.exists_eq_add_of_le' (Nat.le_trans (Nat.le_add_left 1 _) hd)
    have hdepth : ∀ v ∈ items, v.depth ≤ d :=
      depthItems_le_iff.1 (Nat.le_of_succ_le_succ hd)
    cases items with
    | nil => rw [value]; rfl
    | cons v vs =>
      have hread : ∀ w ∈ v :: vs, ReadsBack (value .full d) (level + 1) w :=
        fun w hw => readsBack_value_iff.2 (ih w hw (hv w hw) (hdepth w hw) (level + 1))
      have hbody := arrayBody_layoutItems level rest hv hread (List.cons_ne_nil v vs)
      rw [layout, value]
      simp [skipBlanks_cons, isJsonBlank, hbody]
  | object fields ih =>
    rw [isIntegral_object_iff] at hv
    obtain ⟨d, rfl⟩ : ∃ e, d = e + 1 :=
      Nat.exists_eq_add_of_le' (Nat.le_trans (Nat.le_add_left 1 _) hd)
    have hdepth : ∀ field ∈ fields, field.2.depth ≤ d :=
      depthFields_le_iff.1 (Nat.le_of_succ_le_succ hd)
    cases fields with
    | nil => rw [value]; rfl
    | cons field fs =>
      have hread : ∀ f ∈ field :: fs, ReadsBack (value .full d) (level + 1) f.2 :=
        fun f hf => readsBack_value_iff.2 (ih f hf (hv f hf) (hdepth f hf) (level + 1))
      have hbody := objectBody_layoutFields (fun _ => value .full d) level rest hread
        (List.cons_ne_nil field fs)
      rw [layout, value]
      simp [skipBlanks_cons, isJsonBlank, hbody]

/-- **The fields of an object** that makes up a text are read again, if all of them are wanted. -/
theorem readFields?_layout {fields : Fields} {wanted : Text → Bool}
    (hwanted : ∀ field ∈ fields, wanted field.1 = true)
    (hv : (object fields).isIntegral = true) (hd : (object fields).depth ≤ depthLimit) :
    readFields? wanted (layout 0 (.object fields) ++ ['\n']) = some fields := by
  rw [isIntegral_object_iff] at hv
  have hdepth : ∀ field ∈ fields, field.2.depth ≤ depthLimit - 1 :=
    depthFields_le_iff.1 (Nat.le_of_succ_le_succ hd)
  cases fields with
  | nil => rfl
  | cons field fs =>
    have hread : ∀ f ∈ field :: fs, ReadsBack (wantedValue wanted f.1) 1 f.2 := by
      intro f hf t rest ht hrest
      rw [wantedValue, if_pos (hwanted f hf)]
      exact readsBack_value (hv f hf) (hdepth f hf) 1 t rest ht hrest
    have hbody := objectBody_layoutFields (wantedValue wanted) 0 ['\n'] hread
      (List.cons_ne_nil field fs)
    rw [layout, readFields?]
    simp [isJsonBlank, hbody, whole?, skipBlanks]

end Weave.Json
