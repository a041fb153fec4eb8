import Weave.Json.Record
import Weave.Proofs.Json.Layout

set_option autoImplicit false
set_option relaxedAutoImplicit false

/-!
# Maps and records of JSON

A map keeps its keys in order, every key once. What is already kept so is its own canonical form.

## Main definitions

* `Weave.Json.Ordered` — fields that are a map.
* `Weave.Json.isOrdered` — whether all objects of a value are maps.

## Main results

* `Weave.Json.canonical_eq_self` — a value all of whose objects are maps is canonical.
-/

namespace Weave

/-- No text comes before itself. -/
lemma Text.before_self (t : Text) : Text.before t t = false := by
  induction t with
  | nil => rfl
  | cons c t ih => simp [Text.before, ih]

/-- What is encoded item by item is decoded item by item. -/
lemma mapM_map_eq_some {α β : Type} {encode : α → β} {decode : β → Option α} {l : List α}
    (h : ∀ a ∈ l, decode (encode a) = some a) : (l.map encode).mapM decode = some l := by
  induction l with
  | nil => rfl
  | cons a l ih =>
    rw [List.forall_mem_cons] at h
    rw [List.map_cons, List.mapM_cons, h.1, ih h.2]
    rfl

namespace Json

/-- **Fields that are a map**: their keys are in order, and no key comes twice. -/
def Ordered (fields : Fields) : Prop :=
  fields.Pairwise fun a b => Text.before a.1 b.1 = true

/-- Whether fields are in order can be decided by going through them. -/
instance (fields : Fields) : Decidable (Ordered fields) :=
  inferInstanceAs (Decidable (fields.Pairwise fun a b => Text.before a.1 b.1 = true))

/-- **Whether all objects** of a value are maps. -/
def isOrdered : Json → Bool :=
  all fun
    | object fields => Ordered fields
    | _ => true

/-- All objects in an array are in order if those in each item are. -/
lemma isOrdered_array_iff {items : List Json} :
    (array items).isOrdered = true ↔ ∀ v ∈ items, v.isOrdered = true := by
  simp [isOrdered, all_array_iff]

/-- All objects in an object are in order if its fields are, and those in each field are. -/
lemma isOrdered_object_iff {fields : Fields} :
    (object fields).isOrdered = true ↔
      Ordered fields ∧ ∀ field ∈ fields, field.2.isOrdered = true := by
  simp [isOrdered, all_object_iff]

/-- A key that comes before all others is put before them. -/
lemma put_eq_cons {key : Text} {fields : Fields}
    (h : ∀ field ∈ fields, Text.before key field.1 = true) (v : Json) :
    put key v fields = (key, v) :: fields := by
  cases fields with
  | nil => rfl
  | cons field fs =>
    obtain ⟨k, w⟩ := field
    have hbefore : Text.before key k = true := h (k, w) List.mem_cons_self
    have hne : key ≠ k := by
      rintro rfl
      rw [Text.before_self] at hbefore
      cases hbefore
    rw [put, if_neg hne, if_pos hbefore]

/-- Items that are canonical stay as they are. -/
lemma canonicalItems_eq_self {items : List Json} (h : ∀ v ∈ items, canonical v = v) :
    canonicalItems items = items := by
  induction items with
  | nil => rfl
  | cons v vs ih =>
    rw [List.forall_mem_cons] at h
    rw [canonicalItems, h.1, ih h.2]

/-- A map whose values are canonical stays as it is. -/
lemma canonicalFields_eq_self {fields : Fields} (hfields : Ordered fields)
    (h : ∀ field ∈ fields, canonical field.2 = field.2) : canonicalFields fields = fields := by
  induction fields with
  | nil => rfl
  | cons field fs ih =>
    obtain ⟨k, v⟩ := field
    obtain ⟨hbefore, hfs⟩ := List.pairwise_cons.1 hfields
    rw [List.forall_mem_cons] at h
    rw [canonicalFields, ih hfs h.2, h.1]
    refine (if_neg ?_).trans (put_eq_cons hbefore v)
    rw [List.any_eq_true]
    rintro ⟨field, hfield, heq⟩
    have hfirst := hbefore field hfield
    rw [eq_of_beq heq, Text.before_self] at hfirst
    cases hfirst

/-- **A value all of whose objects are maps** is its own canonical form. -/
theorem canonical_eq_self {v : Json} (h : v.isOrdered = true) : canonical v = v := by
  induction v using Json.induction with
  | null | bool | number | string => rfl
  | array items ih =>
    rw [isOrdered_array_iff] at h
    rw [canonical, canonicalItems_eq_self fun v hv => ih v hv (h v hv)]
  | object fields ih =>
    rw [isOrdered_object_iff] at h
    have hvalues : ∀ field ∈ fields, canonical field.2 = field.2 :=
      fun field hfield => ih field hfield (h.2 field hfield)
    rw [canonical, canonicalFields_eq_self h.1 hvalues]

/-- A map is read as the map that it is. -/
lemma map?_object {fields : Fields} (h : (object fields).isOrdered = true) :
    (object fields).map? = some fields := by
  obtain ⟨hfields, hvalues⟩ := isOrdered_object_iff.1 h
  exact congrArg some
    (canonicalFields_eq_self hfields fun field hfield => canonical_eq_self (hvalues field hfield))

end Json

end Weave
