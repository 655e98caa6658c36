import Provenance.Proofs.Json.Forms
import Provenance.Proofs.Json.Printing
set_option autoImplicit false

/-!
# Forms that lose nothing and do not change

A type is canonical (`JsonForm.Canonical`) if each of its values is read back from what it
is written as, and whatever form a value was read from, what is written for it then is read
as the same value and stays as it is.  Names and hashes are written as bare strings
(`JsonForm.AsText`), all other values as objects with all of their fields
(`JsonForm.AsFields`).

`JsonForm.canonical_forms` says this of all types whose values are stored or exchanged.
-/

namespace Provenance

open JsonForm

namespace JsonForm

variable {α : Type} [JsonForm α]

/-! ## One form for each value -/

/-- What is written for the value that a form is read as, if it is read as one. -/
def rewritten? (α : Type) [JsonForm α] (form : Json) : Option Json :=
  (decode? form : Option α).map encode

/-- Nothing is lost when a value of the type is written, and nothing changes when it is
written again.  `written` is the form of each value, and `Stands a` says which forms stand
for `a`. -/
structure Canonical (α : Type) [JsonForm α] (written : α → Json) (Stands : α → Json → Prop) :
    Prop where
  /-- What a value is written as. -/
  encode_eq (a : α) : encode a = written a
  /-- What a value is read from, and nothing else is read. -/
  decode?_eq_some_iff (form : Json) (a : α) : decode? form = some a ↔ Stands a form
  /-- A value that is written is read back. -/
  decode?_encode (a : α) : decode? (encode a) = some a
  /-- What is written for a form that was read is read as the same value, and is what is
  written for itself. -/
  settled (form out : Json) : rewritten? α form = some out →
    (decode? out : Option α) = decode? form ∧ rewritten? α out = some out
  /-- The form is read back from its text without blanks. -/
  parse?_compact_encode (a : α) : Json.parse? (encode a).compact = some (encode a)
  /-- The form is read back from its text in lines. -/
  parse?_pretty_encode (a : α) : Json.parse? (encode a).pretty = some (encode a)

/-- A type is canonical if what is written for a value stands for it, and can be read as a
text. -/
theorem Canonical.of_stands {written : α → Json} {Stands : α → Json → Prop}
    (encode_eq : ∀ a : α, encode a = written a)
    (decode?_eq_some_iff : ∀ form (a : α), decode? form = some a ↔ Stands a form)
    (stands : ∀ a, Stands a (written a)) (legible : ∀ a, (written a).Legible) :
    Canonical α written Stands := by
  have back (a : α) : decode? (encode a) = some a := by
    rw [decode?_eq_some_iff, encode_eq]
    exact stands a
  refine ⟨encode_eq, decode?_eq_some_iff, back, fun form out rewritten => ?_, fun a => ?_,
    fun a => ?_⟩
  · obtain ⟨a, read, rfl⟩ := Option.map_eq_some_iff.mp rewritten
    rw [rewritten?, back a, read]
    exact ⟨rfl, rfl⟩
  · rw [encode_eq]
    exact Json.parse?_compact (legible a)
  · rw [encode_eq]
    exact Json.parse?_pretty (legible a)

/-- The values of the type are canonical, each is written as a bare string, and it is read
from no other form. -/
def AsText (text : α → String) : Prop :=
  Canonical α (fun a => .string (text a)) fun a form => form = .string (text a)

/-- The values of the type are canonical, each is written as an object with all its fields,
and it is read from every form that gives them. -/
def AsFields (fields : α → List (String × Json)) : Prop :=
  Canonical α (fun a => .object (fields a)) fun a form => form.Gives (fields a)

theorem AsText.of_exact [Exact α] {text : α → String}
    (encode_eq : ∀ a : α, encode a = .string (text a)) : AsText text :=
  .of_stands encode_eq (fun form a => encode_eq a ▸ Exact.decode?_eq_some_iff form a)
    (fun _ => rfl) fun a => .string (text a)

theorem AsFields.of_gives {fields : α → List (String × Json)}
    (encode_eq : ∀ a : α, encode a = .object (fields a))
    (decode?_eq_some_iff : ∀ form (a : α), decode? form = some a ↔ form.Gives (fields a))
    (distinct : ∀ a, ((fields a).map Prod.fst).Nodup)
    (legible : ∀ a, ∀ field ∈ fields a, field.2.Legible) : AsFields fields :=
  .of_stands encode_eq decode?_eq_some_iff (fun a => Json.gives_object (distinct a))
    fun a => .object (legible a)

theorem legible_cell {β : Type} (cell : Option β) (text : β → String) :
    (cell.elim .null fun b => .string (text b) : Json).Legible := by
  cases cell with
  | none => exact .null
  | some b => exact .string (text b)

theorem legible_bytes (data : List UInt8) :
    (Json.array (data.map fun byte => .integer byte.toNat)).Legible := by
  refine .array fun item member => ?_
  obtain ⟨byte, -, rfl⟩ := List.mem_map.mp member
  exact .integer byte.toNat

end JsonForm

/-! ## All values that are stored or exchanged -/

theorem Element.asFields : AsFields Element.fields := by
  refine .of_gives (fun row => ?_) Element.decode?_eq_some_iff (fun _ => ?_) fun _ => ?_
  · rw [Element.fields_eq]
    rfl
  · simp [Element.fields]
  · simp only [Element.fields, List.forall_mem_cons]
    exact ⟨.integer _, .string _, legible_cell _ _, legible_cell _ _, List.forall_mem_nil _⟩

theorem Change.asFields : AsFields Change.fields := by
  refine .of_gives (fun change => ?_) Change.decode?_eq_some_iff (fun _ => ?_) fun _ => ?_
  · rw [Change.fields_eq]
    rfl
  · simp [Change.fields]
  · simp only [Change.fields, List.forall_mem_cons]
    exact ⟨.integer _, legible_cell _ _, .integer _, legible_cell _ _, .integer _,
      List.forall_mem_nil _⟩

theorem TokenRecord.asFields : AsFields TokenRecord.fields := by
  refine .of_gives (fun record => ?_) TokenRecord.decode?_eq_some_iff (fun _ => ?_) fun _ => ?_
  · rw [TokenRecord.fields_eq]
    rfl
  · simp [TokenRecord.fields]
  · simp only [TokenRecord.fields, List.forall_mem_cons]
    exact ⟨.string _, .string _, legible_bytes _, List.forall_mem_nil _⟩

theorem KeyRecord.asFields : AsFields KeyRecord.fields := by
  refine .of_gives (fun record => ?_) KeyRecord.decode?_eq_some_iff (fun _ => ?_) fun _ => ?_
  · rw [KeyRecord.fields_eq]
    rfl
  · simp [KeyRecord.fields]
  · simp only [KeyRecord.fields, List.forall_mem_cons]
    exact ⟨.string _, .integer _, .string _, .string _, List.forall_mem_nil _⟩

/-- **Nothing is lost in a form, and each value has one form that stays as it is.**  For
each type whose values are stored or exchanged:

* a token, a key, a generator, an owner and a holder are written as bare strings and read
  from nothing else;
* an element, a change, a registration and an issue of a key are written as objects with
  all of their fields, also the empty ones, and read from each object whose last members of
  these names are the forms of the fields, where empty ones may be missing and other members
  do not matter, from the array of the forms of all fields in their order, and from nothing
  else;
* a value that is written is read back, and so is its form from the text of it, without
  blanks or in lines;
* what is written for a form that was read, of either shape, is read as the same value and
  is what is written for itself. -/
theorem JsonForm.canonical_forms :
    AsText Token.text ∧ AsText Key.text ∧ AsText Generator.text ∧ AsText Owner.text ∧
      AsText Holder.name ∧ AsFields Element.fields ∧ AsFields Change.fields ∧
      AsFields TokenRecord.fields ∧ AsFields KeyRecord.fields :=
  ⟨.of_exact fun _ => rfl, .of_exact fun _ => rfl, .of_exact fun _ => rfl,
    .of_exact fun _ => rfl, .of_exact fun _ => rfl, Element.asFields, Change.asFields,
    TokenRecord.asFields, KeyRecord.asFields⟩

/-- A row that was written by hand, with a member that is no field, one that is there twice
and one that is missing, and the row as it is written then. -/
example :
    rewritten? Element (.object [("key", .string "K"), ("id", .integer 7), ("note", .bool true),
      ("id", .integer 3), ("owner", .string "O")]) =
    some (.object [("id", .integer 3), ("key", .string "K"), ("generator", .null),
      ("owner", .string "O")]) := rfl

end Provenance
