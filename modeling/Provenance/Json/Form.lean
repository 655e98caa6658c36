import Provenance.Json.Basic
import Provenance.Element
import Provenance.Record
set_option autoImplicit false

/-!
# The JSON forms of stored and exchanged values

A name or a hash is a string.  A value of several fields is written as an object
with every field, in the order of their declaration.  It is read from an object,
where other members do not matter and a missing field counts as `null`, or from an
array of exactly its fields.  `null` stands for a cell that is not filled in, and
for no other value.
-/

namespace Provenance

/-- A way to write the values of a type as JSON and to read them. -/
class JsonForm (α : Type) where
  /-- The form of a value. -/
  encode : α → Json
  /-- The value that a form stands for. -/
  decode? : Json → Option α

namespace JsonForm

variable {α : Type}

/-! ## Texts and numbers -/

/-- The text of a string. -/
def text? : Json → Option String
  | .string value => some value
  | _ => none

/-- The natural number below a bound that an integer is. -/
def natural? (bound : Nat) : Json → Option Nat
  | .integer (.ofNat n) => if n < bound then some n else none
  | _ => none

instance : JsonForm String := ⟨.string, text?⟩

instance : JsonForm UInt64 where
  encode n := .integer (.ofNat n.toNat)
  decode? value := (natural? UInt64.size value).map UInt64.ofNat

instance : JsonForm UInt8 where
  encode n := .integer (.ofNat n.toNat)
  decode? value := (natural? UInt8.size value).map UInt8.ofNat

instance : JsonForm Token where
  encode token := .string token.text
  decode? value := (text? value).map Token.mk

instance : JsonForm Key where
  encode key := .string key.text
  decode? value := (text? value).map Key.mk

instance : JsonForm Generator where
  encode generator := .string generator.text
  decode? value := (text? value).map Generator.mk

instance : JsonForm Owner where
  encode owner := .string owner.text
  decode? value := (text? value).map Owner.mk

instance : JsonForm Holder where
  encode holder := .string holder.name
  decode? value := (text? value).map Holder.mk

/-! ## Missing values and lists -/

instance [JsonForm α] : JsonForm (Option α) where
  encode
    | none => .null
    | some a => encode a
  decode?
    | .null => some none
    | value => (decode? value).map some

/-- The values that the items stand for, if each stands for one. -/
def decodeAll? [JsonForm α] : List Json → Option (List α)
  | [] => some []
  | item :: rest =>
    match decode? item, decodeAll? rest with
    | some a, some as => some (a :: as)
    | _, _ => none

instance [JsonForm α] : JsonForm (List α) where
  encode as := .array (as.map encode)
  decode?
    | .array items => decodeAll? items
    | _ => none

/-! ## Values of several fields -/

instance : JsonForm Element where
  encode row :=
    .object [("id", encode row.id), ("key", encode row.key),
      ("generator", encode row.generator), ("owner", encode row.owner)]
  decode? value :=
    match value.fields? ["id", "key", "generator", "owner"] with
    | some [id, key, generator, owner] => do
      return { id := ← decode? id
               key := ← decode? key
               generator := ← decode? generator
               owner := ← decode? owner }
    | _ => none

instance : JsonForm Change where
  encode change :=
    .object [("id", encode change.id), ("generator", encode change.generator),
      ("generator_id", encode change.generatorId), ("owner", encode change.owner),
      ("owner_id", encode change.ownerId)]
  decode? value :=
    match value.fields? ["id", "generator", "generator_id", "owner", "owner_id"] with
    | some [id, generator, generatorId, owner, ownerId] => do
      return { id := ← decode? id
               generator := ← decode? generator
               generatorId := ← decode? generatorId
               owner := ← decode? owner
               ownerId := ← decode? ownerId }
    | _ => none

instance : JsonForm TokenRecord where
  encode record :=
    .object [("token", encode record.token), ("title", encode record.title),
      ("data", encode record.data)]
  decode? value :=
    match value.fields? ["token", "title", "data"] with
    | some [token, title, data] => do
      return { token := ← decode? token
               title := ← decode? title
               data := ← decode? data }
    | _ => none

instance : JsonForm KeyRecord where
  encode record :=
    .object [("token", encode record.token), ("id", encode record.id),
      ("key", encode record.key), ("holder", encode record.holder)]
  decode? value :=
    match value.fields? ["token", "id", "key", "holder"] with
    | some [token, id, key, holder] => do
      return { token := ← decode? token
               id := ← decode? id
               key := ← decode? key
               holder := ← decode? holder }
    | _ => none

end JsonForm

end Provenance
