import Provenance.Json.Form
set_option autoImplicit false

/-!
# Which forms are read as a value

A name, a hash, a number, a list and a cell each have a single form: the one that they are
written in is the only one that is read as them (`JsonForm.Exact`).  A value of several
fields has many.  It is read from every object in which the last member of each field's
name is the form of that field, whatever the other members are, where a `null` may be left
out, and from the array of the forms of all fields in their order (`Json.Gives`).  Nothing
but an empty cell is written as `null`, so no other field may be left out.
-/

namespace Provenance

namespace Json

/-! ## Members of an object -/

/-- The last one of the members of that name has the value, or there is none of that name,
and the value is `null`. -/
inductive Holds (members : List (String × Json)) (name : String) : Json → Prop
  | last {before after : List (String × Json)} {value : Json}
      (whole : members = before ++ (name, value) :: after)
      (others : ∀ member ∈ after, member.1 ≠ name) : Holds members name value
  | missing (others : ∀ member ∈ members, member.1 ≠ name) : Holds members name .null

variable {members : List (String × Json)} {name : String} {value form : Json}

theorem lastNamed?_eq_none_iff :
    lastNamed? name members = none ↔ ∀ member ∈ members, member.1 ≠ name := by
  induction members with
  | nil => simp [lastNamed?]
  | cons member members ih =>
    rw [lastNamed?, List.forall_mem_cons, ← ih]
    cases lastNamed? name members with
    | none => simp
    | some later => simp

theorem lastNamed?_append_cons {before after : List (String × Json)}
    (others : ∀ member ∈ after, member.1 ≠ name) :
    lastNamed? name (before ++ (name, value) :: after) = some value := by
  induction before with
  | nil => rw [List.nil_append, lastNamed?, lastNamed?_eq_none_iff.mpr others, if_pos rfl]
  | cons member before ih => rw [List.cons_append, lastNamed?, ih]

theorem exists_of_lastNamed? (found : lastNamed? name members = some value) :
    ∃ before after, members = before ++ (name, value) :: after ∧
      ∀ member ∈ after, member.1 ≠ name := by
  induction members with
  | nil => cases found
  | cons member members ih =>
    obtain ⟨other, first⟩ := member
    cases later : lastNamed? name members with
    | some last =>
      obtain rfl : last = value := by simpa [lastNamed?, later] using found
      obtain ⟨before, after, rfl, others⟩ := ih later
      exact ⟨(other, first) :: before, after, rfl, others⟩
    | none =>
      obtain ⟨rfl, rfl⟩ : other = name ∧ first = value := by
        simpa [lastNamed?, later] using found
      exact ⟨[], members, rfl, lastNamed?_eq_none_iff.mp later⟩

theorem holds_iff : Holds members name value ↔ (lastNamed? name members).getD .null = value := by
  constructor
  · intro holds
    cases holds with
    | last whole others => rw [whole, lastNamed?_append_cons others, Option.getD_some]
    | missing others => rw [lastNamed?_eq_none_iff.mpr others, Option.getD_none]
  · rintro rfl
    cases found : lastNamed? name members with
    | none => exact .missing (lastNamed?_eq_none_iff.mp found)
    | some value =>
      obtain ⟨before, after, whole, others⟩ := exists_of_lastNamed? found
      exact .last whole others

/-! ## Fields by name or by place -/

/-- The form gives each of the fields its value: an object by their names, an array by
their places. -/
inductive Gives (fields : List (String × Json)) : Json → Prop
  | object {members : List (String × Json)}
      (each : ∀ field ∈ fields, Holds members field.1 field.2) : Gives fields (.object members)
  | array : Gives fields (.array (fields.map Prod.snd))

variable {fields : List (String × Json)}

theorem fields?_eq_some_iff :
    form.fields? (fields.map Prod.fst) = some (fields.map Prod.snd) ↔ Gives fields form := by
  constructor
  · intro given
    cases form with
    | object members =>
      rw [fields?, Option.some.injEq, List.map_map, List.map_inj_left] at given
      exact .object fun field member => holds_iff.mpr (given field member)
    | array items =>
      rw [fields?, Option.ite_none_right_eq_some, Option.some.injEq] at given
      obtain ⟨-, rfl⟩ := given
      exact .array
    | _ => cases given
  · intro gives
    cases gives with
    | object each =>
      rw [fields?, Option.some.injEq, List.map_map, List.map_inj_left]
      exact fun field member => holds_iff.mp (each field member)
    | array => rw [fields?, if_pos (by rw [List.length_map, List.length_map])]

/-- An object of distinct fields gives them their values. -/
theorem gives_object (distinct : (fields.map Prod.fst).Nodup) : Gives fields (.object fields) := by
  refine .object fun field member => ?_
  obtain ⟨before, after, rfl⟩ := List.append_of_mem member
  refine .last rfl fun other later same => ?_
  rw [List.map_append, List.map_cons, List.nodup_append, List.nodup_cons] at distinct
  exact distinct.2.1.1 (same ▸ List.mem_map_of_mem later)

end Json

namespace JsonForm

variable {α β : Type} [JsonForm α] {form : Json}

/-! ## Texts and numbers -/

/-- Each value of the type is read from the form that it is written in, and from no other. -/
class Exact (α : Type) [JsonForm α] : Prop where
  decode?_eq_some_iff (form : Json) (a : α) : decode? form = some a ↔ form = encode a

theorem text?_eq_some_iff {text : String} : text? form = some text ↔ form = .string text := by
  cases form <;> simp [text?]

theorem natural?_eq_some_iff {bound n : Nat} :
    natural? bound form = some n ↔ n < bound ∧ form = .integer (.ofNat n) := by
  constructor
  · intro read
    unfold natural? at read
    split at read
    · split at read
      case isTrue small =>
        obtain rfl := Option.some.inj read
        exact ⟨small, rfl⟩
      case isFalse => cases read
    · cases read
  · rintro ⟨small, rfl⟩
    rw [natural?, if_pos small]

/-- A type whose values are texts under a name of their own. -/
theorem Exact.of_text (ofText : String → α) (toText : α → String)
    (kept : ∀ text, toText (ofText text) = text) (back : ∀ a, ofText (toText a) = a)
    (written : ∀ a : α, encode a = .string (toText a))
    (read : ∀ form, (decode? form : Option α) = (text? form).map ofText) : Exact α := by
  refine ⟨fun form a => ?_⟩
  rw [read, written, Option.map_eq_some_iff, ← text?_eq_some_iff]
  constructor
  · rintro ⟨text, found, rfl⟩
    rwa [kept]
  · intro found
    exact ⟨toText a, found, back a⟩

/-- A type whose values are the numbers below a bound. -/
theorem Exact.of_natural {bound : Nat} (ofNat : Nat → α) (toNat : α → Nat)
    (below : ∀ a, toNat a < bound) (kept : ∀ n < bound, toNat (ofNat n) = n)
    (back : ∀ a, ofNat (toNat a) = a) (written : ∀ a : α, encode a = .integer (.ofNat (toNat a)))
    (read : ∀ form, (decode? form : Option α) = (natural? bound form).map ofNat) : Exact α := by
  refine ⟨fun form a => ?_⟩
  rw [read, written, Option.map_eq_some_iff]
  constructor
  · rintro ⟨n, found, rfl⟩
    obtain ⟨small, whole⟩ := natural?_eq_some_iff.mp found
    rw [kept n small, whole]
  · intro whole
    exact ⟨toNat a, natural?_eq_some_iff.mpr ⟨below a, whole⟩, back a⟩

instance : Exact String :=
  .of_text id id (fun _ => rfl) (fun _ => rfl) (fun _ => rfl) fun _ => Option.map_id'.symm

instance : Exact Token :=
  .of_text Token.mk Token.text (fun _ => rfl) (fun _ => rfl) (fun _ => rfl) fun _ => rfl

instance : Exact Key :=
  .of_text Key.mk Key.text (fun _ => rfl) (fun _ => rfl) (fun _ => rfl) fun _ => rfl

instance : Exact Generator :=
  .of_text Generator.mk Generator.text (fun _ => rfl) (fun _ => rfl) (fun _ => rfl) fun _ => rfl

instance : Exact Owner :=
  .of_text Owner.mk Owner.text (fun _ => rfl) (fun _ => rfl) (fun _ => rfl) fun _ => rfl

instance : Exact Holder :=
  .of_text Holder.mk Holder.name (fun _ => rfl) (fun _ => rfl) (fun _ => rfl) fun _ => rfl

instance : Exact UInt64 :=
  .of_natural UInt64.ofNat UInt64.toNat UInt64.toNat_lt_size (fun _ => UInt64.toNat_ofNat_of_lt)
    (fun _ => UInt64.ofNat_toNat) (fun _ => rfl) fun _ => rfl

instance : Exact UInt8 :=
  .of_natural UInt8.ofNat UInt8.toNat UInt8.toNat_lt_size (fun _ => UInt8.toNat_ofNat_of_lt)
    (fun _ => UInt8.ofNat_toNat) (fun _ => rfl) fun _ => rfl

/-! ## Cells and lists -/

theorem decode?_of_filled (filled : form ≠ .null) :
    (decode? form : Option (Option α)) = (decode? form).map some := by
  cases form with
  | null => exact absurd rfl filled
  | _ => rfl

/-- An empty cell is told from a filled one if nothing that can stand in it is `null`. -/
theorem Exact.option [Exact α] (filled : ∀ a : α, encode a ≠ .null) : Exact (Option α) := by
  refine ⟨fun form cell => ?_⟩
  by_cases empty : form = .null
  · subst empty
    cases cell with
    | none => exact iff_of_true rfl rfl
    | some a => exact iff_of_false nofun (filled a).symm
  · rw [decode?_of_filled empty]
    cases cell with
    | none => exact iff_of_false (by simp) empty
    | some a =>
      rw [Option.map_eq_some_iff]
      simp only [Option.some.injEq, exists_eq_right]
      exact Exact.decode?_eq_some_iff form a

instance : Exact (Option Generator) := .option nofun

instance : Exact (Option Owner) := .option nofun

theorem decodeAll?_map_encode [Exact α] (as : List α) : decodeAll? (as.map encode) = some as := by
  induction as with
  | nil => rfl
  | cons a as ih => rw [List.map_cons, decodeAll?, (Exact.decode?_eq_some_iff _ a).mpr rfl, ih]

theorem eq_map_encode_of_decodeAll? [Exact α] {items : List Json} {as : List α}
    (read : decodeAll? items = some as) : items = as.map encode := by
  induction items generalizing as with
  | nil =>
    obtain rfl := Option.some.inj read
    rfl
  | cons item items ih =>
    rw [decodeAll?] at read
    split at read
    case h_1 a rest first others =>
      obtain rfl := Option.some.inj read
      rw [List.map_cons, ← (Exact.decode?_eq_some_iff item a).mp first, ← ih others]
    case h_2 => cases read

instance [Exact α] : Exact (List α) := by
  refine ⟨fun form as => ?_⟩
  constructor
  · intro read
    cases form with
    | array items => exact congrArg Json.array (eq_map_encode_of_decodeAll? read)
    | _ => cases read
  · rintro rfl
    exact decodeAll?_map_encode as

/-- What is read first and then what follows from it. -/
theorem bind_decode?_eq_some_iff [Exact α] {next : α → Option β} {b : β} :
    (decode? form >>= next) = some b ↔ ∃ a, form = encode a ∧ next a = some b := by
  simp only [Option.bind_eq_bind, Option.bind_eq_some_iff, Exact.decode?_eq_some_iff]

theorem encode_option (cell : Option α) : encode cell = cell.elim .null encode := by
  cases cell <;> rfl

end JsonForm

open JsonForm

/-! ## Values of several fields -/

namespace Element

/-- The fields of an element as they are written. -/
def fields (row : Element) : List (String × Json) :=
  [("id", .integer row.id.toNat), ("key", .string row.key.text),
    ("generator", row.generator.elim .null fun g => .string g.text),
    ("owner", row.owner.elim .null fun o => .string o.text)]

theorem fields_eq (row : Element) :
    row.fields = [("id", encode row.id), ("key", encode row.key),
      ("generator", encode row.generator), ("owner", encode row.owner)] := by
  rw [encode_option, encode_option]
  rfl

theorem decode?_eq_some_iff (form : Json) (row : Element) :
    decode? form = some row ↔ form.Gives row.fields := by
  rw [← Json.fields?_eq_some_iff, fields_eq, decode?, instElement]
  simp only [List.map_cons, List.map_nil]
  split
  case h_1 id key generator owner given =>
    simp only [given, bind_decode?_eq_some_iff, Option.pure_def, Option.some.injEq,
      List.cons.injEq, and_true]
    constructor
    · rintro ⟨id, rfl, key, rfl, generator, rfl, owner, rfl, rfl⟩
      exact ⟨rfl, rfl, rfl, rfl⟩
    · rintro ⟨rfl, rfl, rfl, rfl⟩
      exact ⟨_, rfl, _, rfl, _, rfl, _, rfl, rfl⟩
  case h_2 other => exact iff_of_false nofun (other _ _ _ _)

end Element

namespace Change

/-- The fields of a change as they are written. -/
def fields (change : Change) : List (String × Json) :=
  [("id", .integer change.id.toNat),
    ("generator", change.generator.elim .null fun g => .string g.text),
    ("generator_id", .integer change.generatorId.toNat),
    ("owner", change.owner.elim .null fun o => .string o.text),
    ("owner_id", .integer change.ownerId.toNat)]

theorem fields_eq (change : Change) :
    change.fields = [("id", encode change.id), ("generator", encode change.generator),
      ("generator_id", encode change.generatorId), ("owner", encode change.owner),
      ("owner_id", encode change.ownerId)] := by
  rw [encode_option, encode_option]
  rfl

theorem decode?_eq_some_iff (form : Json) (change : Change) :
    decode? form = some change ↔ form.Gives change.fields := by
  rw [← Json.fields?_eq_some_iff, fields_eq, decode?, instChange]
  simp only [List.map_cons, List.map_nil]
  split
  case h_1 id generator generatorId owner ownerId given =>
    simp only [given, bind_decode?_eq_some_iff, Option.pure_def, Option.some.injEq,
      List.cons.injEq, and_true]
    constructor
    · rintro ⟨id, rfl, generator, rfl, generatorId, rfl, owner, rfl, ownerId, rfl, rfl⟩
      exact ⟨rfl, rfl, rfl, rfl, rfl⟩
    · rintro ⟨rfl, rfl, rfl, rfl, rfl⟩
      exact ⟨_, rfl, _, rfl, _, rfl, _, rfl, _, rfl, rfl⟩
  case h_2 other => exact iff_of_false nofun (other _ _ _ _ _)

end Change

namespace TokenRecord

/-- The fields of a registration as they are written. -/
def fields (record : TokenRecord) : List (String × Json) :=
  [("token", .string record.token.text), ("title", .string record.title),
    ("data", .array (record.data.map fun byte => .integer byte.toNat))]

theorem fields_eq (record : TokenRecord) :
    record.fields = [("token", encode record.token), ("title", encode record.title),
      ("data", encode record.data)] := rfl

theorem decode?_eq_some_iff (form : Json) (record : TokenRecord) :
    decode? form = some record ↔ form.Gives record.fields := by
  rw [← Json.fields?_eq_some_iff, fields_eq, decode?, instTokenRecord]
  simp only [List.map_cons, List.map_nil]
  split
  case h_1 token title data given =>
    simp only [given, bind_decode?_eq_some_iff, Option.pure_def, Option.some.injEq,
      List.cons.injEq, and_true]
    constructor
    · rintro ⟨token, rfl, title, rfl, data, rfl, rfl⟩
      exact ⟨rfl, rfl, rfl⟩
    · rintro ⟨rfl, rfl, rfl⟩
      exact ⟨_, rfl, _, rfl, _, rfl, rfl⟩
  case h_2 other => exact iff_of_false nofun (other _ _ _)

end TokenRecord

namespace KeyRecord

/-- The fields of an issued key as they are written. -/
def fields (record : KeyRecord) : List (String × Json) :=
  [("token", .string record.token.text), ("id", .integer record.id.toNat),
    ("key", .string record.key.text), ("holder", .string record.holder.name)]

theorem fields_eq (record : KeyRecord) :
    record.fields = [("token", encode record.token), ("id", encode record.id),
      ("key", encode record.key), ("holder", encode record.holder)] := rfl

theorem decode?_eq_some_iff (form : Json) (record : KeyRecord) :
    decode? form = some record ↔ form.Gives record.fields := by
  rw [← Json.fields?_eq_some_iff, fields_eq, decode?, instKeyRecord]
  simp only [List.map_cons, List.map_nil]
  split
  case h_1 token id key holder given =>
    simp only [given, bind_decode?_eq_some_iff, Option.pure_def, Option.some.injEq,
      List.cons.injEq, and_true]
    constructor
    · rintro ⟨token, rfl, id, rfl, key, rfl, holder, rfl, rfl⟩
      exact ⟨rfl, rfl, rfl, rfl⟩
    · rintro ⟨rfl, rfl, rfl, rfl⟩
      exact ⟨_, rfl, _, rfl, _, rfl, _, rfl, rfl⟩
  case h_2 other => exact iff_of_false nofun (other _ _ _ _)

end KeyRecord

end Provenance
