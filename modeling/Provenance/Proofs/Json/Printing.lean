import Provenance.Proofs.Json.Reading
set_option autoImplicit false

/-!
# What is printed is read back

Both texts of a value, the one without blanks and the one in lines, spell it
(`Legible.spells_compact`, `Legible.spells_lines`), so each of them is read as this value
again (`parse?_compact`, `parse?_pretty`).  The only values of which this does not hold are
those with a number that is kept as it is written, but is not written like one.
-/

namespace Provenance.Json

open Reader

/-- Each number of the value that is kept as it is written is read as it is kept. -/
inductive Legible : Json → Prop
  | null : Legible .null
  | bool (value : Bool) : Legible (.bool value)
  | integer (value : Int) : Legible (.integer value)
  | decimal {literal : String} (numerals : ∀ c ∈ literal.toList, isNumeral c = true)
      (read : number? literal.toList = some (.decimal literal)) : Legible (.decimal literal)
  | string (text : String) : Legible (.string text)
  | array {items : List Json} (each : ∀ item ∈ items, Legible item) : Legible (.array items)
  | object {members : List (String × Json)} (each : ∀ member ∈ members, Legible member.2) :
      Legible (.object members)

/-! ## Items and members in a row -/

theorem Spells.pads {text : List Char} {value : Json} (spells : Spells text value) :
    Pads text value := by
  have pads : Pads ([] ++ (text ++ [])) value := .around nofun spells nofun
  rwa [List.nil_append, List.append_nil] at pads

theorem Pads.append {text blanks : List Char} {value : Json} (pads : Pads text value)
    (blank : Blank blanks) : Pads (text ++ blanks) value := by
  cases pads with
  | around blankBefore spells blankAfter =>
    rw [List.append_assoc, List.append_assoc]
    exact .around blankBefore spells (blankAfter.append blank)

theorem PadsMember.append {text blanks : List Char} {member : String × Json}
    (pads : PadsMember text member) (blank : Blank blanks) :
    PadsMember (text ++ blanks) member := by
  cases pads with
  | named blankBefore blankBetween pads =>
    rw [List.append_assoc, List.append_assoc, List.append_assoc, List.cons_append]
    exact .named blankBefore blankBetween (pads.append blank)

variable {blanks : List Char}

theorem spellsItems_intercalate {write : Json → String} (blank : Blank blanks) {items : List Json}
    (nonempty : items ≠ []) (pads : ∀ item ∈ items, Pads (write item).toList item) :
    SpellsItems ((String.intercalate "," (items.map write)).toList ++ (blanks ++ [']'])) items := by
  induction items with
  | nil => exact absurd rfl nonempty
  | cons item items ih =>
    obtain ⟨first, others⟩ := List.forall_mem_cons.mp pads
    cases items with
    | nil =>
      rw [List.map_singleton, String.intercalate_singleton, ← List.append_assoc]
      exact .last (first.append blank)
    | cons next items =>
      rw [List.map_cons, List.map_cons, String.intercalate_cons_cons, String.toList_append,
        String.toList_append, List.append_assoc, List.append_assoc]
      exact .more first (ih (List.cons_ne_nil next items) others)

theorem spellsMembers_intercalate {write : String × Json → String} (blank : Blank blanks)
    {members : List (String × Json)} (nonempty : members ≠ [])
    (pads : ∀ member ∈ members, PadsMember (write member).toList member) :
    SpellsMembers ((String.intercalate "," (members.map write)).toList ++ (blanks ++ ['\x7d']))
      members := by
  induction members with
  | nil => exact absurd rfl nonempty
  | cons member members ih =>
    obtain ⟨first, others⟩ := List.forall_mem_cons.mp pads
    cases members with
    | nil =>
      rw [List.map_singleton, String.intercalate_singleton, ← List.append_assoc]
      exact .last (first.append blank)
    | cons next members =>
      rw [List.map_cons, List.map_cons, String.intercalate_cons_cons, String.toList_append,
        String.toList_append, List.append_assoc, List.append_assoc]
      exact .more first (ih (List.cons_ne_nil next members) others)

theorem spells_array {write : Json → String} (blank : Blank blanks) {items : List Json}
    (pads : ∀ item ∈ items, Pads (write item).toList item) :
    Spells ('[' :: ((String.intercalate "," (items.map write)).toList ++ (blanks ++ [']'])))
      (.array items) := by
  by_cases empty : items = []
  · subst empty
    exact .noItems blank
  · exact .items (spellsItems_intercalate blank empty pads)

theorem spells_object {write : String × Json → String} (blank : Blank blanks)
    {members : List (String × Json)}
    (pads : ∀ member ∈ members, PadsMember (write member).toList member) :
    Spells ('\x7b' :: ((String.intercalate "," (members.map write)).toList ++ (blanks ++ ['\x7d'])))
      (.object members) := by
  by_cases empty : members = []
  · subst empty
    exact .noMembers blank
  · exact .members (spellsMembers_intercalate blank empty pads)

/-! ## Compact text -/

theorem blank_nil : Blank [] := List.forall_mem_nil _

theorem compactItems_eq_map (items : List Json) : compactItems items = items.map compact := by
  induction items with
  | nil => rfl
  | cons item items ih => rw [compactItems, ih, List.map_cons]

theorem compactMembers_eq_map (members : List (String × Json)) :
    compactMembers members =
      members.map fun member => quoted member.1 ++ ":" ++ compact member.2 := by
  induction members with
  | nil => rfl
  | cons member members ih => rw [compactMembers, ih, List.map_cons]

theorem Legible.spells_compact {value : Json} (legible : Legible value) :
    Spells (compact value).toList value := by
  induction legible with
  | null => exact .null
  | bool value =>
    cases value with
    | true => exact .yes
    | false => exact .no
  | integer n => exact .number (isNumeral_digits n) (number?_digits n)
  | decimal numerals read => exact .number numerals read
  | string text => exact .string text
  | array each ih =>
    have spells := spells_array blank_nil fun item member => (ih item member).pads
    simpa [compact, compactItems_eq_map] using spells
  | @object members each ih =>
    have pads : ∀ member ∈ members, PadsMember
        (quoted member.1 ++ ":" ++ compact member.2).toList member := by
      intro member inside
      have named : PadsMember _ member := .named blank_nil blank_nil (ih member inside).pads
      simpa using named
    have spells := spells_object blank_nil pads
    simpa [compact, compactMembers_eq_map] using spells

/-! ## Text in lines -/

theorem blank_newLine (level : Nat) : Blank (newLine level).toList := by
  rw [newLine, String.toList_append]
  refine Blank.append (List.forall_mem_singleton.mpr rfl) fun c member => ?_
  rw [String.toList_ofList] at member
  rw [List.eq_of_mem_replicate member]
  rfl

theorem itemLines_eq_map (level : Nat) (items : List Json) :
    itemLines level items = items.map fun item => newLine level ++ lines level item := by
  induction items with
  | nil => rfl
  | cons item items ih => rw [itemLines, ih, List.map_cons]

theorem memberLines_eq_map (level : Nat) (members : List (String × Json)) :
    memberLines level members = members.map fun member =>
      newLine level ++ quoted member.1 ++ ": " ++ lines level member.2 := by
  induction members with
  | nil => rfl
  | cons member members ih => rw [memberLines, ih, List.map_cons]

theorem Legible.spells_lines {value : Json} (legible : Legible value) (level : Nat) :
    Spells (lines level value).toList value := by
  induction legible generalizing level with
  | null =>
    rw [lines]
    exact .null
  | bool value =>
    cases value with
    | true =>
      rw [lines]
      exact .yes
    | false =>
      rw [lines]
      exact .no
  | integer n =>
    rw [lines]
    exact .number (isNumeral_digits n) (number?_digits n)
  | decimal numerals read =>
    rw [lines]
    exact .number numerals read
  | string text =>
    rw [lines]
    exact .string text
  | @array items each ih =>
    cases items with
    | nil =>
      rw [lines]
      exact .noItems blank_nil
    | cons item items =>
      have pads : ∀ other ∈ item :: items,
          Pads (newLine (level + 1) ++ lines (level + 1) other).toList other := by
        intro other inside
        have around : Pads (_ ++ (_ ++ [])) other :=
          .around (blank_newLine (level + 1)) (ih other inside (level + 1)) blank_nil
        rwa [List.append_nil, ← String.toList_append] at around
      have spells := spells_array (blank_newLine level) pads
      rw [lines, itemLines_eq_map]
      · simpa using spells
      · exact nofun
  | @object members each ih =>
    cases members with
    | nil =>
      rw [lines]
      exact .noMembers blank_nil
    | cons member members =>
      have pads : ∀ other ∈ member :: members, PadsMember
          (newLine (level + 1) ++ quoted other.1 ++ ": " ++ lines (level + 1) other.2).toList
          other := by
        intro other inside
        have around : Pads ([' '] ++ (_ ++ [])) other.2 :=
          .around (List.forall_mem_singleton.mpr rfl) (ih other inside (level + 1)) blank_nil
        have named : PadsMember _ other := .named (blank_newLine (level + 1)) blank_nil around
        simpa using named
      have spells := spells_object (blank_newLine level) pads
      rw [lines, memberLines_eq_map]
      · simpa using spells
      · exact nofun

theorem parse?_compact {value : Json} (legible : Legible value) :
    parse? (compact value) = some value :=
  parse?_of_pads legible.spells_compact.pads

theorem parse?_pretty {value : Json} (legible : Legible value) :
    parse? (pretty value) = some value :=
  parse?_of_pads (legible.spells_lines 0).pads

end Provenance.Json
