import Mathlib.Data.List.DropRight
import Provenance.Json.Reader
import Provenance.Json.Printer
set_option autoImplicit false

/-!
# Which texts are read as a value

A text spells a value (`Json.Spells`) if its strings stand in quotation marks as
`Json.quoted` has them, its numbers in any way in which they are read, and blanks only
where they do not count.  Each such text is read as the value (`Json.parse?_of_pads`).  The
reader never runs out of steps on the way: a value takes no more than two of them for each
of its characters (`Json.Spells.readsValue`).
-/

namespace Provenance.Json

open Reader

/-! ## Numbers -/

theorem isNumeral_of_isDigit {c : Char} (digit : c.isDigit = true) : isNumeral c = true := by
  simp [isNumeral, digit]

theorem all_isDigit_toDigits (n : Nat) : (Nat.toDigits 10 n).all Char.isDigit = true :=
  List.all_eq_true.mpr fun _ member => Nat.isDigit_of_mem_toDigits (by decide) (by decide) member

theorem natural_toDigits (n : Nat) : natural (Nat.toDigits 10 n) = n :=
  Nat.ofDigitChars_ten_toDigits

theorem number?_of_digits {c : Char} {cs : List Char} (all : (c :: cs).all Char.isDigit = true) :
    number? (c :: cs) = some (.integer (natural (c :: cs))) := by
  rw [List.all_cons, Bool.and_eq_true] at all
  have unsigned : c ≠ '-' := by
    rintro rfl
    cases all.1
  simp [number?, unsigned, all]

theorem number?_of_minus {c : Char} {cs : List Char} (all : (c :: cs).all Char.isDigit = true)
    (positive : natural (c :: cs) ≠ 0) :
    number? ('-' :: c :: cs) = some (.integer (-natural (c :: cs))) := by
  have nonzero : c :: cs ≠ ['0'] := fun zero => positive (zero ▸ rfl)
  rw [List.all_cons, Bool.and_eq_true] at all
  simp_all [number?]

/-- The digits of an integer are read as it. -/
theorem number?_digits (n : Int) : number? (digits n).toList = some (.integer n) := by
  have first (n : Nat) : ∃ c cs, Nat.toDigits 10 n = c :: cs :=
    List.exists_cons_of_ne_nil Nat.toDigits_ne_nil
  cases n with
  | ofNat n =>
    obtain ⟨c, cs, whole⟩ := first n
    have all := all_isDigit_toDigits n
    rw [digits, Nat.toList_repr, whole, number?_of_digits (whole ▸ all), ← whole, natural_toDigits]
    rfl
  | negSucc n =>
    obtain ⟨c, cs, whole⟩ := first (n + 1)
    have all := all_isDigit_toDigits (n + 1)
    have value := natural_toDigits (n + 1)
    rw [whole] at all value
    rw [digits, String.toList_append, Nat.toList_repr, whole]
    refine (number?_of_minus all ?_).trans ?_
    · rw [value]
      exact Nat.succ_ne_zero n
    · rw [value]
      rfl

theorem isNumeral_digits (n : Int) : ∀ c ∈ (digits n).toList, isNumeral c = true := by
  have natural (n : Nat) : ∀ c ∈ n.repr.toList, isNumeral c = true := by
    rw [Nat.toList_repr]
    exact fun c member =>
      isNumeral_of_isDigit (List.all_eq_true.mp (all_isDigit_toDigits n) c member)
  cases n with
  | ofNat n => exact natural n
  | negSucc n =>
    rw [digits, String.toList_append]
    exact List.forall_mem_cons.mpr ⟨rfl, natural (n + 1)⟩

/-! ## Strings -/

theorem hexValue?_codeDigit (n : Nat) : hexValue? (codeDigit n) = some (n % 16) := by
  have table : ∀ n : Fin 16, hexValue? (Nat.digitChar n) = some n.val := by decide
  exact table ⟨n % 16, Nat.mod_lt n (by decide)⟩

/-- The code of a control character is read as it. -/
theorem escapedCode?_control {c : Char} (control : c.toNat < 0x20) (rest : List Char) :
    escapedCode? ('0' :: '0' :: codeDigit (c.toNat / 16) :: codeDigit c.toNat :: rest) =
      some (c, rest) := by
  have zero : hexValue? '0' = some 0 := rfl
  have high : c.toNat / 16 % 16 = c.toNat / 16 := Nat.mod_eq_of_lt (by omega)
  have whole : 4096 * 0 + 256 * 0 + 16 * (c.toNat / 16) + c.toNat % 16 = c.toNat := by omega
  have code : code? ('0' :: '0' :: codeDigit (c.toNat / 16) :: codeDigit c.toNat :: rest) =
      some (c.toNat, rest) := by
    simp only [code?, hexValue?_codeDigit, zero, high, Option.bind_eq_bind, Option.bind_some,
      Option.pure_def, whole]
  rw [escapedCode?, code, Option.bind_eq_bind, Option.bind_some]
  dsimp only
  rw [if_neg (by omega), if_neg (by omega), Char.ofNat_toNat]
  rfl

/-- A character stands in a string as it is, or as an escape that is read as it. -/
theorem escaped_cases (c : Char) :
    (escaped c = [c] ∧ c ≠ '"' ∧ c ≠ '\\' ∧ ¬c.toNat < 0x20) ∨
      ∃ code, escaped c = '\\' :: code ∧ ∀ rest, escape? (code ++ rest) = some (c, rest) := by
  by_cases short : c ∈ ['"', '\\', '\x08', '\x0c', '\n', '\r', '\t']
  · simp only [List.mem_cons, List.not_mem_nil, or_false] at short
    rcases short with rfl | rfl | rfl | rfl | rfl | rfl | rfl <;>
      exact .inr ⟨_, rfl, fun _ => rfl⟩
  · simp only [List.mem_cons, List.not_mem_nil, or_false, not_or] at short
    simp only [escaped, short, if_false]
    split
    case isTrue control => exact .inr ⟨_, rfl, escapedCode?_control control⟩
    case isFalse printable => exact .inl ⟨rfl, short.1, short.2.1, printable⟩

theorem length_le_flatMap_escaped (text : List Char) :
    text.length ≤ (text.flatMap escaped).length := by
  induction text with
  | nil => exact Nat.le_refl _
  | cons c text ih =>
    have nonempty : 1 ≤ (escaped c).length := by
      rcases escaped_cases c with ⟨plain, -⟩ | ⟨code, whole, -⟩
      · exact Nat.le_of_eq (congrArg List.length plain).symm
      · exact whole ▸ Nat.le_add_left 1 code.length
    rw [List.flatMap_cons, List.length_append, List.length_cons]
    omega

theorem toList_quoted (text : String) :
    (quoted text).toList = '"' :: (text.toList.flatMap escaped ++ ['"']) := by
  simp [quoted]

/-- Each character that stands in a string takes one step. -/
theorem string?_escaped (steps : Nat) (read : List Char) (c : Char) (rest : List Char) :
    string? (steps + 1) read (escaped c ++ rest) = string? steps (c :: read) rest := by
  rcases escaped_cases c with ⟨plain, quote, backslash, printable⟩ | ⟨code, whole, decoded⟩
  · rw [plain, List.singleton_append, string?, if_neg quote, if_neg backslash, if_neg printable]
  · rw [whole, List.cons_append, string?, if_neg (by decide), if_pos rfl, decoded]

theorem string?_flatMap_escaped {steps : Nat} (read text rest : List Char)
    (enough : text.length < steps) :
    string? steps read (text.flatMap escaped ++ '"' :: rest) =
      some (String.ofList (read.reverse ++ text), rest) := by
  induction text generalizing read steps with
  | nil =>
    obtain ⟨steps, rfl⟩ := Nat.exists_eq_succ_of_ne_zero (Nat.ne_zero_of_lt enough)
    rw [List.flatMap_nil, List.nil_append, string?, if_pos rfl, List.append_nil]
  | cons c text ih =>
    obtain ⟨steps, rfl⟩ := Nat.exists_eq_succ_of_ne_zero (Nat.ne_zero_of_lt enough)
    rw [List.flatMap_cons, List.append_assoc, string?_escaped, ih _ (Nat.lt_of_succ_lt_succ enough),
      List.reverse_cons, List.append_assoc, List.singleton_append]

/-- A string is read behind its first quotation mark up to the last. -/
theorem string?_quoted {steps : Nat} (text : String) (rest : List Char)
    (enough : (quoted text).length ≤ steps + 1) :
    string? steps [] (text.toList.flatMap escaped ++ '"' :: rest) = some (text, rest) := by
  have size := length_le_flatMap_escaped text.toList
  rw [← String.length_toList, toList_quoted, List.length_cons, List.length_append,
    List.length_singleton] at enough
  rw [string?_flatMap_escaped [] _ _ (by omega), List.reverse_nil, List.nil_append,
    String.ofList_toList]

/-! ## Blanks -/

/-- Nothing but blanks. -/
def Blank (text : List Char) : Prop := ∀ c ∈ text, isBlank c = true

theorem Blank.append {before after : List Char} (blankBefore : Blank before)
    (blankAfter : Blank after) : Blank (before ++ after) :=
  List.forall_mem_append.mpr ⟨blankBefore, blankAfter⟩

theorem skipBlanks_cons {c : Char} (text : List Char) (visible : isBlank c = false) :
    skipBlanks (c :: text) = c :: text := by
  rw [skipBlanks, List.dropWhile_cons, visible]
  rfl

theorem skipBlanks_append {blanks : List Char} (text : List Char) (blank : Blank blanks) :
    skipBlanks (blanks ++ text) = skipBlanks text :=
  List.dropWhile_append_of_pos blank

theorem skipBlanks_skipBlanks (text : List Char) : skipBlanks (skipBlanks text) = skipBlanks text :=
  List.dropWhile_idempotent isBlank text

/-- The text does not go on with a number. -/
def Ends (text : List Char) : Prop := ∀ c ∈ text.head?, isNumeral c = false

theorem ends_cons {c : Char} (text : List Char) (other : isNumeral c = false) :
    Ends (c :: text) := by
  rintro _ ⟨⟩
  exact other

theorem isNumeral_of_isBlank {c : Char} (blank : isBlank c = true) : isNumeral c = false := by
  simp only [isBlank, Bool.or_eq_true, decide_eq_true_eq] at blank
  rcases blank with ((rfl | rfl) | rfl) | rfl <;> rfl

theorem ends_append {blanks text : List Char} (blank : Blank blanks) (ends : Ends text) :
    Ends (blanks ++ text) := by
  cases blanks with
  | nil => exact ends
  | cons b blanks => exact ends_cons _ (isNumeral_of_isBlank (blank b List.mem_cons_self))

/-! ## Spelling -/

mutual

/-- The text stands for the value. -/
inductive Spells : List Char → Json → Prop
  | null : Spells ['n', 'u', 'l', 'l'] .null
  | yes : Spells ['t', 'r', 'u', 'e'] (.bool true)
  | no : Spells ['f', 'a', 'l', 's', 'e'] (.bool false)
  | number {literal : List Char} {value : Json} (numerals : ∀ c ∈ literal, isNumeral c = true)
      (read : number? literal = some value) : Spells literal value
  | string (text : String) : Spells (quoted text).toList (.string text)
  | noItems {blanks : List Char} (blank : Blank blanks) :
      Spells ('[' :: (blanks ++ [']'])) (.array [])
  | items {text : List Char} {items : List Json} (spells : SpellsItems text items) :
      Spells ('[' :: text) (.array items)
  | noMembers {blanks : List Char} (blank : Blank blanks) :
      Spells ('\x7b' :: (blanks ++ ['\x7d'])) (.object [])
  | members {text : List Char} {members : List (String × Json)}
      (spells : SpellsMembers text members) : Spells ('\x7b' :: text) (.object members)

/-- The text stands for the value, with blanks around it. -/
inductive Pads : List Char → Json → Prop
  | around {before text after : List Char} {value : Json} (blankBefore : Blank before)
      (spells : Spells text value) (blankAfter : Blank after) :
      Pads (before ++ (text ++ after)) value

/-- The text stands for the member, with blanks around its name and its value. -/
inductive PadsMember : List Char → String × Json → Prop
  | named {before between text : List Char} {name : String} {value : Json}
      (blankBefore : Blank before) (blankBetween : Blank between) (pads : Pads text value) :
      PadsMember (before ++ ((quoted name).toList ++ (between ++ ':' :: text))) (name, value)

/-- The text stands for the items, up to the closing bracket. -/
inductive SpellsItems : List Char → List Json → Prop
  | last {text : List Char} {item : Json} (pads : Pads text item) :
      SpellsItems (text ++ [']']) [item]
  | more {text others : List Char} {item : Json} {items : List Json} (pads : Pads text item)
      (spells : SpellsItems others items) : SpellsItems (text ++ ',' :: others) (item :: items)

/-- The text stands for the members, up to the closing brace. -/
inductive SpellsMembers : List Char → List (String × Json) → Prop
  | last {text : List Char} {member : String × Json} (pads : PadsMember text member) :
      SpellsMembers (text ++ ['\x7d']) [member]
  | more {text others : List Char} {member : String × Json} {members : List (String × Json)}
      (pads : PadsMember text member) (spells : SpellsMembers others members) :
      SpellsMembers (text ++ ',' :: others) (member :: members)

end

/-! ## One step of the reader -/

variable {steps : Nat} {text rest : List Char}

theorem exists_cons_of_number? {literal : List Char} {value : Json}
    (numerals : ∀ c ∈ literal, isNumeral c = true) (read : number? literal = some value) :
    ∃ c cs, literal = c :: cs ∧ isNumeral c = true := by
  cases literal with
  | nil => cases read
  | cons c cs => exact ⟨c, cs, rfl, numerals c List.mem_cons_self⟩

theorem value?_of_number {literal : List Char} {value : Json}
    (numerals : ∀ c ∈ literal, isNumeral c = true) (read : number? literal = some value)
    (ends : Ends rest) : value? (steps + 1) (literal ++ rest) = some (value, rest) := by
  obtain ⟨c, cs, rfl, numeral⟩ := exists_cons_of_number? numerals read
  have quote : c ≠ '"' := by rintro rfl; cases numeral
  have bracket : c ≠ '[' := by rintro rfl; cases numeral
  have brace : c ≠ '\x7b' := by rintro rfl; cases numeral
  -- The number stops where the literal does, since what follows does not go on with it.
  have stop : rest.takeWhile isNumeral = [] ∧ rest.dropWhile isNumeral = rest := by
    cases rest with
    | nil => exact ⟨rfl, rfl⟩
    | cons d rest => simp [ends d rfl]
  have literal : (c :: (cs ++ rest)).takeWhile isNumeral = c :: cs := by
    rw [← List.cons_append, List.takeWhile_append_of_pos numerals, stop.1, List.append_nil]
  have others : (cs ++ rest).dropWhile isNumeral = rest := by
    rw [List.dropWhile_append_of_pos fun d member => numerals d (List.mem_cons_of_mem c member),
      stop.2]
  rw [List.cons_append, value?, if_neg quote, if_neg bracket, if_neg brace, if_pos numeral,
    literal, read, others]
  rfl

theorem value?_of_string {name : String} (enough : 2 * (quoted name).toList.length ≤ steps + 1) :
    value? (steps + 1) ((quoted name).toList ++ rest) = some (.string name, rest) := by
  rw [String.length_toList] at enough
  rw [toList_quoted, List.cons_append, List.append_assoc, List.singleton_append, value?, if_pos rfl,
    string?_quoted name rest (by omega)]
  rfl

theorem value?_of_noItems {blanks : List Char} (blank : Blank blanks) :
    value? (steps + 1) ('[' :: (blanks ++ ']' :: rest)) = some (.array [], rest) := by
  have closed : skipBlanks (blanks ++ ']' :: rest) = ']' :: rest := by
    rw [skipBlanks_append _ blank, skipBlanks_cons _ rfl]
  rw [value?, if_neg (by decide), if_pos rfl, closed]
  rfl

theorem value?_of_noMembers {blanks : List Char} (blank : Blank blanks) :
    value? (steps + 1) ('\x7b' :: (blanks ++ '\x7d' :: rest)) = some (.object [], rest) := by
  have closed : skipBlanks (blanks ++ '\x7d' :: rest) = '\x7d' :: rest := by
    rw [skipBlanks_append _ blank, skipBlanks_cons _ rfl]
  rw [value?, if_neg (by decide), if_neg (by decide), if_pos rfl, closed]
  rfl

theorem items?_skipBlanks (steps : Nat) (text : List Char) :
    items? steps (skipBlanks text) = items? steps text := by
  cases steps with
  | zero => rfl
  | succ steps => rw [items?, items?, skipBlanks_skipBlanks]

theorem members?_skipBlanks (steps : Nat) (text : List Char) :
    members? steps (skipBlanks text) = members? steps text := by
  cases steps with
  | zero => rfl
  | succ steps => rw [members?, members?, skipBlanks_skipBlanks]

theorem value?_of_items {items : List Json}
    (nonempty : ∀ others, skipBlanks text ≠ ']' :: others)
    (read : items? steps text = some (items, rest)) :
    value? (steps + 1) ('[' :: text) = some (.array items, rest) := by
  rw [value?, if_neg (by decide), if_pos rfl]
  split
  case h_1 others closed => exact absurd closed (nonempty others)
  case h_2 =>
    rw [items?_skipBlanks, read]
    rfl

theorem value?_of_members {members : List (String × Json)}
    (nonempty : ∀ others, skipBlanks text ≠ '\x7d' :: others)
    (read : members? steps text = some (members, rest)) :
    value? (steps + 1) ('\x7b' :: text) = some (.object members, rest) := by
  rw [value?, if_neg (by decide), if_neg (by decide), if_pos rfl]
  split
  case h_1 others closed => exact absurd closed (nonempty others)
  case h_2 =>
    rw [members?_skipBlanks, read]
    rfl

theorem items?_last {item : Json} {after : List Char}
    (first : value? steps (skipBlanks text) = some (item, after))
    (closed : skipBlanks after = ']' :: rest) :
    items? (steps + 1) text = some ([item], rest) := by
  simp only [items?, first, closed]

theorem items?_more {item : Json} {items : List Json} {after others : List Char}
    (first : value? steps (skipBlanks text) = some (item, after))
    (next : skipBlanks after = ',' :: others) (read : items? steps others = some (items, rest)) :
    items? (steps + 1) text = some (item :: items, rest) := by
  simp only [items?, first, next, read, Option.map_some]

theorem skipBlanks_quoted {before : List Char} (blank : Blank before) (name : String)
    (tail : List Char) :
    skipBlanks (before ++ ((quoted name).toList ++ tail)) = (quoted name).toList ++ tail := by
  rw [skipBlanks_append _ blank, toList_quoted]
  exact skipBlanks_cons _ rfl

theorem members?_last {name : String} {value : Json} {inner between body after : List Char}
    (opened : skipBlanks text = '"' :: inner)
    (named : string? steps [] inner = some (name, between))
    (colon : skipBlanks between = ':' :: body)
    (first : value? steps (skipBlanks body) = some (value, after))
    (closed : skipBlanks after = '\x7d' :: rest) :
    members? (steps + 1) text = some ([(name, value)], rest) := by
  simp only [members?, opened, named, colon, first, closed]

theorem members?_more {name : String} {value : Json} {members : List (String × Json)}
    {inner between body after others : List Char} (opened : skipBlanks text = '"' :: inner)
    (named : string? steps [] inner = some (name, between))
    (colon : skipBlanks between = ':' :: body)
    (first : value? steps (skipBlanks body) = some (value, after))
    (next : skipBlanks after = ',' :: others)
    (read : members? steps others = some (members, rest)) :
    members? (steps + 1) text = some ((name, value) :: members, rest) := by
  simp only [members?, opened, named, colon, first, next, read, Option.map_some]

/-! ## How a text starts -/

theorem Spells.exists_cons {value : Json} (spells : Spells text value) :
    ∃ c cs, text = c :: cs ∧ isBlank c = false ∧ c ≠ ']' := by
  cases spells with
  | number numerals read =>
    obtain ⟨c, cs, rfl, numeral⟩ := exists_cons_of_number? numerals read
    refine ⟨c, cs, rfl, ?_, ?_⟩
    · cases blank : isBlank c with
      | false => rfl
      | true => cases numeral.symm.trans (isNumeral_of_isBlank blank)
    · rintro rfl
      cases numeral
  | string text =>
    rw [toList_quoted]
    exact ⟨_, _, rfl, rfl, by decide⟩
  | _ => exact ⟨_, _, rfl, rfl, by decide⟩

theorem Pads.skipBlanks_ne {value : Json} (pads : Pads text value) (rest others : List Char) :
    skipBlanks (text ++ rest) ≠ ']' :: others := by
  cases pads with
  | around blankBefore spells blankAfter =>
    obtain ⟨c, cs, rfl, visible, other⟩ := spells.exists_cons
    rw [List.append_assoc, List.append_assoc, skipBlanks_append _ blankBefore, List.cons_append,
      skipBlanks_cons _ visible]
    exact fun same => other (List.cons.inj same).1

theorem PadsMember.skipBlanks_ne {member : String × Json} (pads : PadsMember text member)
    (rest others : List Char) : skipBlanks (text ++ rest) ≠ '\x7d' :: others := by
  cases pads with
  | named blankBefore =>
    rw [List.append_assoc, List.append_assoc, skipBlanks_quoted blankBefore, toList_quoted]
    exact fun same => absurd (List.cons.inj same).1 (by decide)

theorem SpellsItems.skipBlanks_ne {items : List Json} (spells : SpellsItems text items)
    (rest others : List Char) : skipBlanks (text ++ rest) ≠ ']' :: others := by
  cases spells with
  | last pads | more pads =>
    rw [List.append_assoc]
    exact pads.skipBlanks_ne _ _

theorem SpellsMembers.skipBlanks_ne {members : List (String × Json)}
    (spells : SpellsMembers text members) (rest others : List Char) :
    skipBlanks (text ++ rest) ≠ '\x7d' :: others := by
  cases spells with
  | last pads | more pads =>
    rw [List.append_assoc]
    exact pads.skipBlanks_ne _ _

/-! ## All steps of the reader -/

/-- The value is read from the text, in two steps for each character, and what follows is
left. -/
def ReadsValue (text : List Char) (value : Json) : Prop :=
  ∀ (steps : Nat) (rest : List Char), 2 * text.length ≤ steps → Ends rest →
    value? steps (text ++ rest) = some (value, rest)

/-- The value is read from the text up to the mark that follows it. -/
def ReadsPadded (text : List Char) (value : Json) : Prop :=
  ∀ (steps : Nat) (mark : Char) (rest : List Char), 2 * text.length ≤ steps →
    isNumeral mark = false → isBlank mark = false →
    ∃ after, value? steps (skipBlanks (text ++ mark :: rest)) = some (value, after) ∧
      skipBlanks after = mark :: rest

/-- The name and the value of the member are read from the text up to the mark that follows
it. -/
def ReadsMember (text : List Char) (member : String × Json) : Prop :=
  ∀ (steps : Nat) (mark : Char) (rest : List Char), 2 * text.length ≤ steps →
    isNumeral mark = false → isBlank mark = false →
    ∃ inner between body after, skipBlanks (text ++ mark :: rest) = '"' :: inner ∧
      string? steps [] inner = some (member.1, between) ∧ skipBlanks between = ':' :: body ∧
      value? steps (skipBlanks body) = some (member.2, after) ∧ skipBlanks after = mark :: rest

/-- The items are read from the text, and what follows is left. -/
def ReadsItems (text : List Char) (items : List Json) : Prop :=
  ∀ (steps : Nat) (rest : List Char), 2 * text.length ≤ steps →
    items? steps (text ++ rest) = some (items, rest)

/-- The members are read from the text, and what follows is left. -/
def ReadsMembers (text : List Char) (members : List (String × Json)) : Prop :=
  ∀ (steps : Nat) (rest : List Char), 2 * text.length ≤ steps →
    members? steps (text ++ rest) = some (members, rest)

theorem exists_fewer (enough : 2 * text.length ≤ steps) (nonempty : text ≠ []) :
    ∃ fewer, steps = fewer + 1 := by
  have positive := List.length_pos_iff.mpr nonempty
  exact ⟨steps - 1, by omega⟩

theorem readsValue_number {literal : List Char} {value : Json}
    (numerals : ∀ c ∈ literal, isNumeral c = true) (read : number? literal = some value) :
    ReadsValue literal value := by
  intro steps rest enough ends
  obtain ⟨c, cs, rfl, -⟩ := exists_cons_of_number? numerals read
  obtain ⟨steps, rfl⟩ := exists_fewer enough (by simp)
  exact value?_of_number numerals read ends

theorem readsValue_string (name : String) : ReadsValue (quoted name).toList (.string name) := by
  intro steps rest enough _
  obtain ⟨steps, rfl⟩ := exists_fewer enough (by simp [toList_quoted])
  exact value?_of_string enough

theorem readsValue_noItems {blanks : List Char} (blank : Blank blanks) :
    ReadsValue ('[' :: (blanks ++ [']'])) (.array []) := by
  intro steps rest enough _
  obtain ⟨steps, rfl⟩ := exists_fewer enough (by simp)
  rw [List.cons_append, List.append_assoc]
  exact value?_of_noItems blank

theorem readsValue_items {items : List Json} (spells : SpellsItems text items)
    (reads : ReadsItems text items) : ReadsValue ('[' :: text) (.array items) := by
  intro steps rest enough _
  obtain ⟨steps, rfl⟩ := exists_fewer enough (by simp)
  rw [List.length_cons] at enough
  exact value?_of_items (spells.skipBlanks_ne rest) (reads steps rest (by omega))

theorem readsValue_noMembers {blanks : List Char} (blank : Blank blanks) :
    ReadsValue ('\x7b' :: (blanks ++ ['\x7d'])) (.object []) := by
  intro steps rest enough _
  obtain ⟨steps, rfl⟩ := exists_fewer enough (by simp)
  rw [List.cons_append, List.append_assoc]
  exact value?_of_noMembers blank

theorem readsValue_members {members : List (String × Json)} (spells : SpellsMembers text members)
    (reads : ReadsMembers text members) : ReadsValue ('\x7b' :: text) (.object members) := by
  intro steps rest enough _
  obtain ⟨steps, rfl⟩ := exists_fewer enough (by simp)
  rw [List.length_cons] at enough
  exact value?_of_members (spells.skipBlanks_ne rest) (reads steps rest (by omega))

theorem readsPadded {before after : List Char} {value : Json} (blankBefore : Blank before)
    (spells : Spells text value) (blankAfter : Blank after) (reads : ReadsValue text value) :
    ReadsPadded (before ++ (text ++ after)) value := by
  intro steps mark rest enough other visible
  rw [List.length_append, List.length_append] at enough
  have read := reads steps (after ++ mark :: rest) (by omega)
    (ends_append blankAfter (ends_cons rest other))
  refine ⟨after ++ mark :: rest, ?_, ?_⟩
  · obtain ⟨c, cs, rfl, visible', -⟩ := spells.exists_cons
    rwa [List.append_assoc, List.append_assoc, skipBlanks_append _ blankBefore,
      List.cons_append, skipBlanks_cons _ visible']
  · rw [skipBlanks_append _ blankAfter, skipBlanks_cons _ visible]

theorem readsMember {before between : List Char} {name : String} {value : Json}
    (blankBefore : Blank before) (blankBetween : Blank between) (reads : ReadsPadded text value) :
    ReadsMember (before ++ ((quoted name).toList ++ (between ++ ':' :: text))) (name, value) := by
  intro steps mark rest enough other visible
  simp only [List.length_append, List.length_cons, String.length_toList] at enough
  obtain ⟨after, first, next⟩ := reads steps mark rest (by omega) other visible
  refine ⟨_, between ++ ':' :: (text ++ mark :: rest), _, after, ?_,
    string?_quoted name _ (by omega), ?_, first, next⟩
  · simp only [List.append_assoc, List.cons_append, skipBlanks_quoted blankBefore]
    simp only [toList_quoted, List.append_assoc, List.cons_append, List.nil_append]
  · rw [skipBlanks_append _ blankBetween, skipBlanks_cons _ rfl]

theorem readsItems_last {item : Json} (reads : ReadsPadded text item) :
    ReadsItems (text ++ [']']) [item] := by
  intro steps rest enough
  obtain ⟨steps, rfl⟩ := exists_fewer enough (by simp)
  rw [List.length_append, List.length_singleton] at enough
  obtain ⟨after, first, closed⟩ := reads steps ']' rest (by omega) rfl rfl
  rw [List.append_assoc]
  exact items?_last first closed

theorem readsItems_more {others : List Char} {item : Json} {items : List Json}
    (reads : ReadsPadded text item) (readsOthers : ReadsItems others items) :
    ReadsItems (text ++ ',' :: others) (item :: items) := by
  intro steps rest enough
  obtain ⟨steps, rfl⟩ := exists_fewer enough (by simp)
  rw [List.length_append, List.length_cons] at enough
  obtain ⟨after, first, next⟩ := reads steps ',' (others ++ rest) (by omega) rfl rfl
  rw [List.append_assoc]
  exact items?_more first next (readsOthers steps rest (by omega))

theorem readsMembers_last {member : String × Json} (reads : ReadsMember text member) :
    ReadsMembers (text ++ ['\x7d']) [member] := by
  intro steps rest enough
  obtain ⟨steps, rfl⟩ := exists_fewer enough (by simp)
  rw [List.length_append, List.length_singleton] at enough
  obtain ⟨inner, between, body, after, opened, named, colon, first, closed⟩ :=
    reads steps '\x7d' rest (by omega) rfl rfl
  rw [List.append_assoc]
  exact members?_last opened named colon first closed

theorem readsMembers_more {others : List Char} {member : String × Json}
    {members : List (String × Json)} (reads : ReadsMember text member)
    (readsOthers : ReadsMembers others members) :
    ReadsMembers (text ++ ',' :: others) (member :: members) := by
  intro steps rest enough
  obtain ⟨steps, rfl⟩ := exists_fewer enough (by simp)
  rw [List.length_append, List.length_cons] at enough
  obtain ⟨inner, between, body, after, opened, named, colon, first, next⟩ :=
    reads steps ',' (others ++ rest) (by omega) rfl rfl
  rw [List.append_assoc]
  exact members?_more opened named colon first next (readsOthers steps rest (by omega))

/-- A value is read from each text that spells it, in two steps for each character, and
what follows it is left. -/
theorem Spells.readsValue {value : Json} (spells : Spells text value) : ReadsValue text value := by
  -- The five predicates depend on one another, so the induction has a statement for each.
  refine @Spells.rec (fun text value _ => ReadsValue text value)
    (fun text value _ => ReadsPadded text value) (fun text member _ => ReadsMember text member)
    (fun text items _ => ReadsItems text items) (fun text members _ => ReadsMembers text members)
    ?null ?yes ?no ?number ?string ?noItems ?items ?noMembers ?members ?around ?named
    ?lastItem ?moreItems ?lastMember ?moreMembers text value spells
  case null | yes | no =>
    intro steps rest enough _
    obtain ⟨steps, rfl⟩ := exists_fewer enough (by simp)
    rfl
  case number => exact readsValue_number
  case string => exact readsValue_string
  case noItems => exact readsValue_noItems
  case items => exact readsValue_items
  case noMembers => exact readsValue_noMembers
  case members => exact readsValue_members
  case around => exact readsPadded
  case named => exact fun blankBefore blankBetween _ => readsMember blankBefore blankBetween
  case lastItem => exact fun _ => readsItems_last
  case moreItems => exact fun _ _ => readsItems_more
  case lastMember => exact fun _ => readsMembers_last
  case moreMembers => exact fun _ _ => readsMembers_more

/-- **What is spelled is read**, with blanks around it or not. -/
theorem parse?_of_pads {text : String} {value : Json} (pads : Pads text.toList value) :
    parse? text = some value := by
  generalize whole : text.toList = chars at pads
  obtain @⟨before, inner, after, _, blankBefore, spells, blankAfter⟩ := pads
  have read := spells.readsValue (2 * text.toList.length + 2) after
    (by rw [whole, List.length_append, List.length_append]; omega)
    (List.append_nil after ▸ ends_append blankAfter nofun)
  obtain ⟨c, cs, rfl, visible, -⟩ := spells.exists_cons
  have nothing : skipBlanks after = [] := List.dropWhile_eq_nil_iff.mpr blankAfter
  rw [List.cons_append] at read whole
  have start : skipBlanks text.toList = c :: (cs ++ after) := by
    rw [whole, skipBlanks_append _ blankBefore, skipBlanks_cons _ visible]
  simp only [parse?, start, read, nothing, List.isEmpty_nil, if_true]

end Provenance.Json
