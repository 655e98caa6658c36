import Provenance.Json.Basic
set_option autoImplicit false

/-!
# Reading JSON text

`Json.parse?` reads one value and nothing after it but blanks.  Each step of the
reader uses up a character or enters a value that does, so twice the length of the
text bounds the number of steps.
-/

namespace Provenance.Json.Reader

/-- Blanks between the parts of a value. -/
def isBlank (c : Char) : Bool :=
  c = ' ' || c = '\t' || c = '\n' || c = '\r'

/-- The text without the blanks that it starts with. -/
def skipBlanks (text : List Char) : List Char := text.dropWhile isBlank

/-- The text after a word that it starts with. -/
def after? : List Char → List Char → Option (List Char)
  | [], text => some text
  | c :: word, d :: text => if c = d then after? word text else none
  | _ :: _, [] => none

/-! ## Numbers -/

/-- Whether a character can stand in a number. -/
def isNumeral (c : Char) : Bool :=
  c.isDigit || c = '-' || c = '+' || c = '.' || c = 'e' || c = 'E'

/-- The value of decimal digits. -/
def natural (digits : List Char) : Nat :=
  digits.foldl (fun n c => 10 * n + (c.toNat - 48)) 0

/-- The number of a literal: minus zero and all that is not an integer stay as
they are written. -/
def number? (literal : List Char) : Option Json :=
  let digits := if literal.head? = some '-' then literal.drop 1 else literal
  if (digits.head?.map Char.isDigit).getD false then
    if digits.all Char.isDigit && literal != ['-', '0'] then
      let n : Int := natural digits
      some (.integer (if literal.head? = some '-' then -n else n))
    else some (.decimal (String.ofList literal))
  else none

/-! ## Strings -/

/-- The value of a hexadecimal digit. -/
def hexValue? (c : Char) : Option Nat :=
  if '0' ≤ c ∧ c ≤ '9' then some (c.toNat - 48)
  else if 'a' ≤ c ∧ c ≤ 'f' then some (c.toNat - 87)
  else if 'A' ≤ c ∧ c ≤ 'F' then some (c.toNat - 55)
  else none

/-- The code that four hexadecimal digits give, and the text after them. -/
def code? : List Char → Option (Nat × List Char)
  | a :: b :: c :: d :: rest => do
    let a ← hexValue? a
    let b ← hexValue? b
    let c ← hexValue? c
    let d ← hexValue? d
    return (4096 * a + 256 * b + 16 * c + d, rest)
  | _ => none

/-- The character of an escape by its code, and the text after it.  Two halves of
a pair give one character. -/
def escapedCode? (text : List Char) : Option (Char × List Char) := do
  let (high, rest) ← code? text
  if 0xD800 ≤ high ∧ high < 0xDC00 then
    let rest ← after? ['\\', 'u'] rest
    let (low, rest) ← code? rest
    if 0xDC00 ≤ low ∧ low < 0xE000 then
      return (Char.ofNat (0x10000 + 0x400 * (high - 0xD800) + (low - 0xDC00)), rest)
    else none
  else if 0xDC00 ≤ high ∧ high < 0xE000 then none
  else return (Char.ofNat high, rest)

/-- The character of an escape after its backslash, and the text after it. -/
def escape? : List Char → Option (Char × List Char)
  | 'u' :: rest => escapedCode? rest
  | '"' :: rest => some ('"', rest)
  | '\\' :: rest => some ('\\', rest)
  | '/' :: rest => some ('/', rest)
  | 'b' :: rest => some ('\x08', rest)
  | 'f' :: rest => some ('\x0c', rest)
  | 'n' :: rest => some ('\n', rest)
  | 'r' :: rest => some ('\r', rest)
  | 't' :: rest => some ('\t', rest)
  | _ => none

/-- The characters up to the closing quotation mark, put before those in `read`,
which are the last first, and the text after it. -/
def string? : Nat → List Char → List Char → Option (String × List Char)
  | 0, _, _ => none
  | _ + 1, _, [] => none
  | steps + 1, read, c :: rest =>
    if c = '"' then some (String.ofList read.reverse, rest)
    else if c = '\\' then
      match escape? rest with
      | none => none
      | some (d, rest) => string? steps (d :: read) rest
    else if c.toNat < 0x20 then none
    else string? steps (c :: read) rest

/-! ## Values -/

mutual

/-- A value, and the text after it. -/
def value? : Nat → List Char → Option (Json × List Char)
  | 0, _ => none
  | _ + 1, [] => none
  | steps + 1, c :: rest =>
    if c = '"' then (string? steps [] rest).map fun (text, rest) => (.string text, rest)
    else if c = '[' then
      match skipBlanks rest with
      | ']' :: rest => some (.array [], rest)
      | rest => (items? steps rest).map fun (items, rest) => (.array items, rest)
    else if c = '\x7b' then
      match skipBlanks rest with
      | '\x7d' :: rest => some (.object [], rest)
      | rest => (members? steps rest).map fun (members, rest) => (.object members, rest)
    else if isNumeral c then
      (number? ((c :: rest).takeWhile isNumeral)).map
        fun number => (number, rest.dropWhile isNumeral)
    else if let some rest := after? ['n', 'u', 'l', 'l'] (c :: rest) then some (.null, rest)
    else if let some rest := after? ['t', 'r', 'u', 'e'] (c :: rest) then
      some (.bool true, rest)
    else if let some rest := after? ['f', 'a', 'l', 's', 'e'] (c :: rest) then
      some (.bool false, rest)
    else none

/-- The items of an array up to its closing bracket, and the text after it. -/
def items? : Nat → List Char → Option (List Json × List Char)
  | 0, _ => none
  | steps + 1, text =>
    match value? steps (skipBlanks text) with
    | none => none
    | some (item, rest) =>
      match skipBlanks rest with
      | ']' :: rest => some ([item], rest)
      | ',' :: rest => (items? steps rest).map fun (items, rest) => (item :: items, rest)
      | _ => none

/-- The members of an object up to its closing brace, and the text after it. -/
def members? : Nat → List Char → Option (List (String × Json) × List Char)
  | 0, _ => none
  | steps + 1, text =>
    match skipBlanks text with
    | '"' :: rest =>
      match string? steps [] rest with
      | none => none
      | some (name, rest) =>
        match skipBlanks rest with
        | ':' :: rest =>
          match value? steps (skipBlanks rest) with
          | none => none
          | some (value, rest) =>
            match skipBlanks rest with
            | '\x7d' :: rest => some ([(name, value)], rest)
            | ',' :: rest =>
              (members? steps rest).map fun (members, rest) => ((name, value) :: members, rest)
            | _ => none
        | _ => none
    | _ => none

end

end Reader

/-- The value that a text holds. -/
def parse? (text : String) : Option Json :=
  let text := text.toList
  match Reader.value? (2 * text.length + 2) (Reader.skipBlanks text) with
  | none => none
  | some (value, rest) => if (Reader.skipBlanks rest).isEmpty then some value else none

end Provenance.Json
