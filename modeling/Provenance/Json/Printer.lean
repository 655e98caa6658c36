import Provenance.Json.Basic
set_option autoImplicit false

/-!
# The text of a JSON value

`Json.compact` writes a value without any blanks, `Json.pretty` one item or member
on a line, each level set in by two blanks.  A string is written with escapes for
the quotation mark, the backslash and the control characters below `20`, and with
all other characters as they are.
-/

namespace Provenance.Json

/-! ## Strings and numbers -/

/-- A digit of a control character's code. -/
def codeDigit (n : Nat) : Char := Nat.digitChar (n % 16)

/-- A character as it stands in a string. -/
def escaped (c : Char) : List Char :=
  if c = '"' then ['\\', '"']
  else if c = '\\' then ['\\', '\\']
  else if c = '\x08' then ['\\', 'b']
  else if c = '\x0c' then ['\\', 'f']
  else if c = '\n' then ['\\', 'n']
  else if c = '\r' then ['\\', 'r']
  else if c = '\t' then ['\\', 't']
  else if c.toNat < 0x20 then
    ['\\', 'u', '0', '0', codeDigit (c.toNat / 16), codeDigit c.toNat]
  else [c]

/-- A string in quotation marks. -/
def quoted (text : String) : String :=
  "\"" ++ String.ofList (text.toList.flatMap escaped) ++ "\""

/-- An integer in decimal digits. -/
def digits : Int → String
  | .ofNat n => n.repr
  | .negSucc n => "-" ++ (n + 1).repr

/-! ## Compact text -/

mutual

/-- The value without any blanks. -/
def compact : Json → String
  | .null => "null"
  | .bool true => "true"
  | .bool false => "false"
  | .integer value => digits value
  | .decimal literal => literal
  | .string value => quoted value
  | .array items => "[" ++ String.intercalate "," (compactItems items) ++ "]"
  | .object members =>
    "\x7b" ++ String.intercalate "," (compactMembers members) ++ "\x7d"

/-- The text of each item. -/
def compactItems : List Json → List String
  | [] => []
  | item :: rest => compact item :: compactItems rest

/-- The text of each member. -/
def compactMembers : List (String × Json) → List String
  | [] => []
  | (name, value) :: rest =>
    (quoted name ++ ":" ++ compact value) :: compactMembers rest

end

/-! ## Text in lines -/

/-- The start of a line at a level. -/
def newLine (level : Nat) : String :=
  "\n" ++ String.ofList (List.replicate (2 * level) ' ')

mutual

/-- The value at a level, in lines. -/
def lines (level : Nat) : Json → String
  | .array [] => "[]"
  | .array items =>
    "[" ++ String.intercalate "," (itemLines (level + 1) items) ++ newLine level ++ "]"
  | .object [] => "\x7b\x7d"
  | .object members =>
    "\x7b" ++ String.intercalate "," (memberLines (level + 1) members)
      ++ newLine level ++ "\x7d"
  | .null => "null"
  | .bool true => "true"
  | .bool false => "false"
  | .integer value => digits value
  | .decimal literal => literal
  | .string value => quoted value

/-- The lines of each item at a level. -/
def itemLines (level : Nat) : List Json → List String
  | [] => []
  | item :: rest => (newLine level ++ lines level item) :: itemLines level rest

/-- The lines of each member at a level. -/
def memberLines (level : Nat) : List (String × Json) → List String
  | [] => []
  | (name, value) :: rest =>
    (newLine level ++ quoted name ++ ": " ++ lines level value) :: memberLines level rest

end

/-- The value in lines. -/
def pretty (value : Json) : String := lines 0 value

end Provenance.Json
