set_option autoImplicit false

/-!
# Text: the abbreviated form of a long text

Hashes are long, so messages show the first 16 bytes of them.  A text is never
cut inside a character: one that is shorter than that, or whose 16 bytes end
inside a character, is shown whole.
-/

namespace Provenance.Text

/-- The characters that fill exactly the first `count` bytes, if any do. -/
def leading? : Nat → List Char → Option (List Char)
  | 0, _ => some []
  | _ + 1, [] => none
  | count, c :: rest =>
    if c.utf8Size ≤ count then (leading? (count - c.utf8Size) rest).map (c :: ·)
    else none

/-- The first 16 bytes of a text, or the whole of it. -/
def abbreviate (text : String) : String :=
  match leading? 16 text.toList with
  | some start => String.ofList start
  | none => text

/-- A text under its kind, abbreviated: `Kind(0123456789ABCDEF)`. -/
def labelled (kind text : String) : String :=
  kind ++ "(" ++ abbreviate text ++ ")"

end Provenance.Text
