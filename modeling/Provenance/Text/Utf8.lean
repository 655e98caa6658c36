set_option autoImplicit false

/-!
# Text: UTF-8

The bytes of a text, character by character.  They are what is hashed, and what
lengths and indices of a text count.
-/

namespace Provenance.Text

/-- The UTF-8 bytes of a text. -/
def utf8 (text : String) : List UInt8 :=
  text.toList.flatMap String.utf8EncodeChar

/-- They are the bytes that the text is stored as. -/
theorem utf8_eq_toUTF8 (text : String) : utf8 text = text.toUTF8.data.toList := by
  rw [utf8, String.toUTF8_eq_toByteArray, ← String.utf8Encode_toList, List.utf8Encode]
  simp

/-- There are as many of them as the text is counted to have. -/
theorem length_utf8 (text : String) : (utf8 text).length = text.utf8ByteSize := by
  rw [utf8_eq_toUTF8, Array.length_toList]
  exact String.size_toByteArray

/-- A text is told by its bytes. -/
theorem utf8_injective : Function.Injective utf8 := by
  intro s t same
  rw [utf8_eq_toUTF8, utf8_eq_toUTF8, Array.toList_inj] at same
  exact String.toByteArray_inj.mp (ByteArray.ext same)

/-- The bytes of one text after another are those of the first and then those of
the second. -/
@[simp] theorem utf8_append (s t : String) : utf8 (s ++ t) = utf8 s ++ utf8 t := by
  simp [utf8]

end Provenance.Text
