import RaggedTrajectory.Bytes

/-!
# UTF-8

The bytes of a text, and the text of bytes that are well formed.

* `decode_encode`: every text is read back from its bytes.
-/

namespace RaggedTrajectory.Utf8

/-- The bytes of a text. -/
def encode (text : String) : Bytes := text.toUTF8.data.toList

/-- The text that bytes stand for, if they are well formed. -/
def decode? (bytes : Bytes) : Option String :=
  String.fromUTF8? ⟨bytes.toArray⟩

theorem decode_encode (text : String) : decode? (encode text) = some text := by
  have valid : text.toByteArray.IsValidUTF8 := text.isValidUTF8
  simp [decode?, encode, String.fromUTF8?, valid]
  rfl

end RaggedTrajectory.Utf8
