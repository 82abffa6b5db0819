/-!
# Bytes of a text

Files and sinks hold bytes; texts are stored in UTF-8.
-/
namespace PlanScribe

abbrev Bytes := List UInt8

/-- The UTF-8 encoding of a text. -/
def encodeText (text : String) : Bytes := text.toList.flatMap String.utf8EncodeChar

/-- The text that has the given encoding, if the bytes are valid UTF-8. -/
def decodeText? (bytes : Bytes) : Option String := String.fromUTF8? ⟨bytes.toArray⟩

@[simp] theorem encodeText_append (a b : String) :
    encodeText (a ++ b) = encodeText a ++ encodeText b := by
  simp [encodeText]

theorem encodeText_eq_toByteArray (text : String) :
    encodeText text = text.toByteArray.data.toList := by
  rw [← String.utf8Encode_toList, List.utf8Encode, List.data_toByteArray]
  rfl

/-- Decoding gives back the text that was encoded. -/
@[simp] theorem decodeText?_encodeText (text : String) :
    decodeText? (encodeText text) = some text := by
  have h : (⟨(encodeText text).toArray⟩ : ByteArray) = text.toByteArray := by
    simp [encodeText_eq_toByteArray]
  rw [decodeText?, h, String.fromUTF8?, dif_pos text.isValidUTF8]
  rfl

theorem encodeText_injective {a b : String} (h : encodeText a = encodeText b) : a = b := by
  have hdecode := congrArg decodeText? h
  rw [decodeText?_encodeText, decodeText?_encodeText] at hdecode
  exact Option.some.inj hdecode

end PlanScribe
