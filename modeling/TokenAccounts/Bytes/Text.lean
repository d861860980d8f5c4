/-!
# Text as bytes

Text is laid out as UTF-8.  Main statements: the bytes of a text read back as that text, and bytes
that read as a text are the bytes of it, so that no text has two layouts.
-/

namespace TokenAccounts

/-- The UTF-8 bytes of a text. -/
def utf8Bytes (text : String) : List UInt8 := text.toUTF8.data.toList

/-- The text that bytes hold, if they are UTF-8. -/
def ofUtf8Bytes? (bytes : List UInt8) : Option String := String.fromUTF8? ⟨bytes.toArray⟩

@[simp] theorem length_utf8Bytes (text : String) : (utf8Bytes text).length = text.utf8ByteSize :=
  rfl

@[simp] theorem ofUtf8Bytes?_utf8Bytes (text : String) :
    ofUtf8Bytes? (utf8Bytes text) = some text := by
  have valid := text.isValidUTF8
  simp [ofUtf8Bytes?, utf8Bytes, String.fromUTF8?, String.fromUTF8, String.toUTF8, valid]

theorem utf8Bytes_of_ofUtf8Bytes? {bytes : List UInt8} {text : String}
    (found : ofUtf8Bytes? bytes = some text) : utf8Bytes text = bytes := by
  unfold ofUtf8Bytes? String.fromUTF8? at found
  split at found
  · cases found
    simp [utf8Bytes, String.fromUTF8, String.toUTF8]
  · cases found

end TokenAccounts
