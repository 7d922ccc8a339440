import Morons.Library.Utf8
import Morons.Provider.Outcome

/-!
# Texts and their bytes

The bytes of a text are those of its characters, and a text is read back from
them.
-/

namespace Morons

open Provider

/-- `String::from_utf8`. -/
def decodeUtf8 (bytes : List UInt8) : Option String := String.fromUTF8? bytes.toByteArray

theorem toUTF8_eq (text : String) : text.toUTF8 = (Utf8.encode text.toList).toByteArray := by
  have h : (String.ofList text.toList).toUTF8 = (Utf8.encode text.toList).toByteArray := rfl
  rwa [String.ofList_toList] at h

theorem bytesOf_eq_encode (text : String) : bytesOf text = Utf8.encode text.toList := by
  rw [bytesOf, toUTF8_eq]
  simp [ByteArray.toList, toList_loop]

theorem decodeUtf8_bytesOf (text : String) : decodeUtf8 (bytesOf text) = some text := by
  rw [decodeUtf8, bytesOf_eq_encode, ← toUTF8_eq, String.fromUTF8?,
    String.toUTF8_eq_toByteArray, dif_pos text.isValidUTF8]
  rfl

theorem bytesOf_length (text : String) : (bytesOf text).length = text.utf8ByteSize := by
  rw [bytesOf_eq_encode, ← List.size_toByteArray, ← toUTF8_eq]
  rfl

/-- Bytes that are a text are the bytes of that text. -/
theorem decodeUtf8_some {bytes : List UInt8} {text : String} (h : decodeUtf8 bytes = some text) :
    bytes = bytesOf text := by
  unfold decodeUtf8 String.fromUTF8? at h
  split at h
  case isTrue hvalid =>
    obtain rfl := Option.some.inj h
    have hbytes : (String.fromUTF8 bytes.toByteArray hvalid).toUTF8 = bytes.toByteArray := rfl
    rw [bytesOf, hbytes]
    simp [ByteArray.toList, toList_loop]
  case isFalse => cases h

end Morons
