/-
# Text as octets

The UTF-8 form of a text, and the text that octets are the form of.

Key definitions: `Utf8.encode`, `Utf8.decode`, `Utf8.encodeChar`.
-/
import WorkloadIdentity.Text.Hex

namespace WorkloadIdentity

namespace Utf8

/-- The octets of a text. -/
def encode (s : String) : Bytes := s.toUTF8.data.toList

/-- The text that the octets are the form of, if there is one. -/
def decode (bytes : Bytes) : Option String := String.fromUTF8? ⟨bytes.toArray⟩

/-- The octets of one character. -/
def encodeChar (c : Char) : Bytes := String.utf8EncodeChar c

end Utf8

end WorkloadIdentity
