/-!
# UTF-8

The bytes of a text, as they are hashed, measured and written to a report.
-/

namespace PropertyWeaver.Text

/-- The UTF-8 encoding of `s`. -/
def utf8Bytes (s : String) : List UInt8 := s.toList.flatMap String.utf8EncodeChar

@[simp] theorem utf8Bytes_append (s t : String) :
    utf8Bytes (s ++ t) = utf8Bytes s ++ utf8Bytes t := by
  simp [utf8Bytes]

end PropertyWeaver.Text
