import PropertyWeaver.Bytes
import PropertyWeaver.Text.Utf8
import PropertyWeaver.Value.Basic

/-!
# Canonical CBOR

The concise binary encoding of a value in its canonical form: every length and integer in the
fewest bytes that hold it, and the keys of every object ordered by the length of their encoding
first and by its bytes second. Integers beyond 64 bits are written as tagged byte strings.
-/

namespace PropertyWeaver.Cbor

open Bytes (bigEndian magnitude)

/-! ## Heads and integers -/

/-- The head of an item: its major type and its argument, in the fewest bytes that hold it. -/
def head (major n : Nat) : List UInt8 :=
  if n < 24 then [UInt8.ofNat (32 * major + n)]
  else if n < 0x100 then UInt8.ofNat (32 * major + 24) :: bigEndian 1 n
  else if n < 0x10000 then UInt8.ofNat (32 * major + 25) :: bigEndian 2 n
  else if n < 0x100000000 then UInt8.ofNat (32 * major + 26) :: bigEndian 4 n
  else UInt8.ofNat (32 * major + 27) :: bigEndian 8 n

/-- A byte string. -/
def byteString (bytes : List UInt8) : List UInt8 := head 2 bytes.length ++ bytes

/--
An integer: `n` under major type 0, `-1 - n` under major type 1, and from `2 ^ 64` on the
magnitude as a byte string under tag 2 or 3.
-/
def integer : Int → List UInt8
  | .ofNat n => if n < 0x10000000000000000 then head 0 n else head 6 2 ++ byteString (magnitude n)
  | .negSucc n => if n < 0x10000000000000000 then head 1 n else head 6 3 ++ byteString (magnitude n)

/-- A text, measured in bytes. -/
def text (s : String) : List UInt8 :=
  let bytes := Text.utf8Bytes s
  head 3 bytes.length ++ bytes

/-! ## Values -/

mutual

/-- The encoding of a value, fields in the order given. -/
def write : Value → List UInt8
  | .null => [0xF6]
  | .bool true => [0xF5]
  | .bool false => [0xF4]
  | .int n => integer n
  | .text s => text s
  | .list items => head 4 items.length ++ writeItems items
  | .object fields => head 5 fields.length ++ writeFields fields

/-- The encodings of the items one after the other. -/
def writeItems : List Value → List UInt8
  | [] => []
  | item :: items => write item ++ writeItems items

/-- The encodings of keys and values in turn. -/
def writeFields : List (String × Value) → List UInt8
  | [] => []
  | (key, value) :: fields => text key ++ write value ++ writeFields fields

end

/--
Keys come by the length of their encoding, then by its bytes.

Texts of one length have the same head, so it is enough to compare the texts, and UTF-8 keeps the
order of code points.
-/
def keyBefore (a b : String) : Bool :=
  let m := (Text.utf8Bytes a).length
  let n := (Text.utf8Bytes b).length
  m < n || (m == n && decide (a < b))

/-- The canonical encoding of a value. -/
def document (value : Value) : List UInt8 := write (value.arrange keyBefore)

end PropertyWeaver.Cbor
