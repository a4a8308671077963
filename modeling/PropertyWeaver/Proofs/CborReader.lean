import PropertyWeaver.Proofs.Values
import PropertyWeaver.Value.Cbor

/-!
# Reading CBOR

A reader for the items of the binary encoding that stand for values: integers, texts, lists, maps
with texts for keys, the three simple values, and byte strings under the tags of big integers.  It
takes the argument of a head in any of its widths and keys in any order, and it refuses texts that
are not UTF-8.

The head of a text or a list holds its length in eight bytes at most, so the format has no heads for
lengths from `2 ^ 64` on.  An encoding of fewer bytes needs none of them, and no byte string of a
host has more; it is read back as the arranged value.

## Main results

* `readHead_head` — a head comes back in each of its widths.
* `reads_integer` — an integer comes back, whatever its size and sign.
* `reads_write`, `read_document` — so does every value.
-/

namespace PropertyWeaver.Cbor

open Bytes (bigEndian magnitude)

/-! ## Heads -/

/-- The number whose bytes are given, most significant first. -/
def ofBigEndian (bytes : List UInt8) : Nat :=
  bytes.foldl (fun n byte => 256 * n + byte.toNat) 0

/-- The next `n` bytes. -/
def readBytes (n : Nat) (bytes : List UInt8) : Option (List UInt8 × List UInt8) :=
  if n ≤ bytes.length then some (bytes.take n, bytes.drop n) else none

/-- The major type and the argument of a head. -/
def readHead : List UInt8 → Option ((Nat × Nat) × List UInt8)
  | [] => none
  | first :: rest =>
    let major := first.toNat / 32
    let info := first.toNat % 32
    if info < 24 then some ((major, info), rest)
    else if info < 28 then
      (readBytes (2 ^ (info - 24)) rest).map fun (argument, rest) =>
        ((major, ofBigEndian argument), rest)
    else none

/-! ## Values -/

/-- A text of `n` bytes. -/
def readText (n : Nat) (bytes : List UInt8) : Option (String × List UInt8) := do
  let (text, rest) ← readBytes n bytes
  let s ← String.fromUTF8? text.toByteArray
  return (s, rest)

/-- The number that a byte string holds. -/
def readMagnitude (bytes : List UInt8) : Option (Nat × List UInt8) := do
  let ((major, n), rest) ← readHead bytes
  if major = 2 then
    let (magnitude, rest) ← readBytes n rest
    return (ofBigEndian magnitude, rest)
  else none

/-- That many items. -/
def readItems {α : Type} (read : List UInt8 → Option (α × List UInt8)) :
    Nat → List UInt8 → Option (List α × List UInt8)
  | 0, bytes => some ([], bytes)
  | n + 1, bytes => do
    let (item, rest) ← read bytes
    let (items, rest) ← readItems read n rest
    return (item :: items, rest)

/-- A text and a value. -/
def readField (read : List UInt8 → Option (Value × List UInt8)) (bytes : List UInt8) :
    Option ((String × Value) × List UInt8) := do
  let ((major, n), rest) ← readHead bytes
  if major = 3 then
    let (key, rest) ← readText n rest
    let (value, rest) ← read rest
    return ((key, value), rest)
  else none

/-- What comes after a head, by its major type and argument; `read` reads the parts. -/
def readBody (read : List UInt8 → Option (Value × List UInt8)) (major n : Nat)
    (rest : List UInt8) : Option (Value × List UInt8) :=
  match major, n with
  | 0, n => some (.int n, rest)
  | 1, n => some (.int (-1 - n), rest)
  | 3, n => (readText n rest).map fun (s, rest) => (.text s, rest)
  | 4, n => (readItems read n rest).map fun (items, rest) => (.list items, rest)
  | 5, n => (readItems (readField read) n rest).map fun (fields, rest) => (.object fields, rest)
  | 6, 2 => (readMagnitude rest).map fun (n, rest) => (.int n, rest)
  | 6, 3 => (readMagnitude rest).map fun (n, rest) => (.int (-1 - n), rest)
  | 7, 20 => some (.bool false, rest)
  | 7, 21 => some (.bool true, rest)
  | 7, 22 => some (.null, rest)
  | _, _ => none

/-- A value; `fuel` is at least the number of bytes that it may take. -/
def readValue : Nat → List UInt8 → Option (Value × List UInt8)
  | 0, _ => none
  | fuel + 1, bytes => do
    let ((major, n), rest) ← readHead bytes
    readBody (readValue fuel) major n rest

/-- The value that an encoding holds, and nothing after it. -/
def read (bytes : List UInt8) : Option Value :=
  match readValue (bytes.length + 1) bytes with
  | some (value, []) => some value
  | _ => none

/-! ## Heads come back -/

theorem ofBigEndian_append_singleton (bytes : List UInt8) (byte : UInt8) :
    ofBigEndian (bytes ++ [byte]) = 256 * ofBigEndian bytes + byte.toNat := by
  simp [ofBigEndian]

theorem ofBigEndian_bigEndian (width n : Nat) :
    ofBigEndian (bigEndian width n) = n % 256 ^ width := by
  induction width generalizing n with
  | zero => rw [Nat.pow_zero, Nat.mod_one]; rfl
  | succ width ih =>
      rw [bigEndian, ofBigEndian_append_singleton, ih, UInt8.toNat_ofNat',
        show 256 ^ (width + 1) = 256 * 256 ^ width from Nat.pow_succ', Nat.mod_mul]
      omega

theorem ofBigEndian_magnitude (n : Nat) : ofBigEndian (magnitude n) = n := by
  induction n using Nat.strongRecOn with
  | ind n ih =>
      by_cases hn : n = 0
      · rw [hn, Bytes.magnitude_zero]
        rfl
      · have hpos : 0 < n := Nat.pos_of_ne_zero hn
        rw [Bytes.magnitude_of_pos hpos, ofBigEndian_append_singleton, ih (n / 256) (by omega),
          UInt8.toNat_ofNat']
        omega

theorem readBytes_append {n : Nat} {bytes : List UInt8} (h : bytes.length = n)
    (rest : List UInt8) : readBytes n (bytes ++ rest) = some (bytes, rest) := by
  simp [readBytes, ← h]

/-- A head whose argument follows in `2 ^ k` bytes. -/
theorem readHead_long {major k n : Nat} (hmajor : major < 8) (hk : k < 4) (hn : n < 256 ^ 2 ^ k)
    (rest : List UInt8) :
    readHead (UInt8.ofNat (32 * major + (24 + k)) :: (bigEndian (2 ^ k) n ++ rest)) =
      some ((major, n), rest) := by
  have hfirst : (UInt8.ofNat (32 * major + (24 + k))).toNat = 32 * major + (24 + k) := by
    rw [UInt8.toNat_ofNat']
    omega
  have hinfo : (32 * major + (24 + k)) % 32 = 24 + k := by omega
  have htype : (32 * major + (24 + k)) / 32 = major := by omega
  rw [readHead, hfirst, hinfo, htype, if_neg (by omega), if_pos (by omega), Nat.add_sub_cancel_left,
    readBytes_append (Bytes.length_bigEndian _ n), Option.map_some]
  dsimp only
  rw [ofBigEndian_bigEndian, Nat.mod_eq_of_lt hn]

/-- The cases are the widths of the argument. -/
theorem readHead_head {major n : Nat} (hmajor : major < 8) (hn : n < 2 ^ 64) (rest : List UInt8) :
    readHead (head major n ++ rest) = some ((major, n), rest) := by
  unfold head
  split
  · next hsmall =>
      have hfirst : (UInt8.ofNat (32 * major + n)).toNat = 32 * major + n := by
        rw [UInt8.toNat_ofNat']
        omega
      have hinfo : (32 * major + n) % 32 = n := by omega
      have htype : (32 * major + n) / 32 = major := by omega
      rw [List.singleton_append, readHead, hfirst, hinfo, htype, if_pos hsmall]
  split
  · next hbyte => exact readHead_long (k := 0) hmajor (by decide) hbyte rest
  split
  · next htwo => exact readHead_long (k := 1) hmajor (by decide) htwo rest
  split
  · next hfour => exact readHead_long (k := 2) hmajor (by decide) hfour rest
  -- eight bytes are enough for what is left
  · exact readHead_long (k := 3) hmajor (by decide) hn rest

theorem length_head_pos (major n : Nat) : 0 < (head major n).length := by
  unfold head
  repeat' split
  all_goals exact Nat.zero_lt_succ _

/-! ## Values come back -/

/-- The reader finds `x` at the start of the bytes, whatever follows. -/
def Reads {α : Type} (read : List UInt8 → Option (α × List UInt8)) (bytes : List UInt8) (x : α) :
    Prop :=
  ∀ rest, read (bytes ++ rest) = some (x, rest)

theorem readItems_flatMap {α : Type} {read : List UInt8 → Option (α × List UInt8)}
    {print : α → List UInt8} {items : List α} (h : ∀ x ∈ items, Reads read (print x) x) :
    Reads (readItems read items.length) (items.flatMap print) items := by
  induction items with
  | nil => exact fun rest => rfl
  | cons item items ih =>
      obtain ⟨hitem, hitems⟩ := List.forall_mem_cons.1 h
      intro rest
      rw [List.length_cons, List.flatMap_cons, List.append_assoc, readItems, hitem]
      simp only [Option.bind_eq_bind, Option.bind_some, ih hitems rest]
      rfl

theorem fromUTF8?_utf8Bytes (s : String) :
    String.fromUTF8? (Text.utf8Bytes s).toByteArray = some s := by
  have hbytes : (Text.utf8Bytes s).toByteArray = s.toByteArray := String.utf8Encode_toList
  rw [hbytes]
  exact dif_pos s.isValidUTF8

/-- A text is measured in bytes, not in characters. -/
theorem reads_text (s : String) :
    Reads (readText (Text.utf8Bytes s).length) (Text.utf8Bytes s) s := by
  intro rest
  rw [readText, readBytes_append rfl]
  simp only [Option.bind_eq_bind, Option.bind_some, fromUTF8?_utf8Bytes]
  rfl

theorem reads_magnitude {n : Nat} (h : (magnitude n).length < 2 ^ 64) :
    Reads readMagnitude (byteString (magnitude n)) n := by
  intro rest
  rw [byteString, List.append_assoc, readMagnitude, readHead_head (by decide) h]
  simp only [Option.bind_eq_bind, Option.bind_some, if_true, readBytes_append rfl,
    ofBigEndian_magnitude]
  rfl

theorem readValue_head_append {major n : Nat} (hmajor : major < 8) (hn : n < 2 ^ 64) (fuel : Nat)
    (rest : List UInt8) :
    readValue (fuel + 1) (head major n ++ rest) = readBody (readValue fuel) major n rest := by
  rw [readValue, readHead_head hmajor hn]
  rfl

theorem length_magnitude_lt {n : Nat} {tag : List UInt8}
    (h : (tag ++ byteString (magnitude n)).length < 2 ^ 64) : (magnitude n).length < 2 ^ 64 := by
  rw [byteString, List.length_append, List.length_append] at h
  omega

/-- The number stands in the head, or from `2 ^ 64` on in a byte string under a tag. -/
theorem reads_integer {n : Int} (h : (integer n).length < 2 ^ 64) (fuel : Nat) :
    Reads (readValue (fuel + 1)) (integer n) (.int n) := by
  intro rest
  cases n with
  | ofNat n =>
      by_cases hn : n < 0x10000000000000000
      · rw [integer, if_pos hn, readValue_head_append (by decide) hn]
        rfl
      · rw [integer, if_neg hn] at h ⊢
        rw [List.append_assoc, readValue_head_append (by decide) (by decide), readBody,
          reads_magnitude (length_magnitude_lt h) rest]
        rfl
  | negSucc n =>
      have hvalue : -1 - (n : Int) = Int.negSucc n := by omega
      by_cases hn : n < 0x10000000000000000
      · rw [integer, if_pos hn, readValue_head_append (by decide) hn, readBody, hvalue]
      · rw [integer, if_neg hn] at h ⊢
        rw [List.append_assoc, readValue_head_append (by decide) (by decide), readBody,
          reads_magnitude (length_magnitude_lt h) rest]
        simp only [Option.map_some, hvalue]

/-- The encoding of a field. -/
def writeField (field : String × Value) : List UInt8 := text field.1 ++ write field.2

theorem writeItems_eq_flatMap (items : List Value) : writeItems items = items.flatMap write := by
  induction items with
  | nil => rfl
  | cons item items ih => rw [writeItems, ih, List.flatMap_cons]

theorem writeFields_eq_flatMap (fields : List (String × Value)) :
    writeFields fields = fields.flatMap writeField := by
  induction fields with
  | nil => rfl
  | cons field fields ih =>
      obtain ⟨key, value⟩ := field
      rw [writeFields, ih, List.flatMap_cons, writeField]

theorem head_append_ne_nil (major n : Nat) (bytes : List UInt8) : head major n ++ bytes ≠ [] :=
  List.append_ne_nil_of_left_ne_nil (List.ne_nil_of_length_pos (length_head_pos major n)) bytes

theorem integer_ne_nil (n : Int) : integer n ≠ [] := by
  cases n with
  | ofNat n =>
      rw [integer]
      split
      · exact List.ne_nil_of_length_pos (length_head_pos 0 n)
      · exact head_append_ne_nil 6 2 _
  | negSucc n =>
      rw [integer]
      split
      · exact List.ne_nil_of_length_pos (length_head_pos 1 n)
      · exact head_append_ne_nil 6 3 _

theorem write_ne_nil (v : Value) : write v ≠ [] := by
  cases v with
  | null => exact List.cons_ne_nil _ _
  | bool b => cases b <;> exact List.cons_ne_nil _ _
  | int n => exact integer_ne_nil n
  | text s => exact head_append_ne_nil 3 _ _
  | list items => exact head_append_ne_nil 4 _ _
  | object fields => exact head_append_ne_nil 5 _ _

theorem reads_field {read : List UInt8 → Option (Value × List UInt8)} {field : String × Value}
    (hkey : (Text.utf8Bytes field.1).length < 2 ^ 64)
    (hvalue : Reads read (write field.2) field.2) :
    Reads (readField read) (writeField field) field := by
  intro rest
  rw [writeField, text, readField, List.append_assoc, List.append_assoc,
    readHead_head (by decide) hkey]
  simp only [Option.bind_eq_bind, Option.bind_some, if_true, reads_text field.1 _, hvalue rest]
  rfl

/-- A written value comes back, if the fuel is enough for its bytes and their number fits into a
head.  The induction is on the value; there are fewer bytes to each part of a list or a map. -/
theorem reads_write {v : Value} {fuel : Nat} (hfuel : (write v).length < fuel)
    (hsize : (write v).length < 2 ^ 64) : Reads (readValue fuel) (write v) v := by
  induction v using Value.induction generalizing fuel
  all_goals obtain ⟨fuel, rfl⟩ :=
    Nat.exists_eq_succ_of_ne_zero (Nat.ne_of_gt (Nat.zero_lt_of_lt hfuel))
  case null => exact fun rest => rfl
  case bool b =>
    cases b with
    | false => exact fun rest => rfl
    | true => exact fun rest => rfl
  case int n => exact reads_integer hsize fuel
  case text s =>
    intro rest
    have hlength : (Text.utf8Bytes s).length < 2 ^ 64 := by
      rw [write, text, List.length_append] at hsize
      omega
    rw [write, text, List.append_assoc, readValue_head_append (by decide) hlength, readBody,
      reads_text s rest]
    rfl
  case list items ih =>
    intro rest
    rw [write, writeItems_eq_flatMap, List.length_append] at hfuel hsize
    have hhead := length_head_pos 4 items.length
    -- every item takes a byte, so there are fewer items than the bound on the bytes
    have hcount := Value.length_le_length_flatMap_of_ne_nil (l := items) (f := write)
      (fun item _ => write_ne_nil item)
    have hread : ∀ item ∈ items, Reads (readValue fuel) (write item) item := by
      intro item hitem
      have hpart := Value.length_le_length_flatMap (f := write) hitem
      exact ih item hitem (by omega) (by omega)
    rw [write, writeItems_eq_flatMap, List.append_assoc,
      readValue_head_append (by decide) (by omega), readBody, readItems_flatMap hread rest]
    rfl
  case object fields ih =>
    intro rest
    rw [write, writeFields_eq_flatMap, List.length_append] at hfuel hsize
    have hhead := length_head_pos 5 fields.length
    have hcount := Value.length_le_length_flatMap_of_ne_nil (l := fields) (f := writeField)
      (fun field _ => List.append_ne_nil_of_left_ne_nil (head_append_ne_nil 3 _ _) _)
    have hread : ∀ field ∈ fields, Reads (readField (readValue fuel)) (writeField field) field := by
      intro field hfield
      have hpart := Value.length_le_length_flatMap (f := writeField) hfield
      simp only [writeField, text, List.length_append] at hpart
      exact reads_field (by omega) (ih field hfield (by omega) (by omega))
    rw [write, writeFields_eq_flatMap, List.append_assoc,
      readValue_head_append (by decide) (by omega), readBody, readItems_flatMap hread rest]
    rfl

/-- A canonical encoding comes back as the value that was arranged for it. -/
theorem read_document {v : Value} (h : (document v).length < 2 ^ 64) :
    read (document v) = some (v.arrange keyBefore) := by
  have hread := reads_write (v := v.arrange keyBefore) (Nat.lt_succ_self _) h []
  rw [List.append_nil] at hread
  rw [read, document, hread]

-- a head may be longer than it has to be, and a small number may be tagged, too
example : read [0x98, 0x02, 0x18, 0xFF, 0xA1, 0x62, 0xC3, 0xA9, 0xC3, 0x42, 0x01, 0x00] =
    some (.list [.int 255, .object [("é", .int (-257))]]) := by rfl

end PropertyWeaver.Cbor
