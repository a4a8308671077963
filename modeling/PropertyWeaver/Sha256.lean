import PropertyWeaver.Bytes
import PropertyWeaver.Text.Hex
import PropertyWeaver.Text.Utf8

/-!
# SHA-256

The 256-bit secure hash of a byte string: the message is padded to whole blocks of 64 bytes, and
every block is mixed into a state of eight words by 64 rounds. Each round takes one word of the
block's message schedule and one of the round constants.

## Main results

* `length_padded`: the padded message is a whole number of blocks.
* `length_schedule`: a schedule has one word for every round.
-/

namespace PropertyWeaver.Sha256

/-! ## Padding -/

/-- How many zero bytes stand between the end mark and the length of a message of `n` bytes. -/
def zeroCount (n : Nat) : Nat := (119 - n % 64) % 64

/-- The message, the end mark, zeros, and the message's length in bits. -/
def padded (message : List UInt8) : List UInt8 :=
  message ++ 0x80 :: List.replicate (zeroCount message.length) 0 ++
    Bytes.bigEndian 8 (8 * message.length)

theorem length_padded (message : List UInt8) : (padded message).length % 64 = 0 := by
  simp only [padded, List.length_append, List.length_cons, List.length_replicate,
    Bytes.length_bigEndian, zeroCount]
  omega

/-! ## The message schedule -/

/-- A word turned right by `n` bits. -/
def rotate (n : UInt32) (w : UInt32) : UInt32 := (w >>> n) ||| (w <<< (32 - n))

/-- The words of a byte string, four bytes each and most significant first. -/
def wordsOf : List UInt8 → List UInt32
  | a :: b :: c :: d :: rest =>
    (a.toUInt32 <<< 24 ||| b.toUInt32 <<< 16 ||| c.toUInt32 <<< 8 ||| d.toUInt32) :: wordsOf rest
  | _ => []

/-- The next word of a schedule whose words so far are given newest first. -/
def nextWord (newest : List UInt32) : UInt32 :=
  let late := newest.getD 1 0
  let early := newest.getD 14 0
  (rotate 17 late ^^^ rotate 19 late ^^^ late >>> 10) + newest.getD 6 0 +
    (rotate 7 early ^^^ rotate 18 early ^^^ early >>> 3) + newest.getD 15 0

/-- A schedule, newest word first, with `n` more words. -/
def extend : Nat → List UInt32 → List UInt32
  | 0, newest => newest
  | n + 1, newest => extend n (nextWord newest :: newest)

@[simp] theorem length_extend (n : Nat) (newest : List UInt32) :
    (extend n newest).length = newest.length + n := by
  induction n generalizing newest with
  | zero => rfl
  | succ n ih => simp [extend, ih]; omega

/-- The schedule of a block of sixteen words. -/
def schedule (block : List UInt32) : List UInt32 := (extend 48 block.reverse).reverse

theorem length_schedule {block : List UInt32} (h : block.length = 16) :
    (schedule block).length = 64 := by
  simp [schedule, h]

/-! ## Rounds -/

/-- The eight words that blocks are mixed into. -/
structure State where
  a : UInt32
  b : UInt32
  c : UInt32
  d : UInt32
  e : UInt32
  f : UInt32
  g : UInt32
  h : UInt32

/-- The first 32 bits of the fractional parts of the square roots of the first eight primes. -/
def initialState : State :=
  ⟨0x6a09e667, 0xbb67ae85, 0x3c6ef372, 0xa54ff53a,
    0x510e527f, 0x9b05688c, 0x1f83d9ab, 0x5be0cd19⟩

/-- The first 32 bits of the fractional parts of the cube roots of the first 64 primes. -/
def roundConstants : List UInt32 := [
  0x428a2f98, 0x71374491, 0xb5c0fbcf, 0xe9b5dba5, 0x3956c25b, 0x59f111f1, 0x923f82a4, 0xab1c5ed5,
  0xd807aa98, 0x12835b01, 0x243185be, 0x550c7dc3, 0x72be5d74, 0x80deb1fe, 0x9bdc06a7, 0xc19bf174,
  0xe49b69c1, 0xefbe4786, 0x0fc19dc6, 0x240ca1cc, 0x2de92c6f, 0x4a7484aa, 0x5cb0a9dc, 0x76f988da,
  0x983e5152, 0xa831c66d, 0xb00327c8, 0xbf597fc7, 0xc6e00bf3, 0xd5a79147, 0x06ca6351, 0x14292967,
  0x27b70a85, 0x2e1b2138, 0x4d2c6dfc, 0x53380d13, 0x650a7354, 0x766a0abb, 0x81c2c92e, 0x92722c85,
  0xa2bfe8a1, 0xa81a664b, 0xc24b8b70, 0xc76c51a3, 0xd192e819, 0xd6990624, 0xf40e3585, 0x106aa070,
  0x19a4c116, 0x1e376c08, 0x2748774c, 0x34b0bcb5, 0x391c0cb3, 0x4ed8aa4a, 0x5b9cca4f, 0x682e6ff3,
  0x748f82ee, 0x78a5636f, 0x84c87814, 0x8cc70208, 0x90befffa, 0xa4506ceb, 0xbef9a3f7, 0xc67178f2]

/-- One round, with the sum of its constant and its schedule word. -/
def round (s : State) (input : UInt32) : State :=
  let choice := (s.e &&& s.f) ^^^ (~~~s.e &&& s.g)
  let majority := (s.a &&& s.b) ^^^ (s.a &&& s.c) ^^^ (s.b &&& s.c)
  let first := s.h + (rotate 6 s.e ^^^ rotate 11 s.e ^^^ rotate 25 s.e) + choice + input
  let second := (rotate 2 s.a ^^^ rotate 13 s.a ^^^ rotate 22 s.a) + majority
  ⟨first + second, s.a, s.b, s.c, s.d + first, s.e, s.f, s.g⟩

/-- The word-wise sum of two states. -/
def State.add (s t : State) : State :=
  ⟨s.a + t.a, s.b + t.b, s.c + t.c, s.d + t.d, s.e + t.e, s.f + t.f, s.g + t.g, s.h + t.h⟩

/-- The eight words in order. -/
def State.words (s : State) : List UInt32 := [s.a, s.b, s.c, s.d, s.e, s.f, s.g, s.h]

/-- `s` after the block has been mixed in. -/
def compress (s : State) (block : List UInt32) : State :=
  s.add ((List.zipWith (· + ·) roundConstants (schedule block)).foldl round s)

/-- `s` after the first `n` blocks of `words` have been mixed in. -/
def absorb : Nat → State → List UInt32 → State
  | 0, s, _ => s
  | n + 1, s, words => absorb n (compress s (words.take 16)) (words.drop 16)

/-- The state that all blocks of the padded message leave. -/
def digestState (message : List UInt8) : State :=
  let blocks := padded message
  absorb (blocks.length / 64) initialState (wordsOf blocks)

/-- The hash of a message as 64 lowercase hexadecimal digits. -/
def hexDigest (message : List UInt8) : String :=
  String.ofList ((digestState message).words.flatMap fun word => Text.hexDigits 8 word.toNat)

/-- The hash of the UTF-8 encoding of a text. -/
def ofText (s : String) : String := hexDigest (Text.utf8Bytes s)

end PropertyWeaver.Sha256
