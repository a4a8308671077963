/-!
# Numbers as bytes

Numbers are laid out most significant byte first: `bigEndian` in a fixed width, `magnitude` in the
fewest bytes that hold the number.

## Main results

* `length_bigEndian`: the width is exact.
* `magnitude_zero`, `magnitude_of_pos`: the equations of `magnitude`.
-/

namespace PropertyWeaver.Bytes

/-- The last `width` bytes of `n`. -/
def bigEndian : Nat → Nat → List UInt8
  | 0, _ => []
  | width + 1, n => bigEndian width (n / 256) ++ [UInt8.ofNat n]

@[simp] theorem length_bigEndian (width n : Nat) : (bigEndian width n).length = width := by
  induction width generalizing n with
  | zero => rfl
  | succ width ih => simp [bigEndian, ih]

/-- The bytes of `n` without leading zeros; none for zero. -/
def magnitude (n : Nat) : List UInt8 :=
  if n = 0 then [] else magnitude (n / 256) ++ [UInt8.ofNat n]
termination_by n

@[simp] theorem magnitude_zero : magnitude 0 = [] := by rw [magnitude]; simp

theorem magnitude_of_pos {n : Nat} (h : 0 < n) :
    magnitude n = magnitude (n / 256) ++ [UInt8.ofNat n] := by
  rw [magnitude, if_neg (by omega)]

end PropertyWeaver.Bytes
