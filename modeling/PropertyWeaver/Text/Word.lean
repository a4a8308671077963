import PropertyWeaver.Text.WordTable

/-!
# Word characters

A word character is a letter, a number or the low line. It is what a file name may hold besides
the full stop and the hyphen.

## Main results

* `isWordChar_of_isAlphanum`: the class holds every ASCII letter and digit.
-/

namespace PropertyWeaver.Text

/-- Some range of the table holds `n`. -/
def inRanges (table : List (Nat × Nat)) (n : Nat) : Bool :=
  table.any fun range => range.1 ≤ n && n ≤ range.2

/-- ASCII letters, digits and the low line. -/
def isAsciiWordChar (c : Char) : Bool := c.isAlphanum || c == '_'

/-- A letter or a number of any script, or the low line. -/
def isWordChar (c : Char) : Bool :=
  isAsciiWordChar c ||
    (127 < c.toNat &&
      (inRanges lowLetters c.toNat || inRanges basicLetters c.toNat ||
        inRanges highLetters c.toNat || inRanges numbers c.toNat))

theorem isWordChar_of_isAlphanum (c : Char) (h : c.isAlphanum = true) : isWordChar c = true := by
  simp [isWordChar, isAsciiWordChar, h]

end PropertyWeaver.Text
