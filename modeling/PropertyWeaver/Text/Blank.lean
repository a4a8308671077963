/-!
# Blank characters, trimming and words

Host text arrives with whatever spacing its author used. This module fixes what counts as blank
and gives the two ways of ignoring it: `trim` removes it at the ends, `words` cuts at it.

Everything is computed on lists of characters, so that facts about it are facts about
`List.dropWhile` and `List.splitOnP`; the functions on `String` only convert.

## Main results

* `trimEnd_eq_of_getLast`: trimming stops at a last character that is kept.
* `isBlank_of_isWhitespace`: the class holds every character that core calls whitespace.
-/

namespace PropertyWeaver.Text

/-! ## The class of blank characters -/

/--
The characters that separate words: the control characters tab to carriage return and the four
information separators, the space, the next-line control, and the Unicode spaces and line
separators.

Zero-width characters (`U+200B`, `U+2060`, `U+FEFF`) and `U+180E` are not blank.
-/
def isBlank (c : Char) : Bool :=
  let n := c.toNat
  (0x09 ≤ n && n ≤ 0x0D) || (0x1C ≤ n && n ≤ 0x20) || n == 0x85 || n == 0xA0 || n == 0x1680 ||
    (0x2000 ≤ n && n ≤ 0x200A) || n == 0x2028 || n == 0x2029 || n == 0x202F || n == 0x205F ||
    n == 0x3000

theorem isBlank_of_isWhitespace (c : Char) (h : c.isWhitespace = true) : isBlank c = true := by
  simp only [Char.isWhitespace, Bool.or_eq_true, decide_eq_true_eq] at h
  rcases h with ((h | h) | h) | h <;> subst h <;> decide

/-! ## Trimming -/

/-- Without the longest run of `p`-characters at the end. -/
def trimEnd (p : Char → Bool) (cs : List Char) : List Char :=
  (cs.reverse.dropWhile p).reverse

/-- Without the longest runs of `p`-characters at both ends. -/
def trimBoth (p : Char → Bool) (cs : List Char) : List Char :=
  trimEnd p (cs.dropWhile p)

@[simp] theorem trimEnd_nil (p : Char → Bool) : trimEnd p [] = [] := rfl

@[simp] theorem trimBoth_nil (p : Char → Bool) : trimBoth p [] = [] := rfl

/-- A last character that is kept protects everything before it. -/
theorem trimEnd_eq_of_getLast (p : Char → Bool) (cs : List Char) (c : Char) (h : p c = false) :
    trimEnd p (cs ++ [c]) = cs ++ [c] := by
  simp [trimEnd, h]

/-- `s` without blank characters at its ends. -/
def trim (s : String) : String := String.ofList (trimBoth isBlank s.toList)

/-- A text is blank when it holds nothing but blank characters. -/
def isBlankText (s : String) : Bool := s.toList.all isBlank

/-! ## Words -/

/-- The maximal runs of characters that are not blank, in order. -/
def wordLists (cs : List Char) : List (List Char) :=
  (cs.splitOnP isBlank).filter (!·.isEmpty)

/-- The words of a text, in order. -/
def words (s : String) : List String := (wordLists s.toList).map String.ofList

/-- The words of a text with one space between neighbours. -/
def squeeze (s : String) : String := " ".intercalate (words s)

/-- The words of a text with nothing between them. -/
def compact (s : String) : String := String.join (words s)

end PropertyWeaver.Text
