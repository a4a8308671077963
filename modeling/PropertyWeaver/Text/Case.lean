/-!
# Lower case for comparison with ASCII names

Option names and flag words are ASCII and are compared without regard to case. For that, only the
characters whose lower case holds an ASCII character matter: the capitals `A` to `Z`, the kelvin
sign `U+212A`, whose lower case is `k`, and the dotted capital I `U+0130`, whose lower case is an
`i` and a combining dot. Every other character is left as it is: neither it nor its lower case
can agree with a character of an ASCII name.
-/

namespace PropertyWeaver.Text

/-- The lower case of one character, as far as it can hold an ASCII character. -/
def lowerChar (c : Char) : List Char :=
  if c == '\u212A' then ['k']
  else if c == '\u0130' then ['i', '\u0307']
  else [c.toLower]

/-- `s` with every character in lower case, as far as a comparison with ASCII text can tell. -/
def lower (s : String) : String := String.ofList (s.toList.flatMap lowerChar)

end PropertyWeaver.Text
