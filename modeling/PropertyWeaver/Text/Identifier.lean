/-!
# Identifiers of settings

A setting that names a type or a namespace is an ASCII identifier: a letter or low line, then
letters, digits and low lines. One line feed after the last character is tolerated.
-/

namespace PropertyWeaver.Text

/-- An ASCII letter or the low line. -/
def isIdentifierStart (c : Char) : Bool := c.isAlpha || c == '_'

/-- An ASCII letter, digit or the low line. -/
def isIdentifierRest (c : Char) : Bool := c.isAlphanum || c == '_'

/-- Identifier characters up to the end, or up to one final line feed. -/
def isIdentifierTail : List Char → Bool
  | [] => true
  | ['\n'] => true
  | c :: cs => isIdentifierRest c && isIdentifierTail cs

/-- A start character and a tail. -/
def isIdentifierList : List Char → Bool
  | [] => false
  | c :: cs => isIdentifierStart c && isIdentifierTail cs

/-- `s` is one identifier. -/
def isIdentifier (s : String) : Bool := isIdentifierList s.toList

/-- `s` is a sequence of identifiers with a full stop between neighbours. -/
def isDottedIdentifier (s : String) : Bool := (s.toList.splitOn '.').all isIdentifierList

end PropertyWeaver.Text
