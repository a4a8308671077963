import PropertyWeaver.Text.Hex
import PropertyWeaver.Value.Basic

/-!
# JSON text

A value is written in printable ASCII with the keys of every object in code point order. The
layout says what stands between a bracket and its contents and between two items: `Layout.line`
keeps everything on one line, `Layout.indented` gives every item a line of its own.

An empty list or object is written without anything between its brackets.
-/

namespace PropertyWeaver.Json

/-! ## Texts and numbers -/

/-- A code unit as an escape of four hexadecimal digits. -/
def escapeUnit (n : Nat) : List Char := '\\' :: 'u' :: Text.hexDigits 4 n

/-- The two code units of a character above `0xFFFF`. -/
def escapePair (n : Nat) : List Char :=
  escapeUnit (0xD800 + (n - 0x10000) / 0x400) ++ escapeUnit (0xDC00 + (n - 0x10000) % 0x400)

/--
A character inside a quoted text.

Quote, backslash and five control characters have short escapes, other printable ASCII characters
stand for themselves, and everything else is written by code units.
-/
def escape (c : Char) : List Char :=
  if c = '"' then ['\\', '"']
  else if c = '\\' then ['\\', '\\']
  else if c = '\n' then ['\\', 'n']
  else if c = '\r' then ['\\', 'r']
  else if c = '\t' then ['\\', 't']
  else if c = '\x0c' then ['\\', 'f']
  else if c = '\x08' then ['\\', 'b']
  else if 0x20 ≤ c.toNat ∧ c.toNat ≤ 0x7E then [c]
  else if c.toNat < 0x10000 then escapeUnit c.toNat
  else escapePair c.toNat

/-- A text in quotes. -/
def quoted (s : String) : List Char := '"' :: s.toList.flatMap escape ++ ['"']

/-- An integer in decimal digits, with a minus sign below zero. -/
def decimal : Int → List Char
  | .ofNat n => Nat.toDigits 10 n
  | .negSucc n => '-' :: Nat.toDigits 10 (n + 1)

/-! ## Layouts -/

/-- What surrounds the items of a list or object, by the depth of nesting. -/
structure Layout where
  /-- What stands after the opening bracket, and, one level out, before the closing one. -/
  lead : Nat → List Char
  /-- What stands between two items. -/
  separator : Nat → List Char

/-- Everything on one line, a comma and a space between items. -/
def Layout.line : Layout := ⟨fun _ => [], fun _ => [',', ' ']⟩

/-- A line break and two spaces of indentation for each level. -/
def lineBreak (depth : Nat) : List Char := '\n' :: List.replicate (2 * depth) ' '

/-- Every item on a line of its own, two spaces deeper than its bracket. -/
def Layout.indented : Layout := ⟨lineBreak, fun depth => ',' :: lineBreak depth⟩

/-! ## Values -/

mutual

/-- A value at the given depth of nesting. -/
def write (layout : Layout) (depth : Nat) : Value → List Char
  | .null => ['n', 'u', 'l', 'l']
  | .bool true => ['t', 'r', 'u', 'e']
  | .bool false => ['f', 'a', 'l', 's', 'e']
  | .int n => decimal n
  | .text s => quoted s
  | .list [] => ['[', ']']
  | .list (item :: items) =>
    '[' :: layout.lead (depth + 1) ++ write layout (depth + 1) item ++
      writeItems layout (depth + 1) items ++ layout.lead depth ++ [']']
  | .object [] => ['\x7b', '\x7d']
  | .object ((key, value) :: fields) =>
    '\x7b' :: layout.lead (depth + 1) ++ quoted key ++ [':', ' '] ++
      write layout (depth + 1) value ++ writeFields layout (depth + 1) fields ++
      layout.lead depth ++ ['\x7d']

/-- The further items of a list, each after a separator. -/
def writeItems (layout : Layout) (depth : Nat) : List Value → List Char
  | [] => []
  | item :: items =>
    layout.separator depth ++ write layout depth item ++ writeItems layout depth items

/-- The further fields of an object, each after a separator. -/
def writeFields (layout : Layout) (depth : Nat) : List (String × Value) → List Char
  | [] => []
  | (key, value) :: fields =>
    layout.separator depth ++ quoted key ++ [':', ' '] ++ write layout depth value ++
      writeFields layout depth fields

end

/-- Keys come in the order of their code points. -/
def keyBefore (a b : String) : Bool := decide (a < b)

/-- A document: the arranged value in a layout, and a line feed. -/
def document (layout : Layout) (value : Value) : String :=
  String.ofList (write layout 0 (value.arrange keyBefore) ++ ['\n'])

end PropertyWeaver.Json
