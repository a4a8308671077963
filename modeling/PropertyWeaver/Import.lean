import PropertyWeaver.Declaration
import PropertyWeaver.Text.Affix
import PropertyWeaver.Text.Blank

/-!
# Imports of a file

A file's using directives are read twice over: as *import paths*, the namespaces or types they
bring in, against which short names are resolved, and as *using lines*, normalised directives that
can be copied into another file.
-/

namespace PropertyWeaver

/-! ## Import paths -/

/-- The last word of a directive that has more than one, since the first is its keyword. -/
def lastWord : List (List Char) → List Char
  | _ :: word :: more => (word :: more).getLastD []
  | _ => []

/--
What a directive brings in: the text after the first equals sign of an alias, otherwise the last
word. A directive of fewer than two words brings in nothing.
-/
def importPath (directive : String) : String :=
  let body := Text.trimEnd (· == ';') (Text.trimBoth Text.isBlank directive.toList)
  String.ofList <|
    match body.dropWhile (· != '=') with
    | _ :: target => Text.trimBoth Text.isBlank target
    | [] => lastWord (Text.wordLists body)

/-! ## Using lines -/

/-- A directive with single spaces between its words and a semicolon at its end. -/
def usingLine (directive : String) : String :=
  let line := Text.squeeze directive
  if line = "" || Text.endsWith ";" line then line else line ++ ";"

namespace SourceFile

/-- The distinct import paths of a file, in order. -/
def importPaths (file : SourceFile) : List String :=
  ((file.usings.map importPath).filter (· != "")).eraseDups

/-- The distinct using lines of a file, in order. -/
def usingLines (file : SourceFile) : List String :=
  ((file.usings.map usingLine).filter (· != "")).eraseDups

end SourceFile

end PropertyWeaver
