import PropertyWeaver.Contract
import PropertyWeaver.GeneratedFile
import PropertyWeaver.Settings.Basic
import PropertyWeaver.TargetType

/-!
# Layout of a generated file

A file that implements an interface is a list of lines: the prelude with its comment, using
directives and namespace, then the partial declarations of the enclosing types, each one level
deeper than the last, the partial declaration of the target with one property on each line, and the
closing braces from the inside out.

## Main results

* `join_eq`: a text is made of its lines, each with a line feed after it.
-/

namespace PropertyWeaver.Layout

/-! ## Lines -/

/-- Four spaces for each level. -/
def indent (depth : Nat) (line : String) : String :=
  String.ofList (List.replicate (4 * depth) ' ') ++ line

/-- The opening brace of a declaration's body. -/
def openBrace : String := "\x7b"

/-- The closing brace of a declaration's body. -/
def closeBrace : String := "\x7d"

/-- The comment that tells tools that nobody wrote the file. -/
def headerComment : String := "// <auto-generated/>"

/-- The header comment, if the settings want one. -/
def headerLines (s : Settings) : List String := if s.header then [headerComment] else []

/-- The lines, with an empty line after them if there are any. -/
def paragraph : List String → List String
  | [] => []
  | line :: lines => line :: lines ++ [""]

/-- The namespace that holds for the whole file. -/
def namespaceLines (name : String) : List String :=
  if name = "" then [] else ["namespace " ++ name ++ ";"]

/-! ## Enclosing types -/

/-- The first line of an enclosing type. -/
def containerHeader (c : Container) : String := "partial " ++ c.keyword ++ " " ++ c.name

/-- The opening lines of the enclosing types, the first of them at `depth`. -/
def openings : Nat → List Container → List String
  | _, [] => []
  | depth, c :: cs =>
    indent depth (containerHeader c) :: indent depth openBrace :: openings (depth + 1) cs

/-- The closing lines of `depth` enclosing types, innermost first. -/
def closings : Nat → List String
  | 0 => []
  | depth + 1 => indent depth closeBrace :: closings depth

/-! ## The target -/

/-- The type parameters after a type's name. -/
def parameterList : List String → String
  | [] => ""
  | parameters => "<" ++ ", ".intercalate parameters ++ ">"

/-- The first line of the target's partial declaration, with its base clause if it has one. -/
def typeHeader (t : TargetType) (c : Contract) (r : Rendering) (restates : Bool) : String :=
  "partial " ++ t.keyword ++ " " ++ t.name ++ parameterList t.typeParameters ++
    if restates then " : " ++ c.implementedName r else ""

/-- The target's partial declaration at `depth`. -/
def body (depth : Nat) (header visibility : String) (properties : List AutoProperty) :
    List String :=
  indent depth header :: indent depth openBrace ::
    (properties.map fun p => indent (depth + 1) (p.line visibility)) ++ [indent depth closeBrace]

/-! ## Whole files -/

/-- Everything before the declarations. -/
def prelude (s : Settings) (t : TargetType) (c : Contract) (r : Rendering) : List String :=
  headerLines s ++ paragraph (c.requiredUsings r) ++ paragraph (namespaceLines t.namespaceName)

/-- The lines of the file. -/
def lines (s : Settings) (t : TargetType) (c : Contract) (r : Rendering) (restates : Bool) :
    List String :=
  let depth := t.containers.length
  prelude s t c r ++ openings 0 t.containers ++
    body depth (typeHeader t c r restates) s.visibility.text c.properties ++ closings depth

/-- The text made of lines, each ended by a line feed. -/
def join (lines : List String) : String := "\n".intercalate (lines ++ [""])

/-- A text is made of its lines, each with a line feed after it. -/
theorem join_eq (lines : List String) : join lines = String.join (lines.map (· ++ "\n")) := by
  unfold join
  induction lines with
  | nil => simp
  | cons line lines ih =>
    rw [List.cons_append, String.intercalate_cons_of_ne_nil (by simp), ih, List.map_cons,
      String.join_cons]

theorem join_append (xs ys : List String) : join (xs ++ ys) = join xs ++ join ys := by
  rw [join_eq, join_eq, join_eq, List.map_append, String.join_append]

theorem join_cons (line : String) (lines : List String) :
    join (line :: lines) = line ++ "\n" ++ join lines := by
  rw [join_eq, join_eq, List.map_cons, String.join_cons]

/-- The text of the file. -/
def source (s : Settings) (t : TargetType) (c : Contract) (r : Rendering) (restates : Bool) :
    String :=
  join (lines s t c r restates)

end PropertyWeaver.Layout

namespace PropertyWeaver

/-- The file that implements a contract for a target, under its short name. -/
def GeneratedFile.implementing (s : Settings) (t : TargetType) (c : Contract) (r : Rendering)
    (restates : Bool) : GeneratedFile where
  hintName := FileName.hint t.name c.name s.fileSuffix
  source := Layout.source s t c r restates
  targetName := t.name
  targetNamespace := t.namespaceName
  interfaceName := c.name
  kind := implementationKind

end PropertyWeaver
