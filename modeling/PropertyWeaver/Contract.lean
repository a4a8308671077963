import PropertyWeaver.Import
import PropertyWeaver.Script

/-!
# Contracts

A contract is what an interface asks of a type that implements it, ready to be printed: the
properties that the type must have, the directives their types rely on, and the names by which the
interface can be mentioned.

## Main results

* `using_mem_requiredUsings`: printed in short form, a contract imports the interface's namespace.
-/

namespace PropertyWeaver

/-- A property that is implemented by an automatic one. -/
structure AutoProperty where
  type : String
  name : String
  hasSetter : Bool
  deriving DecidableEq

namespace AutoProperty

/-- The automatic form of a property, its type printed in one rendering. -/
def ofProperty (r : Rendering) (p : Property) : AutoProperty :=
  ⟨p.type.text r, p.name, p.hasSetter⟩

/-- The declaration of the property, without indentation. -/
def line (visibility : String) (p : AutoProperty) : String :=
  visibility ++ " " ++ p.type ++ " " ++ p.name ++
    (if p.hasSetter then " \x7b get; set; \x7d" else " \x7b get; \x7d")

end AutoProperty

/-- What an interface asks of a type that implements it. -/
structure Contract where
  /-- The interface's name as the reference has it. -/
  name : String
  namespaceName : String
  metadataName : String
  importDirectives : List String
  properties : List AutoProperty
  deriving DecidableEq

namespace Contract

/-! ## From symbols -/

/-- The using lines of the leading file that declares the symbol. -/
def directivesOf (symbol : Symbol) : List String :=
  (symbol.declaringFiles.head?.map SourceFile.usingLines).getD []

/--
The contract of an interface under the name of a reference.

Types print in the rendering, in short form if there is none. Directives are copied only where a
rendering asks for the short form.
-/
def ofSymbol (reference : String) (symbol : Symbol) (rendering : Option Rendering) : Contract where
  name := reference
  namespaceName := symbol.namespaceName
  metadataName := symbol.metadataName
  importDirectives := if rendering = some .display then directivesOf symbol else []
  properties :=
    (symbol.properties.filter Property.isAutomatic).map
      (AutoProperty.ofProperty (rendering.getD .display))

/-- The contract of an interface, observing the token once for each of its properties. -/
def project (reference : String) (symbol : Symbol) (rendering : Option Rendering) :
    Script Contract := do
  Script.observeTimes .project symbol.properties.length
  return ofSymbol reference symbol rendering

/-! ## Mentioning the interface -/

/-- The interface's name within its namespace. -/
def simpleName (c : Contract) : String :=
  if c.namespaceName = "" then c.metadataName
  else Text.dropStart (c.namespaceName.length + 1) c.metadataName

/-- The name by which generated text mentions the interface. -/
def implementedName (c : Contract) : Rendering → String
  | .qualified => "global::" ++ c.metadataName
  | .display => c.simpleName

/-! ## Using directives -/

/-- The beginning of a directive that holds for the whole program. -/
def globalUsingStart : String := "global using "

/-- The directive that imports a namespace. -/
def usingOf (namespaceName : String) : String := "using " ++ namespaceName ++ ";"

/-- The distinct directives that are copied: those that do not hold for the program anyway. -/
def copiedUsings (c : Contract) : List String :=
  (c.importDirectives.filter fun line => !Text.beginsWith globalUsingStart line).eraseDups

/--
The directives a generated file needs: the copied ones, and one for the interface's own namespace
unless it has none or the directive is there.
-/
def requiredUsings (c : Contract) : Rendering → List String
  | .qualified => []
  | .display =>
    if c.namespaceName = "" || c.copiedUsings.contains (usingOf c.namespaceName) then
      c.copiedUsings
    else c.copiedUsings ++ [usingOf c.namespaceName]

theorem using_mem_requiredUsings {c : Contract} (h : c.namespaceName ≠ "") :
    usingOf c.namespaceName ∈ c.requiredUsings .display := by
  simp only [requiredUsings]
  split
  · next hc => simpa [h] using hc
  · simp

end Contract

end PropertyWeaver
