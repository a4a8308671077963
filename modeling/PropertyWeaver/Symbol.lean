import PropertyWeaver.Declaration
import PropertyWeaver.Rendering

/-!
# Symbols

What a host compiler knows of a type that is declared in the program: its name, what it is, its
members, the attributes it carries, and the files that declare it.
-/

namespace PropertyWeaver

/-- A type printed in both renderings. A keyword such as `int` prints the same in both. -/
structure TypeRef where
  display : String
  qualified : String
  deriving DecidableEq

namespace TypeRef

/-- A type that is a keyword. -/
def keyword (s : String) : TypeRef := ⟨s, s⟩

/-- The type in one rendering. -/
def text (t : TypeRef) : Rendering → String
  | .display => t.display
  | .qualified => t.qualified

end TypeRef

/-- A property of a type. -/
structure Property where
  name : String
  type : TypeRef
  hasSetter : Bool
  isIndexer : Bool
  isStatic : Bool
  deriving DecidableEq

/-- A property that can be implemented by an automatic one: neither an indexer nor static. -/
def Property.isAutomatic (p : Property) : Bool := !p.isIndexer && !p.isStatic

/-- A member of a type. -/
inductive Member where
  | property (p : Property)
  | method (name : String)
  | event (name : String)
  deriving DecidableEq

/-- The property, if the member is one. -/
def Member.property? : Member → Option Property
  | property p => some p
  | method _ => none
  | event _ => none

/-- A declared type as the host knows it. -/
structure Symbol where
  name : String
  namespaceName : String
  kind : String
  members : List Member
  attributes : List String
  /-- The files that declare the type, the leading one first. -/
  declaringFiles : List SourceFile
  deriving DecidableEq

namespace Symbol

/-- The name the type is looked up by. -/
def metadataName (s : Symbol) : String :=
  if s.namespaceName = "" then s.name else s.namespaceName ++ "." ++ s.name

/-- The symbol is an interface. -/
def isInterface (s : Symbol) : Bool := s.kind == "interface"

/-- The properties among the members, in order. -/
def properties (s : Symbol) : List Property := s.members.filterMap Member.property?

end Symbol

end PropertyWeaver
