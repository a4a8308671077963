import PropertyWeaver.Import

/-!
# Target types

A target type is a declaration that names interfaces to implement, reduced to what generation needs
of it: where it stands, what encloses it, the references it makes, and the import paths of its file.
-/

namespace PropertyWeaver

/-- A declaration whose references are to be implemented. -/
structure TargetType where
  namespaceName : String
  name : String
  references : List String
  imports : List String
  keyword : String
  /-- The enclosing types, outermost first. -/
  containers : List Container
  typeParameters : List String
  deriving DecidableEq

namespace TargetType

/-- A declaration of a file, with the references it makes. -/
def ofDeclaration (d : Declaration) (file : SourceFile) (references : List String) :
    TargetType where
  namespaceName := d.namespaceName
  name := d.name
  references := references
  imports := file.importPaths
  keyword := d.keyword
  containers := d.containers
  typeParameters := d.typeParameters

/-- The names of the enclosing types and of the type itself, with full stops between them. -/
def nestedName (t : TargetType) : String :=
  ".".intercalate (t.containers.map Container.name ++ [t.name])

/-- The name of the type for people. -/
def displayName (t : TargetType) : String :=
  if t.namespaceName = "" then t.nestedName else t.namespaceName ++ "." ++ t.nestedName

/-- The name of the type with the number of its parameters, so that arities stay apart. -/
def metadataName (t : TargetType) : String :=
  if t.typeParameters = [] then t.displayName
  else t.displayName ++ "`" ++ String.ofList (Nat.toDigits 10 t.typeParameters.length)

end TargetType

end PropertyWeaver
