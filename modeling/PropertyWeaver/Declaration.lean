/-!
# Declarations in source files

What a host compiler hands over of a program's text: files with their using directives and type
declarations, and of each declaration its name, its surroundings, its attributes and its base list.

Texts are kept as written. The keyword of a declaration is any text, since it is printed back as it
stands; only `interface` has a meaning of its own.
-/

namespace PropertyWeaver

/-- An attribute and its argument list, if it was written with one. -/
structure Attribute where
  name : String
  arguments : Option (List String)
  deriving DecidableEq

/-- The syntactic forms an entry of a base list can have. -/
inductive BaseForm where
  | identifier
  | qualified
  | generic
  | aliasQualified
  | predefined
  deriving DecidableEq

namespace BaseForm

/-- Every form, in alphabetical order of their names. -/
def all : List BaseForm := [aliasQualified, generic, identifier, predefined, qualified]

/-- The name of a form. -/
def text : BaseForm → String
  | identifier => "identifier"
  | qualified => "qualified"
  | generic => "generic"
  | aliasQualified => "alias_qualified"
  | predefined => "predefined"

/-- The form of that name. -/
def ofText? (s : String) : Option BaseForm := all.find? fun form => form.text == s

@[simp] theorem ofText?_text (f : BaseForm) : ofText? f.text = some f := by
  cases f <;> decide

/-- An entry of this form is a plain or dotted name, so it can name an interface. -/
def isName : BaseForm → Bool
  | identifier => true
  | qualified => true
  | generic => false
  | aliasQualified => false
  | predefined => false

end BaseForm

/-- An entry of a base list, with the name of its form as the host reports it. -/
structure BaseEntry where
  text : String
  form : String
  deriving DecidableEq

/-- A type that encloses another. -/
structure Container where
  name : String
  keyword : String
  deriving DecidableEq

/-- A type declaration. -/
structure Declaration where
  name : String
  keyword : String
  namespacePath : List String
  /-- The enclosing types, outermost first. -/
  containers : List Container
  typeParameters : List String
  attributes : List Attribute
  baseList : List BaseEntry
  deriving DecidableEq

namespace Declaration

/-- The declaration introduces an interface. -/
def isInterface (d : Declaration) : Bool := d.keyword == "interface"

/-- The namespace as one dotted text. -/
def namespaceName (d : Declaration) : String := ".".intercalate d.namespacePath

end Declaration

/-- A source file: its using directives and its type declarations, in order. -/
structure SourceFile where
  path : String
  usings : List String
  declarations : List Declaration
  deriving DecidableEq

end PropertyWeaver
