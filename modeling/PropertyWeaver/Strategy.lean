import PropertyWeaver.Rendering

/-!
# Strategies

A strategy fixes where a type names the interfaces it wants implemented, which interfaces qualify,
what the generated part of the type says, and how types print unless the settings decide.
-/

namespace PropertyWeaver

/-- What a marker attribute may be put on. -/
inductive MarkerTarget where
  /-- Classes and structs. -/
  | type
  /-- Interfaces. -/
  | interface
  deriving DecidableEq

namespace MarkerTarget

/-- The name of a target. -/
def text : MarkerTarget → String
  | type => "type"
  | interface => "interface"

/-- The target of that name. -/
def ofText? (s : String) : Option MarkerTarget :=
  if s = "type" then some type
  else if s = "interface" then some interface
  else none

@[simp] theorem ofText?_text (t : MarkerTarget) : ofText? t.text = some t := by
  cases t <;> decide

/-- The usage targets that the marker attribute declares. -/
def usage : MarkerTarget → String
  | type => "AttributeTargets.Class | AttributeTargets.Struct"
  | interface => "AttributeTargets.Interface"

end MarkerTarget

/-- Where the interfaces of a type are read from. -/
inductive Discovery where
  /-- From the arguments of its marker attribute. -/
  | markerArguments
  /-- From its base list. -/
  | baseList
  deriving DecidableEq

/-- A way of deciding which interfaces a type gets members for. -/
inductive Strategy where
  /-- Marker arguments name the interfaces; types print in short form. -/
  | byName
  /-- Marker arguments name the interfaces; types print fully qualified. -/
  | byNameQualified
  /-- The base list names the interfaces, and those that carry the marker qualify. -/
  | inherited
  deriving DecidableEq

namespace Strategy

/-- Every strategy. -/
def all : List Strategy := [byName, byNameQualified, inherited]

/-- The name of a strategy. -/
def text : Strategy → String
  | byName => "by_name"
  | byNameQualified => "by_name_qualified"
  | inherited => "inherited"

/-- The strategy of that name. -/
def ofText? (s : String) : Option Strategy := all.find? fun strategy => strategy.text == s

@[simp] theorem ofText?_text (s : Strategy) : ofText? s.text = some s := by
  cases s <;> decide

/-- The rendering used unless the settings name one. -/
def defaultRendering : Strategy → Rendering
  | byName => .display
  | byNameQualified => .qualified
  | inherited => .display

/-- Where the interfaces of a type are read from. -/
def discovery : Strategy → Discovery
  | byName => .markerArguments
  | byNameQualified => .markerArguments
  | inherited => .baseList

/-- What the marker attribute goes on. -/
def markerTarget : Strategy → MarkerTarget
  | byName => .type
  | byNameQualified => .type
  | inherited => .interface

/--
The generated part of a type names the interface in its base list.

A type whose own base list already names the interface need not say it again.
-/
def restatesInterface : Strategy → Bool
  | byName => true
  | byNameQualified => true
  | inherited => false

end Strategy

end PropertyWeaver
