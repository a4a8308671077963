import PropertyWeaver.Reference
import PropertyWeaver.Symbol

/-!
# Generators

A generator is a strategy under settings. It decides which declarations are worth reading, which
interfaces qualify, and how types print.
-/

namespace PropertyWeaver

/-- A symbol carries the marker, matched by its simple name. -/
def Settings.isMarked (s : Settings) (attributes : List String) : Bool :=
  attributes.any fun name => name == s.className || name == s.attributeName

/-- A strategy under settings. -/
structure Generator where
  strategy : Strategy
  settings : Settings

namespace Generator

/-- The generator of a strategy given by name. The settings are judged first. -/
def ofNames (strategy : String) (settings : Except Fault Settings) : Except Fault Generator :=
  match settings with
  | .error fault => .error fault
  | .ok settings =>
    match Strategy.ofText? strategy with
    | none => .error (.unknownStrategy strategy)
    | some known => .ok ⟨known, settings⟩

/-- How types print. -/
def rendering (g : Generator) : Rendering := g.settings.renderingFor g.strategy

/-- The declaration is worth reading. -/
def isCandidate (g : Generator) (d : Declaration) : Bool :=
  g.strategy.discovery.isCandidate g.settings d

/-- The references a declaration makes. -/
def references (g : Generator) (d : Declaration) : Except Fault (List String) :=
  g.strategy.discovery.references g.settings d

/-- The interface qualifies: always when a marker argument names it, else by carrying the marker. -/
def accepts (g : Generator) (symbol : Symbol) : Bool :=
  match g.strategy.discovery with
  | .markerArguments => true
  | .baseList => g.settings.isMarked symbol.attributes

end Generator

end PropertyWeaver
