import PropertyWeaver.Fault
import PropertyWeaver.Text.Affix
import PropertyWeaver.Text.Identifier

/-!
# Settings

A draft is what a build asks for; settings are a draft that passed every check. The checks are made
in a fixed order and the first that fails is the fault. What they establish is kept in the type, so
whoever holds settings need not check again.

## Main results

* `check_draft`: settings, taken back to a draft, pass the checks unchanged.
* `draft_of_check`: checking changes nothing but the type.
-/

namespace PropertyWeaver

/-! ## Visibility -/

/-- Who may use a generated property. -/
inductive Visibility where
  | everyone
  | sameProject
  | derivedOrSameProject
  deriving DecidableEq

namespace Visibility

/-- The modifier that a generated property carries. -/
def text : Visibility → String
  | everyone => "public"
  | sameProject => "internal"
  | derivedOrSameProject => "protected internal"

/-- The visibility written with that modifier. -/
def ofText? (s : String) : Option Visibility :=
  if s = "public" then some everyone
  else if s = "internal" then some sameProject
  else if s = "protected internal" then some derivedOrSameProject
  else none

@[simp] theorem ofText?_text (v : Visibility) : ofText? v.text = some v := by
  cases v <;> decide

theorem text_of_ofText? {s : String} {v : Visibility} (h : ofText? s = some v) : v.text = s := by
  unfold ofText? at h
  split at h
  · next hs => cases h; exact hs.symm
  · split at h
    · next hs => cases h; exact hs.symm
    · split at h
      · next hs => cases h; exact hs.symm
      · cases h

end Visibility

/-! ## Drafts and settings -/

/-- What a build asks for, unchecked. -/
structure Draft where
  attributeNamespace : String := "AttributeGenerator"
  attributeName : String := "AutoImplement"
  fileSuffix : String := ".g.cs"
  visibility : String := "public"
  /-- The rendering of types; absent when the strategy is to decide. -/
  rendering : Option String := none
  /-- Generated files open with a comment that says so. -/
  header : Bool := true
  deriving DecidableEq

/-- What a build asks for, checked. -/
structure Settings where
  attributeNamespace : String
  attributeName : String
  fileSuffix : String
  visibility : Visibility
  rendering : Option Rendering
  header : Bool
  namespace_dotted : Text.isDottedIdentifier attributeNamespace = true
  name_identifier : Text.isIdentifier attributeName = true
  name_not_suffixed : Text.endsWith "Attribute" attributeName = false
  suffix_source : Text.endsWith ".cs" fileSuffix = true

namespace Draft

/-- The rendering a draft asks for, if it asks for one. -/
def checkRendering : Option String → Except Fault (Option Rendering)
  | none => .ok none
  | some name =>
    match Rendering.ofText? name with
    | some rendering => .ok (some rendering)
    | none => .error (.unknownRendering name)

/-- The visibility a draft asks for. -/
def checkVisibility (name : String) : Except Fault Visibility :=
  match Visibility.ofText? name with
  | some visibility => .ok visibility
  | none => .error (.unknownVisibility name)

/-- The settings a draft asks for, or the first check it fails. -/
def check (d : Draft) : Except Fault Settings :=
  if hns : Text.isDottedIdentifier d.attributeNamespace = true then
    if hname : Text.isIdentifier d.attributeName = true then
      if hbare : Text.endsWith "Attribute" d.attributeName = false then
        if hsource : Text.endsWith ".cs" d.fileSuffix = true then
          match checkVisibility d.visibility with
          | .error fault => .error fault
          | .ok visibility =>
            match checkRendering d.rendering with
            | .error fault => .error fault
            | .ok rendering =>
              .ok ⟨d.attributeNamespace, d.attributeName, d.fileSuffix, visibility, rendering,
                d.header, hns, hname, hbare, hsource⟩
        else .error (.suffixNotSource d.fileSuffix)
      else .error (.nameSuffixed d.attributeName)
    else .error (.nameNotIdentifier d.attributeName)
  else .error (.namespaceNotDotted d.attributeNamespace)

end Draft

namespace Settings

/-- The draft that asks for these settings. -/
def draft (s : Settings) : Draft where
  attributeNamespace := s.attributeNamespace
  attributeName := s.attributeName
  fileSuffix := s.fileSuffix
  visibility := s.visibility.text
  rendering := s.rendering.map Rendering.text
  header := s.header

theorem check_draft (s : Settings) : s.draft.check = .ok s := by
  obtain ⟨ns, name, suffix, visibility, rendering, header, hns, hname, hbare, hsource⟩ := s
  have hv : Draft.checkVisibility visibility.text = .ok visibility := by
    simp [Draft.checkVisibility]
  have hr : Draft.checkRendering (rendering.map Rendering.text) = .ok rendering := by
    cases rendering <;> simp [Draft.checkRendering]
  simp [Draft.check, draft, hns, hname, hbare, hsource, hv, hr]

theorem draft_of_check {d : Draft} {s : Settings} (h : d.check = .ok s) : s.draft = d := by
  obtain ⟨ns, name, suffix, visibility, rendering, header⟩ := d
  simp only [Draft.check] at h
  split at h <;> try cases h
  split at h <;> try cases h
  split at h <;> try cases h
  split at h <;> try cases h
  split at h
  · cases h
  · next v hv =>
    split at h
    · cases h
    · next r hr =>
      cases h
      have hvis : v.text = visibility := by
        simp only [Draft.checkVisibility] at hv
        split at hv
        · next v' hv' => cases hv; exact Visibility.text_of_ofText? hv'
        · cases hv
      have hren : r.map Rendering.text = rendering := by
        cases rendering with
        | none => simp only [Draft.checkRendering] at hr; cases hr; rfl
        | some name =>
          simp only [Draft.checkRendering] at hr
          split at hr
          · next r' hr' => cases hr; simp [Rendering.text_of_ofText? hr']
          · cases hr
      simp [draft, hvis, hren]

/-! ## The marker attribute -/

/-- The class that declares the marker attribute. -/
def className (s : Settings) : String := s.attributeName ++ "Attribute"

/-- The full name of that class. -/
def metadataName (s : Settings) : String := s.attributeNamespace ++ "." ++ s.className

/-- The names under which an attribute list may mention the marker. -/
def spellings (s : Settings) : List String :=
  [s.attributeName, s.className, s.attributeNamespace ++ "." ++ s.attributeName, s.metadataName]

/-- The distinct spellings in code point order. -/
def sortedSpellings (s : Settings) : List String :=
  s.spellings.eraseDups.mergeSort fun a b => decide (a ≤ b)

/-! ## Rendering -/

/-- How types print under a strategy. -/
def renderingFor (s : Settings) (strategy : Strategy) : Rendering :=
  s.rendering.getD strategy.defaultRendering

/--
How types print under the strategy of that name.

The name is not looked up when the settings decide.
-/
def renderingUnder (s : Settings) (strategy : String) : Except Fault Rendering :=
  match s.rendering, Strategy.ofText? strategy with
  | some rendering, _ => .ok rendering
  | none, some known => .ok known.defaultRendering
  | none, none => .error (.missing strategy)

end Settings

end PropertyWeaver
