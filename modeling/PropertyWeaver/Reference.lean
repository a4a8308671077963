import PropertyWeaver.Settings.Basic
import PropertyWeaver.Text.Blank

/-!
# References to interfaces

The names of interfaces that a declaration asks for: the arguments of its marker attribute, or the
plain and dotted names in its base list. Reading them needs no symbol.

## Main results

* `isMarkedCandidate_iff`, `isBaseListCandidate_iff`: which declarations are worth reading.
-/

namespace PropertyWeaver

/-! ## The marker attribute -/

/-- The alias of the root namespace. -/
def globalAlias : String := "global::"

/-- An attribute of that name is the marker. -/
def Settings.isMarker (s : Settings) (name : String) : Bool :=
  s.spellings.contains (Text.dropLeading globalAlias (Text.trim name))

namespace Declaration

/-- The first attribute that is the marker. -/
def marker? (s : Settings) (d : Declaration) : Option Attribute :=
  d.attributes.find? fun a => s.isMarker a.name

/-- The declaration can name interfaces by its marker. -/
def isMarkedCandidate (s : Settings) (d : Declaration) : Bool :=
  !d.isInterface && (d.marker? s).isSome

/-- The declaration can name interfaces in its base list. -/
def isBaseListCandidate (d : Declaration) : Bool := !d.isInterface && !d.baseList.isEmpty

theorem isMarkedCandidate_iff {s : Settings} {d : Declaration} :
    d.isMarkedCandidate s = true ↔
      d.isInterface = false ∧ ∃ a ∈ d.attributes, s.isMarker a.name = true := by
  simp [isMarkedCandidate, marker?]

theorem isBaseListCandidate_iff {d : Declaration} :
    d.isBaseListCandidate = true ↔ d.isInterface = false ∧ d.baseList ≠ [] := by
  simp [isBaseListCandidate]

end Declaration

/-! ## Marker arguments -/

/-- The operator that names a symbol in an argument. -/
def nameOperator : String := "nameof("

/-- A text without the mark of a verbatim string at its front. -/
def dropVerbatimMark : List Char → List Char
  | '@' :: '"' :: rest => '"' :: rest
  | text => text

/--
The name a marker argument stands for: the operand of the name operator, or the contents of a
regular or verbatim string, or the expression itself. A blank argument is kept as written.
-/
def argumentName (expression : String) : String :=
  let text := Text.trim expression
  if Text.isBlankText expression then expression
  else if Text.beginsWith nameOperator text && Text.endsWith ")" text then
    Text.trim (String.ofList (text.toList.drop nameOperator.length).dropLast)
  else
    String.ofList (Text.trimBoth (· == '"') (dropVerbatimMark text.toList))

/-- The names in the argument list of the declaration's marker. -/
def Declaration.markerReferences (s : Settings) (d : Declaration) : List String :=
  (((d.marker? s).bind Attribute.arguments).getD []).map argumentName

/-! ## Base lists -/

/--
The interface name an entry stands for: its text without blanks, if it is a plain or dotted name.

A form that does not exist is a fault of the host.
-/
def BaseEntry.reference (entry : BaseEntry) : Except Fault (Option String) :=
  match BaseForm.ofText? entry.form with
  | none => .error (.unknownBaseForm entry.form entry.text)
  | some form => .ok (if form.isName then some (Text.compact entry.text) else none)

/-- The interface names in a base list, or the fault of its first bad entry. -/
def baseReferences : List BaseEntry → Except Fault (List String)
  | [] => .ok []
  | entry :: entries =>
    match entry.reference with
    | .error fault => .error fault
    | .ok name =>
      match baseReferences entries with
      | .error fault => .error fault
      | .ok names => .ok (name.toList ++ names)

/-! ## By discovery -/

namespace Discovery

/-- The declaration is worth reading. -/
def isCandidate (s : Settings) (d : Declaration) : Discovery → Bool
  | markerArguments => d.isMarkedCandidate s
  | baseList => d.isBaseListCandidate

/-- The interface names a declaration asks for, as written and in order. -/
def references (s : Settings) (d : Declaration) : Discovery → Except Fault (List String)
  | markerArguments => .ok (d.markerReferences s)
  | baseList => baseReferences d.baseList

end Discovery

end PropertyWeaver
