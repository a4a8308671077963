import PropertyWeaver.Declaration
import PropertyWeaver.OrderedMap
import PropertyWeaver.Strategy
import PropertyWeaver.Value.Basic

/-!
# Faults and diagnostics

A fault is the cause for which an operation gives no result. A diagnostic is what a host shows of
it: a category with a stable code, a message, an optional hint, and the texts that caused it.

A reference that does not resolve is not a fault: it is skipped, and the pass goes on.
-/

namespace PropertyWeaver

/-! ## Diagnostics -/

/-- What a diagnostic is about. -/
inductive Category where
  /-- Settings or a strategy name that are not acceptable. -/
  | validation
  /-- A pass stopped at the host's request. -/
  | cancelled
  /-- Input from the host that has no meaning. -/
  | hostContract
  deriving DecidableEq

/-- The stable code of a category. -/
def Category.code : Category → String
  | .validation => "E_VALIDATION"
  | .cancelled => "E_CANCELLED"
  | .hostContract => "E_HOST_CONTRACT"

/-- A message to the host. -/
structure Diagnostic where
  category : Category
  message : String
  hint : Option String
  context : OrderedMap String String
  deriving DecidableEq

namespace Diagnostic

/-- The message on one line, followed by the hint if there is something in it. -/
def text (d : Diagnostic) : String :=
  match d.hint with
  | none => d.message
  | some hint => if hint = "" then d.message else d.message ++ " " ++ hint

/-- The diagnostic as a structured value; a hint is a field even when it is empty. -/
def toValue (d : Diagnostic) : Value :=
  .object <|
    [("code", .text d.category.code), ("message", .text d.message),
      ("context", .object (d.context.map fun entry => (entry.1, .text entry.2)))] ++
    (d.hint.map fun hint => ("hint", .text hint)).toList

end Diagnostic

/-! ## Faults -/

/-- The cause for which an operation gives no result. -/
inductive Fault where
  /-- The marker's namespace is not a dotted identifier. -/
  | namespaceNotDotted (attributeNamespace : String)
  /-- The marker's name is not an identifier. -/
  | nameNotIdentifier (attributeName : String)
  /-- The marker's name already ends as an attribute class does. -/
  | nameSuffixed (attributeName : String)
  /-- The suffix does not make a file of source text. -/
  | suffixNotSource (fileSuffix : String)
  /-- No visibility has that name. -/
  | unknownVisibility (visibility : String)
  /-- No rendering has that name. -/
  | unknownRendering (rendering : String)
  /-- A build option names no setting. -/
  | unknownOption (key : String)
  /-- The value of a build option is no truth value. -/
  | notFlag (key value : String)
  /-- No strategy has that name. -/
  | unknownStrategy (strategy : String)
  /-- The host cancelled the pass, and the operation was the first to notice. -/
  | cancelled (operation : String)
  /-- A base-list entry is reported under a form that does not exist. -/
  | unknownBaseForm (form text : String)
  /-- A table or record has no entry of that name. -/
  | missing (name : String)
  deriving DecidableEq

namespace Fault

/-- What the host is told; a missing entry has no diagnostic besides its name. -/
def diagnostic? : Fault → Option Diagnostic
  | namespaceNotDotted attributeNamespace => some
    { category := .validation
      message := "Attribute namespace must be a dotted identifier path."
      hint := none
      context := [("attribute_namespace", attributeNamespace)] }
  | nameNotIdentifier attributeName => some
    { category := .validation
      message := "Attribute name must be a plain identifier."
      hint := some "Drop the 'Attribute' suffix and any namespace qualifier."
      context := [("attribute_name", attributeName)] }
  | nameSuffixed attributeName => some
    { category := .validation
      message := "Attribute name must not carry the 'Attribute' suffix."
      hint := none
      context := [("attribute_name", attributeName)] }
  | suffixNotSource fileSuffix => some
    { category := .validation
      message := "Generated file suffix must end with '.cs'."
      hint := none
      context := [("generated_suffix", fileSuffix)] }
  | unknownVisibility visibility => some
    { category := .validation
      message := "Unsupported member visibility."
      hint := none
      context := [("visibility", visibility)] }
  | unknownRendering rendering => some
    { category := .validation
      message := "Unsupported type rendering policy."
      hint := some "Use 'display' or 'qualified'."
      context := [("type_rendering", rendering)] }
  | unknownOption key => some
    { category := .validation
      message := "Unknown generator option."
      hint := none
      context := [("option", key)] }
  | notFlag key value => some
    { category := .validation
      message := "Boolean generator option has an invalid value."
      hint := some "Use 'true' or 'false'."
      context := [("option", key), ("value", value)] }
  | unknownStrategy strategy => some
    { category := .validation
      message := "Unsupported generation strategy."
      hint := some ("Use one of: " ++ ", ".intercalate (Strategy.all.map Strategy.text) ++ ".")
      context := [("strategy", strategy)] }
  | cancelled operation => some
    { category := .cancelled
      message := "Generation was cancelled by the host."
      hint := some "Partial output is discarded; the host re-runs the pass on its next edit."
      context := [("operation", operation)] }
  | unknownBaseForm form text => some
    { category := .hostContract
      message := "Unknown base-list entry kind supplied by host."
      hint := some ("Map the host syntax node to one of: " ++
        ", ".intercalate (BaseForm.all.map BaseForm.text) ++ ".")
      context := [("kind", form), ("text", text)] }
  | missing _ => none

/-- The fault on one line. -/
def text : Fault → String
  | missing name => name
  | fault => (fault.diagnostic?.map Diagnostic.text).getD ""

end Fault

end PropertyWeaver
