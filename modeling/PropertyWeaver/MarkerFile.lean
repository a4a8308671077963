import PropertyWeaver.Layout

/-!
# The marker attribute's file

Every pass declares the marker attribute in a file of its own, so that the program can use it
without a reference to a library.
-/

namespace PropertyWeaver

namespace Layout

/-- The declaration of the marker attribute for one kind of target. -/
def markerLines (s : Settings) (target : MarkerTarget) : List String :=
  headerLines s ++ [
    "using System;",
    "",
    "namespace " ++ s.attributeNamespace ++ ";",
    "",
    "[AttributeUsage(" ++ target.usage ++ ", Inherited = false, AllowMultiple = false)]",
    "sealed class " ++ s.className ++ " : Attribute",
    "\x7b",
    "    public string[] InterfacesNames \x7b get; \x7d",
    "",
    "    public " ++ s.className ++ "(params string[] interfacesNames)",
    "    \x7b",
    "        InterfacesNames = interfacesNames;",
    "    \x7d",
    "\x7d"]

end Layout

/-- The file that declares the marker attribute. -/
def GeneratedFile.marker (s : Settings) (target : MarkerTarget) : GeneratedFile where
  hintName := s.className ++ s.fileSuffix
  source := Layout.join (Layout.markerLines s target)
  targetName := s.className
  targetNamespace := s.attributeNamespace
  interfaceName := ""
  kind := markerKind

/-- The marker file for the target of that name. -/
def GeneratedFile.markerFor (s : Settings) (target : String) : Except Fault GeneratedFile :=
  match MarkerTarget.ofText? target with
  | some known => .ok (marker s known)
  | none => .error (.missing target)

end PropertyWeaver
