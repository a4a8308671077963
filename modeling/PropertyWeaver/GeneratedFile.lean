import PropertyWeaver.Sha256
import PropertyWeaver.Text.Affix
import PropertyWeaver.Text.Word

/-!
# Generated files

A generated file has a name, by which the host keeps it apart from others, a text, and a note of
what it was generated for.

## Main results

* `isSafe_of_mem_stem`: the stem of a file name is safe in every file system.
-/

namespace PropertyWeaver

/-- A file that a pass generates. -/
structure GeneratedFile where
  hintName : String
  source : String
  targetName : String
  targetNamespace : String
  interfaceName : String
  /-- What the file holds, as reports name it. -/
  kind : String
  deriving DecidableEq

namespace GeneratedFile

/-- The kind of the file that declares the marker attribute. -/
def markerKind : String := "marker"

/-- The kind of a file that implements an interface. -/
def implementationKind : String := "implementation"

/-- The file implements an interface. -/
def isImplementation (f : GeneratedFile) : Bool := f.kind == implementationKind

/-- The hash of the file's text. -/
def sha256 (f : GeneratedFile) : String := Sha256.ofText f.source

end GeneratedFile

/-! ## File names -/

namespace FileName

/-- A character that may stand in a file name. -/
def isSafe (c : Char) : Bool := Text.isWordChar c || c == '.' || c == '-'

/-- A text with every character that may not stand in a file name replaced by a low line. -/
def sanitize (s : String) : String :=
  String.ofList (s.toList.map fun c => if isSafe c then c else '_')

/-- The name of a file without its suffix: the target and the interface, joined by a low line. -/
def stem (target interface : String) : String :=
  sanitize (target ++ "_" ++ Text.without "global::" interface)

/-- The name of the file that implements `interface` for `target`. -/
def hint (target interface suffix : String) : String := stem target interface ++ suffix

theorem isSafe_of_mem_sanitize {s : String} {c : Char} (h : c ∈ (sanitize s).toList) :
    isSafe c = true := by
  simp only [sanitize, String.toList_ofList, List.mem_map] at h
  obtain ⟨d, -, rfl⟩ := h
  by_cases hd : isSafe d = true
  · rw [if_pos hd]; exact hd
  · rw [if_neg hd]; decide

theorem isSafe_of_mem_stem {target interface : String} {c : Char}
    (h : c ∈ (stem target interface).toList) : isSafe c = true :=
  isSafe_of_mem_sanitize h

end FileName

end PropertyWeaver
