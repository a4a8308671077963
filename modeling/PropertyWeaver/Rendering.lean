/-!
# Rendering of types

A type can be printed in two ways: in the short form that its own file would use, which relies on
that file's using directives, or in the fully qualified form, which relies on nothing.
-/

namespace PropertyWeaver

/-- How types are printed. -/
inductive Rendering where
  /-- In short form, with the directives the short form relies on. -/
  | display
  /-- In fully qualified form, without directives. -/
  | qualified
  deriving DecidableEq

namespace Rendering

/-- The name of a rendering. -/
def text : Rendering → String
  | display => "display"
  | qualified => "qualified"

/-- The rendering of that name. -/
def ofText? (s : String) : Option Rendering :=
  if s = "display" then some display
  else if s = "qualified" then some qualified
  else none

@[simp] theorem ofText?_text (r : Rendering) : ofText? r.text = some r := by
  cases r <;> decide

theorem text_of_ofText? {s : String} {r : Rendering} (h : ofText? s = some r) :
    r.text = s := by
  unfold ofText? at h
  split at h
  · next hs => cases h; exact hs.symm
  · split at h
    · next hs => cases h; exact hs.symm
    · cases h

/-- The rendering of that name; types print in short form under a name that is unknown. -/
def named (s : String) : Rendering := (ofText? s).getD display

end Rendering

end PropertyWeaver
