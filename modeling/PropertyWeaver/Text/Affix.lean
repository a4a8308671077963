/-!
# What a text begins and ends with

`beginsWith` and `endsWith` test the ends of a text, `dropStart` takes characters off the front,
and `without` removes every occurrence of a word.
-/

namespace PropertyWeaver.Text

/-- `s` begins with `w`. -/
def beginsWith (w s : String) : Bool := w.toList.isPrefixOf s.toList

/-- `s` ends with `w`. -/
def endsWith (w s : String) : Bool := w.toList.isSuffixOf s.toList

theorem beginsWith_iff {w s : String} : beginsWith w s = true ↔ w.toList <+: s.toList :=
  List.isPrefixOf_iff_prefix

theorem endsWith_iff {w s : String} : endsWith w s = true ↔ w.toList <:+ s.toList :=
  List.isSuffixOf_iff_suffix

/-- A text that begins with `w` is `w` with something after it. -/
theorem exists_append_of_beginsWith {w s : String} (h : beginsWith w s = true) :
    ∃ rest, s = w ++ rest := by
  obtain ⟨rest, hrest⟩ := beginsWith_iff.1 h
  refine ⟨String.ofList rest, ?_⟩
  rw [← String.toList_inj, String.toList_append, String.toList_ofList, hrest]

theorem beginsWith_append (w rest : String) : beginsWith w (w ++ rest) = true := by
  rw [beginsWith_iff, String.toList_append]
  exact List.prefix_append _ _

/-- A text that ends with `w` is `w` with something before it. -/
theorem exists_append_of_endsWith {w s : String} (h : endsWith w s = true) :
    ∃ start, s = start ++ w := by
  obtain ⟨start, hstart⟩ := endsWith_iff.1 h
  refine ⟨String.ofList start, ?_⟩
  rw [← String.toList_inj, String.toList_append, String.toList_ofList, hstart]

theorem endsWith_append (start w : String) : endsWith w (start ++ w) = true := by
  rw [endsWith_iff, String.toList_append]
  exact List.suffix_append _ _

/-- `s` without its first `n` characters. -/
def dropStart (n : Nat) (s : String) : String := String.ofList (s.toList.drop n)

theorem dropStart_append (w rest : String) : dropStart w.length (w ++ rest) = rest := by
  rw [dropStart, String.toList_append, ← String.length_toList, List.drop_left,
    String.ofList_toList]

/-- `s` without `w` at its front, if it begins with `w`. -/
def dropLeading (w s : String) : String :=
  if beginsWith w s then dropStart w.length s else s

/--
The rest of a text from which `w` is being removed, where `skip` characters still belong to the
occurrence found last.

Occurrences are found from the left and do not overlap.
-/
def withoutFrom (w : List Char) : Nat → List Char → List Char
  | _, [] => []
  | skip + 1, _ :: cs => withoutFrom w skip cs
  | 0, c :: cs =>
    if w.isPrefixOf (c :: cs) then withoutFrom w (w.length - 1) cs
    else c :: withoutFrom w 0 cs

/-- `s` without the occurrences of `w`. -/
def without (w s : String) : String := String.ofList (withoutFrom w.toList 0 s.toList)

end PropertyWeaver.Text
