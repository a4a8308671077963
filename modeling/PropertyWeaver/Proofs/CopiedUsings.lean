import PropertyWeaver.Proofs.FirstOccurrence
import PropertyWeaver.Proofs.Usings

/-!
# Using lines import what their file imports

The directives of a file are read twice over, once for the paths that they bring in and once for the
lines that are copied into generated files.  A generated file has the lines only, and they bring in
what the directives do: a using line is its directive trimmed and collapsed, with semicolons behind
it (`trimEnd_usingLine`), and neither an equals sign nor the words of a directive are lost by that.
So the path of the line is the collapsed path (`importPath_usingLine`), and it is the same path if
there is no blank character in it.

## Main results

* `usingLine_usingLine` — a using line is its own using line.
* `importPath_usingLine` — what a using line brings in.
* `SourceFile.copied_imports` — what a file with the using lines alone imports.
-/

namespace PropertyWeaver

open Text (isBlank trim trimBoth trimEnd collapse collapsed squeeze wordLists)

/-! ## Using lines -/

/-- A using line is the directive, trimmed and collapsed, or that with a semicolon behind it. -/
theorem usingLine_cases (directive : String) :
    squeeze directive = "" ∧ usingLine directive = "" ∨
      Text.endsWith ";" (squeeze directive) = true ∧ usingLine directive = squeeze directive ∨
      squeeze directive ≠ "" ∧ usingLine directive = squeeze directive ++ ";" := by
  unfold usingLine
  by_cases hempty : squeeze directive = ""
  · exact Or.inl ⟨hempty, by simp [hempty]⟩
  · by_cases hend : Text.endsWith ";" (squeeze directive) = true
    · exact Or.inr (Or.inl ⟨hend, by simp [hend]⟩)
    · exact Or.inr (Or.inr ⟨hempty, by simp [hempty, hend]⟩)

/-- A using line ends with a semicolon. -/
theorem exists_usingLine_eq {directive : String} (h : usingLine directive ≠ "") :
    ∃ text, usingLine directive = text ++ ";" := by
  rcases usingLine_cases directive with ⟨-, hline⟩ | ⟨hend, hline⟩ | ⟨-, hline⟩
  · exact absurd hline h
  · rw [hline]
    exact Text.exists_append_of_endsWith hend
  · exact ⟨squeeze directive, hline⟩

theorem trim_squeeze (s : String) : trim (squeeze s) = squeeze s := by
  rw [Text.squeeze_eq_collapse, Text.trim_collapse, Text.trim_trim]

theorem trim_usingLine (directive : String) : trim (usingLine directive) = usingLine directive := by
  rcases usingLine_cases directive with ⟨-, hline⟩ | ⟨-, hline⟩ | ⟨hne, hline⟩
  · rw [hline]
    rfl
  · rw [hline, trim_squeeze]
  · have hflush : Text.Flush (squeeze directive) := by
      rw [← trim_squeeze]
      exact Text.flush_trim _
    rw [hline]
    refine Text.trim_of_padded (Text.padded_self _) ⟨fun c hc => ?_, fun c hc => ?_⟩
    · obtain ⟨first, rest, hcons⟩ :=
        List.exists_cons_of_ne_nil (fun hnil => hne (String.toList_inj.1 hnil))
      have hfirst := hflush.first
      rw [hcons] at hfirst
      rw [String.toList_append, hcons] at hc
      exact hfirst c hc
    · rw [String.toList_append, List.getLast?_append] at hc
      cases hc
      decide

theorem collapse_usingLine (directive : String) :
    collapse (usingLine directive) = usingLine directive := by
  have hsqueeze : collapse (squeeze directive) = squeeze directive := by
    rw [Text.squeeze_eq_collapse, Text.collapse_collapse]
  rcases usingLine_cases directive with ⟨-, hline⟩ | ⟨-, hline⟩ | ⟨-, hline⟩
  · rw [hline]
    rfl
  · rw [hline, hsqueeze]
  · have hkept : collapsed false ((squeeze directive).toList ++ [';']) =
        collapsed false (squeeze directive).toList ++ [';'] :=
      Text.collapsed_append_cons_of_kept (by decide)
    have hcollapsed : collapsed false (squeeze directive).toList = (squeeze directive).toList := by
      rw [← String.toList_inj, collapse, String.toList_ofList] at hsqueeze
      exact hsqueeze
    have hsemicolon : (squeeze directive ++ ";").toList = (squeeze directive).toList ++ [';'] :=
      String.toList_append
    rw [hline, collapse, hsemicolon, hkept, hcollapsed, ← hsemicolon, String.ofList_toList]

theorem squeeze_usingLine (directive : String) :
    squeeze (usingLine directive) = usingLine directive := by
  rw [Text.squeeze_eq_collapse, trim_usingLine, collapse_usingLine]

/-- A using line is its own using line. -/
theorem usingLine_usingLine (directive : String) :
    usingLine (usingLine directive) = usingLine directive := by
  rw [usingLine, squeeze_usingLine]
  by_cases hempty : usingLine directive = ""
  · rw [hempty]
    rfl
  · obtain ⟨text, htext⟩ := exists_usingLine_eq hempty
    have hend : Text.endsWith ";" (usingLine directive) = true := by
      rw [htext]
      exact Text.endsWith_append text ";"
    simp [hend]

/-! ## What using lines bring in -/

/-- Semicolons at the end aside, a using line is its directive, trimmed and collapsed. -/
theorem trimEnd_usingLine (directive : String) :
    trimEnd (· == ';') (trimBoth isBlank (usingLine directive).toList) =
      collapsed false (trimEnd (· == ';') (trimBoth isBlank directive.toList)) := by
  have hblank : ∀ c, isBlank c = true → (c == ';') = (' ' == ';') := by
    intro c hc
    have hne : c ≠ ';' := by
      rintro rfl
      exact absurd hc (by decide)
    simpa using hne
  have htrim : ∀ s, trimBoth isBlank s = (trim (String.ofList s)).toList := by
    intro s
    rw [trim, String.toList_ofList, String.toList_ofList]
  have hsqueeze : trimEnd (· == ';') (squeeze directive).toList =
      collapsed false (trimEnd (· == ';') (trim directive).toList) := by
    rw [Text.squeeze_eq_collapse, collapse, String.toList_ofList, Text.trimEnd_collapsed hblank]
  rw [htrim, htrim, String.ofList_toList, String.ofList_toList, trim_usingLine, ← hsqueeze]
  rcases usingLine_cases directive with ⟨hempty, hline⟩ | ⟨-, hline⟩ | ⟨-, hline⟩
  · rw [hline, hempty]
  · rw [hline]
  · have hsemicolon : ";".toList = [';'] := rfl
    rw [hline, String.toList_append, hsemicolon, Text.trimEnd_append_of_pos _ (by decide)]

theorem isBlank_of_mem_lastWord {words : List (List Char)}
    (h : ∀ word ∈ words, ∀ c ∈ word, isBlank c = false) {c : Char} (hc : c ∈ lastWord words) :
    isBlank c = false := by
  match words, h, hc with
  | _ :: word :: more, h, hc =>
      rw [lastWord, List.getLastD_eq_getLast?, List.getLast?_eq_some_getLast (List.cons_ne_nil _ _),
        Option.getD_some] at hc
      exact h _ (List.mem_cons_of_mem _ (List.getLast_mem _)) c hc
  | [_], _, hc => cases hc
  | [], _, hc => cases hc

/-- A using line brings in what its directive does, collapsed. -/
theorem importPath_usingLine (directive : String) :
    importPath (usingLine directive) = collapse (importPath directive) := by
  have hdivides : ∀ c, isBlank c = true → (c != '=') = true := by
    intro c hc
    have hne : c ≠ '=' := by
      rintro rfl
      exact absurd hc (by decide)
    simpa using hne
  unfold importPath
  simp only [trimEnd_usingLine]
  generalize trimEnd (· == ';') (trimBoth isBlank directive.toList) = body
  rw [Text.dropWhile_collapsed hdivides, collapse, String.toList_ofList]
  cases hbody : body.dropWhile (· != '=') with
  | nil =>
      have hword : ∀ c ∈ lastWord (wordLists body), isBlank c = false := fun c hc =>
        isBlank_of_mem_lastWord (fun _ hword _ => Text.isBlank_of_mem_wordLists hword) hc
      simp only [collapsed, Text.wordLists_collapsed, Text.collapsed_of_forall hword]
  | cons c target =>
      have hc : isBlank c = false := by
        by_contra hblank
        have hnot := List.head?_dropWhile_not (· != '=') body
        rw [hbody] at hnot
        simp only [List.head?_cons] at hnot
        rw [hdivides c (by simpa using hblank)] at hnot
        cases hnot
      simp only [Text.collapsed_cons_of_kept hc, Text.trimBoth_collapsed]

/-! ## Files with using lines -/

namespace SourceFile

/-- The file with its using lines for directives. -/
def copied (file : SourceFile) : SourceFile := { file with usings := file.usingLines }

theorem usingLine_of_mem_usingLines {file : SourceFile} {line : String}
    (h : line ∈ file.usingLines) : usingLine line = line ∧ ∃ text, line = text ++ ";" := by
  rw [usingLines, List.mem_eraseDups, List.mem_filter, List.mem_map] at h
  obtain ⟨⟨directive, -, rfl⟩, hne⟩ := h
  exact ⟨usingLine_usingLine directive, exists_usingLine_eq (by simpa using hne)⟩

theorem nodup_usingLines (file : SourceFile) : file.usingLines.Nodup := nodup_eraseDups _

theorem usingLines_copied (file : SourceFile) : file.copied.usingLines = file.usingLines := by
  have hmap : file.usingLines.map usingLine = file.usingLines := by
    conv_rhs => rw [← List.map_id file.usingLines]
    exact List.map_congr_left fun line hline => (usingLine_of_mem_usingLines hline).1
  have hfilter : file.usingLines.filter (· != "") = file.usingLines := by
    rw [List.filter_eq_self]
    intro line hline
    exact (List.mem_filter.1 (List.mem_eraseDups.1 hline)).2
  rw [usingLines, copied, hmap, hfilter, eraseDups_of_nodup file.nodup_usingLines]

/-- Lines that are repeated bring in paths that are repeated, and blank lines bring in nothing. -/
theorem importPaths_copied (file : SourceFile) :
    file.copied.importPaths = (file.importPaths.map collapse).eraseDups := by
  have hlines : ∀ lines : List String, ((lines.filter (· != "")).map importPath).filter (· != "") =
      (lines.map importPath).filter (· != "") := by
    intro lines
    have hblank : importPath "" = "" := rfl
    rw [List.filter_map, List.filter_filter, List.filter_map]
    apply congrArg
    apply List.filter_congr
    intro line _
    by_cases hline : line = ""
    · simp [hline, hblank]
    · simp [hline]
  have hpaths : ((file.usings.map usingLine).map importPath).filter (· != "") =
      ((file.usings.map importPath).filter (· != "")).map collapse := by
    have hnonempty : ((· != "") ∘ collapse) = (· != "") := by
      funext path
      rw [Function.comp_apply, bne, bne, Bool.not_inj_iff, Bool.eq_iff_iff, beq_iff_eq, beq_iff_eq,
        Text.collapse_eq_empty_iff]
    have hread : importPath ∘ usingLine = collapse ∘ importPath := funext importPath_usingLine
    rw [List.map_map, hread, ← List.map_map, List.filter_map, hnonempty]
  rw [importPaths, copied, usingLines, eraseDups_filter, eraseDups_map_eraseDups,
    ← eraseDups_filter, hlines, hpaths, importPaths, eraseDups_map_eraseDups]

/-- The using lines of a file are distinct, end with a semicolon each, and are what is read of them
again.  A file that has them for directives imports what the file does, with one space for each run
of blank characters in a path, and each path once; so it imports the same if there are no blank
characters in the paths. -/
theorem copied_imports (file : SourceFile) :
    file.copied.usingLines = file.usingLines ∧ file.usingLines.Nodup ∧
      (∀ line ∈ file.usingLines, ∃ text, line = text ++ ";") ∧
      file.copied.importPaths = (file.importPaths.map collapse).eraseDups ∧
      ((∀ path ∈ file.importPaths, ∀ c ∈ path.toList, isBlank c = false) →
        file.copied.importPaths = file.importPaths) := by
  refine ⟨file.usingLines_copied, file.nodup_usingLines, ?_, file.importPaths_copied, ?_⟩
  · intro line hline
    exact (usingLine_of_mem_usingLines hline).2
  · intro hkept
    have hsame : file.importPaths.map collapse = file.importPaths := by
      conv_rhs => rw [← List.map_id file.importPaths]
      exact List.map_congr_left fun path hpath => Text.collapse_of_forall (hkept path hpath)
    have hnodup : file.importPaths.Nodup := nodup_eraseDups _
    rw [file.importPaths_copied, hsame, eraseDups_of_nodup hnodup]

/-- A file whose directives are written with all sorts of blank characters and semicolons, and with
one namespace imported in three ways. -/
def untidy : SourceFile where
  path := "Untidy.cs"
  usings := ["  using\t System ", "using System;;", "", "using System ;",
    "global using static\u00A0A.B", "using Json = System.Text.Json ; ", ";"]
  declarations := []

theorem copied_imports_untidy :
    (∀ path ∈ untidy.importPaths, ∀ c ∈ path.toList, isBlank c = false) ∧
      untidy.copied.importPaths = ["System", "A.B", "System.Text.Json"] := by
  have hall : (untidy.importPaths.all fun path => path.toList.all (!isBlank ·)) = true := by
    decide +kernel
  have hkept : ∀ path ∈ untidy.importPaths, ∀ c ∈ path.toList, isBlank c = false := by
    simpa only [List.all_eq_true, Bool.not_eq_true'] using hall
  refine ⟨hkept, ?_⟩
  rw [(copied_imports untidy).2.2.2.2 hkept]
  decide +kernel

end SourceFile

end PropertyWeaver
