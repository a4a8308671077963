import PropertyWeaver.Proofs.AcceptedSettings
import PropertyWeaver.Proofs.FileNames
import PropertyWeaver.Proofs.Hosts

/-!
# Names that are safe in every file system

A host writes generated files under their names, so a name must not lead out of its directory or
break a listing.  The name of a file that implements an interface is made of names and of a
reference, which may hold any text; every character that is not safe is replaced.  The marker
attribute's file is named after its class, and nothing is replaced there, because the checks let
only identifiers pass.

The suffix comes from the settings and is appended as it is, so a name is safe exactly if the suffix
is.  The settings ask of a suffix only how it ends.

## Main results

* `FileName.Safe.separates` — a safe name has no separator and no blank character in it.
* `Generator.hintName_stem_suffix` — every name is a safe stem with the suffix after it.
-/

namespace PropertyWeaver

/-! ## Safe names -/

namespace FileName

/-- Only word characters, full stops and hyphens stand in the name. -/
def Safe (name : String) : Prop := ∀ c ∈ name.toList, isSafe c = true

instance {name : String} : Decidable (Safe name) :=
  decidable_of_iff (name.toList.all isSafe = true) List.all_eq_true

theorem safe_append_iff {s t : String} : Safe (s ++ t) ↔ Safe s ∧ Safe t := by
  simp only [Safe, String.toList_append, List.forall_mem_append]

theorem safe_stem (target interface : String) : Safe (stem target interface) :=
  fun _ => isSafe_of_mem_stem

/-- The code points of blank characters are few enough to look at each of them. -/
theorem isSafe_eq_false_of_isBlank {c : Char} (h : Text.isBlank c = true) : isSafe c = false := by
  have hblank : c.toNat ∈ List.range' 0x09 5 ++ List.range' 0x1C 5 ++ [0x85, 0xA0, 0x1680] ++
      List.range' 0x2000 11 ++ [0x2028, 0x2029, 0x202F, 0x205F, 0x3000] := by
    simp only [Text.isBlank, Bool.or_eq_true, Bool.and_eq_true, decide_eq_true_eq,
      beq_iff_eq] at h
    simp only [List.mem_append, List.mem_range'_1, List.mem_cons, List.not_mem_nil, or_false]
    omega
  have hrejected : ∀ n ∈ List.range' 0x09 5 ++ List.range' 0x1C 5 ++ [0x85, 0xA0, 0x1680] ++
      List.range' 0x2000 11 ++ [0x2028, 0x2029, 0x202F, 0x205F, 0x3000],
      isSafe (Char.ofNat n) = false := by decide +kernel
  rw [← Char.ofNat_toNat c]
  exact hrejected _ hblank

/-- A safe name neither names a directory or a drive nor has a gap in it. -/
theorem Safe.separates {name : String} (h : Safe name) {c : Char} (hc : c ∈ name.toList) :
    c ∉ ['/', '\\', ':'] ∧ Text.isBlank c = false := by
  have hsafe := h c hc
  constructor
  · intro hmem
    simp only [List.mem_cons, List.not_mem_nil, or_false] at hmem
    rcases hmem with rfl | rfl | rfl <;> exact absurd hsafe (by decide)
  · rw [← Bool.not_eq_true]
    intro hblank
    rw [isSafe_eq_false_of_isBlank hblank] at hsafe
    cases hsafe

theorem isSafe_of_mem_of_isPlainIdentifier {cs : List Char} (h : Text.IsPlainIdentifier cs)
    {c : Char} (hc : c ∈ cs) : isSafe c = true := by
  have hword : ∀ d : Char, d.isAlphanum = true ∨ d = '_' → isSafe d = true := by
    rintro d (hd | rfl)
    · simp [isSafe, Text.isWordChar_of_isAlphanum d hd]
    · decide
  cases cs with
  | nil => exact h.elim
  | cons d cs =>
      obtain ⟨hd, hcs⟩ := h
      rcases List.mem_cons.1 hc with rfl | hc
      · exact hword c (hd.imp_left fun halpha => by simp [Char.isAlphanum, halpha])
      · exact hword c (hcs c hc)

end FileName

/-- An identifier is safe, whatever the settings are; only a line feed after it is not. -/
theorem Settings.safe_className {s : Settings} (h : Text.OnOneLine s.attributeName) :
    FileName.Safe s.className := by
  have hplain : Text.IsPlainIdentifier s.attributeName.toList :=
    Text.isPlainIdentifier_iff.2 ⟨Text.isIdentifierList_iff.1 s.name_identifier, h⟩
  rw [Settings.className, FileName.safe_append_iff]
  exact ⟨fun _ => FileName.isSafe_of_mem_of_isPlainIdentifier hplain, by decide⟩

/-! ## Names of generated files -/

/-- The name is a safe stem with the suffix after it. -/
def FileName.IsStemmed (suffix name : String) : Prop :=
  ∃ stem, Safe stem ∧ name = stem ++ suffix

/-- Of a stemmed name, only the suffix can be unsafe. -/
theorem FileName.IsStemmed.safe_iff {suffix name : String} (h : IsStemmed suffix name) :
    Safe name ↔ Safe suffix := by
  obtain ⟨stem, hstem, rfl⟩ := h
  rw [safe_append_iff]
  exact and_iff_right hstem

namespace Generator

variable (g : Generator)

theorem isStemmed_of_mem_filesFor {taken : List String} {ps : List (TargetType × Contract)}
    {f : GeneratedFile} (h : f ∈ g.filesFor taken ps) :
    FileName.IsStemmed g.settings.fileSuffix f.hintName := by
  obtain ⟨target, interface, heq⟩ :=
    g.exists_stem_of_mem_filesFor (List.mem_map_of_mem h)
  exact ⟨FileName.stem target interface, FileName.safe_stem target interface, heq⟩

theorem isStemmed_markerFile (h : Text.OnOneLine g.settings.attributeName) :
    FileName.IsStemmed g.settings.fileSuffix g.markerFile.hintName :=
  ⟨g.settings.className, Settings.safe_className h, rfl⟩

/-- In a pass that returns, whatever host it runs on, the name of every file that implements an
interface is a safe stem with the suffix after it, whatever the names and references are; so is the
marker attribute's, if its name has no line feed in it.  Such a name is safe exactly if the suffix
is, and then it has no separator, no colon and no blank character. -/
theorem hintName_stem_suffix (host : Host) (report : Report)
    (h : (g.runOn host .idle).result = .ok report) (f : GeneratedFile) (hf : f ∈ report.files)
    (hline : f.isImplementation = true ∨ Text.OnOneLine g.settings.attributeName) :
    FileName.IsStemmed g.settings.fileSuffix f.hintName ∧
      (FileName.Safe f.hintName ↔ FileName.Safe g.settings.fileSuffix) ∧
      (FileName.Safe g.settings.fileSuffix → ∀ x ∈ f.hintName.toList,
        x ∉ ['/', '\\', ':'] ∧ Text.isBlank x = false) := by
  have hstemmed : FileName.IsStemmed g.settings.fileSuffix f.hintName := by
    rw [g.files_of_generate h, List.mem_cons] at hf
    rcases hf with rfl | hf
    · rcases hline with himplementation | hline
      · cases himplementation
      · exact g.isStemmed_markerFile hline
    · exact g.isStemmed_of_mem_filesFor hf
  refine ⟨hstemmed, hstemmed.safe_iff, fun hsuffix x hx => ?_⟩
  exact (hstemmed.safe_iff.2 hsuffix).separates hx

end Generator

/-! ## Awkward names -/

/-- Two classes whose names and references are full of characters that no file name may hold.  The
second has to take its long name. -/
def Compilation.awkward : Compilation where
  files := [
    ⟨"App.cs", ["using N;"], [.marked ["App"] "Fo/o:\n" ["I\\Bar 1"]]⟩,
    ⟨"Bar.cs", ["using N;"], [.marked ["Bar"] "Fo/o:\n" ["I\\Bar 1"]]⟩]
  symbols := [.emptyInterface "N" "I\\Bar 1"]

/-- None of these characters is left in a name. -/
theorem hintName_stem_suffix_awkward :
    ∃ report, ((Generator.mk .byName .usual).runOn Compilation.awkward.host .idle).result =
        .ok report ∧
      report.files.map GeneratedFile.hintName = ["AutoImplementAttribute.g.cs",
        "Fo_o___I_Bar_1.g.cs", "Bar.Fo_o___N.I_Bar_1.g.cs"] ∧
      Text.OnOneLine Settings.usual.attributeName ∧
      (∀ f ∈ report.files, FileName.Safe f.hintName) := by
  refine ⟨_, rfl, by decide +kernel, by decide, fun f hf => ?_⟩
  have h := Generator.hintName_stem_suffix (.mk .byName .usual) Compilation.awkward.host _ rfl f hf
    (Or.inr (by decide))
  exact h.2.1.2 (by decide)

/-- Settings with a suffix that leads into another directory. -/
def Settings.slashed : Settings :=
  { Settings.usual with
    fileSuffix := "/.g.cs"
    suffix_source := by decide }

/-- The suffix is accepted, and every name has it as it is. -/
theorem hintName_slashed :
    ∃ report, ((Generator.mk .byName .slashed).run .namesakes .idle).result = .ok report ∧
      report.files.map GeneratedFile.hintName = ["AutoImplementAttribute/.g.cs",
        "Foo_IBar/.g.cs", "Bar.Foo_N.IBar/.g.cs"] ∧
      ∀ f ∈ report.files, ¬ FileName.Safe f.hintName := by
  refine ⟨_, rfl, by decide +kernel, ?_⟩
  decide +kernel

end PropertyWeaver
