import Mathlib.Data.List.Nodup
import Mathlib.Data.List.Perm.Subperm
import PropertyWeaver.Proofs.Coverage

/-!
# Names of generated files

A host keeps the files of a pass apart by their names.  A file gets its short name if that is free
and its long name otherwise; whether the long name is free is not asked, and the marker
attribute's file takes no part in the bookkeeping at all.  So the names of a pass are distinct
exactly if no file has the marker's name and every file that has to give up its short name finds
its long name free.  `NamesApart` says so, and `nodup_hintNames_iff` proves it.

Both ways of failing are real.  A qualified reference makes a short name that reads like the long
name of another type, and a marker with a low line in its name reads like a short name.

## Main results

* `nodup_hintNames_iff` — when the names are distinct, and what a report is good for then.
* `markerName_not_mem_namesFor` — a marker name without a low line is never met again.
-/

namespace PropertyWeaver

open Script

/-! ## Looking up by distinct names -/

/-- Making a map of pairs loses none of them exactly if their keys are distinct. -/
theorem OrderedMap.length_ofList_eq_iff {κ ν : Type} [DecidableEq κ] {pairs : List (κ × ν)} :
    (ofList pairs).length = pairs.length ↔ (keys pairs).Nodup := by
  constructor
  · intro h
    have hsub : List.Subperm (keys (ofList pairs)) (keys pairs) :=
      List.subperm_of_subset (nodup_keys_ofList pairs) (fun _ => mem_keys_ofList.1)
    have hlen : (keys pairs).length ≤ (keys (ofList pairs)).length := by simp [keys, h]
    exact (hsub.perm_of_length_le hlen).nodup_iff.1 (nodup_keys_ofList pairs)
  · intro h
    rw [ofList_of_nodup h]

theorem find?_hintName_of_nodup {files : List GeneratedFile}
    (h : (files.map GeneratedFile.hintName).Nodup) {f : GeneratedFile} (hf : f ∈ files) :
    files.find? (fun other => other.hintName == f.hintName) = some f := by
  cases hfind : files.find? (fun other => other.hintName == f.hintName) with
  | none =>
      have hnone := List.find?_eq_none.1 hfind f hf
      simp at hnone
  | some other =>
      have hmem := List.mem_of_find?_eq_some hfind
      have hname : other.hintName = f.hintName := by simpa using List.find?_some hfind
      rw [List.inj_on_of_nodup_map h hmem hf hname]

theorem lookup_map_hintName (files : List GeneratedFile) (name : String) :
    (files.map fun f => (f.hintName, f.source)).lookup name =
      (files.find? (fun f => f.hintName == name)).map GeneratedFile.source := by
  induction files with
  | nil => rfl
  | cons f files ih =>
      by_cases h : f.hintName = name
      · simp [h]
      · have hne : ¬ name = f.hintName := fun e => h e.symm
        have hkey : (name == f.hintName) = false := by simpa using hne
        rw [List.map_cons, List.find?_cons_of_neg (by simp [h]), List.lookup_cons, hkey]
        exact ih

private theorem keys_sources (files : List GeneratedFile) :
    OrderedMap.keys (files.map fun f => (f.hintName, f.source)) =
      files.map GeneratedFile.hintName := by
  simp [OrderedMap.keys]

theorem Report.length_sources_eq_iff (report : Report) :
    report.sources.length = report.files.length ↔
      (report.files.map GeneratedFile.hintName).Nodup := by
  rw [← keys_sources, ← OrderedMap.length_ofList_eq_iff, List.length_map]
  rfl

/-- With distinct names, nothing in a report hides anything else. -/
theorem Report.lookup_sources_of_nodup {report : Report}
    (h : (report.files.map GeneratedFile.hintName).Nodup) {f : GeneratedFile}
    (hf : f ∈ report.files) :
    report.sources.lookup f.hintName = some f.source ∧ report.file? f.hintName = some f := by
  have hsources : report.sources = report.files.map fun f => (f.hintName, f.source) :=
    OrderedMap.ofList_of_nodup (by rw [keys_sources]; exact h)
  have hfind := find?_hintName_of_nodup h hf
  refine ⟨?_, hfind⟩
  rw [hsources, lookup_map_hintName, hfind]
  rfl

namespace Generator

variable (g : Generator)

/-! ## Short and long names -/

/-- The name made of the type's name and the reference. -/
def shortName (p : TargetType × Contract) : String :=
  FileName.hint p.1.name p.2.name g.settings.fileSuffix

/-- The name made of the metadata names of type and interface. -/
def longName (p : TargetType × Contract) : String :=
  FileName.hint p.1.metadataName p.2.metadataName g.settings.fileSuffix

theorem hintName_fileFor (taken : List String) (p : TargetType × Contract) :
    (g.fileFor taken p.1 p.2).hintName =
      if g.shortName p ∈ taken then g.longName p else g.shortName p := by
  unfold fileFor
  dsimp only
  split
  · next h => exact (if_pos h).symm
  · next h => exact (if_neg h).symm

theorem filesFor_cons (taken : List String) (p : TargetType × Contract)
    (ps : List (TargetType × Contract)) :
    g.filesFor taken (p :: ps) =
      g.fileFor taken p.1 p.2 :: g.filesFor ((g.fileFor taken p.1 p.2).hintName :: taken) ps := rfl

/-- The names of the files for the contracts. -/
def namesFor (ps : List (TargetType × Contract)) : List String :=
  (g.filesFor [] ps).map GeneratedFile.hintName

/-! ## When names are distinct -/

/-- A file has a new name unless both of its names are taken. -/
theorem hintName_fileFor_not_mem_iff (taken : List String) (p : TargetType × Contract) :
    (g.fileFor taken p.1 p.2).hintName ∉ taken ↔
      (g.shortName p ∈ taken → g.longName p ∉ taken) := by
  rw [hintName_fileFor]
  by_cases h : g.shortName p ∈ taken
  · simp [h]
  · simp [h]

private theorem forall_split_cons {α : Type} (P : List α → α → Prop) (q : α) (ps : List α) :
    (∀ before p after, q :: ps = before ++ p :: after → P before p) ↔
      P [] q ∧ ∀ before p after, ps = before ++ p :: after → P (q :: before) p := by
  constructor
  · intro h
    refine ⟨h [] q ps rfl, ?_⟩
    rintro before p after rfl
    exact h (q :: before) p after rfl
  · rintro ⟨hnil, hcons⟩ before p after heq
    cases before with
    | nil =>
        cases heq
        exact hnil
    | cons q' before =>
        cases heq
        exact hcons before p after rfl

/-- The names are new and distinct exactly if no file finds both of its names taken.  The induction
follows the names that are taken; they are those of the files before, and the ones at the start. -/
theorem nodup_filesFor_iff (taken : List String) (ps : List (TargetType × Contract)) :
    (((g.filesFor taken ps).map GeneratedFile.hintName).Nodup ∧
        ∀ name ∈ (g.filesFor taken ps).map GeneratedFile.hintName, name ∉ taken) ↔
      ∀ before p after, ps = before ++ p :: after →
        g.shortName p ∈ (g.filesFor taken before).map GeneratedFile.hintName ++ taken →
          g.longName p ∉ (g.filesFor taken before).map GeneratedFile.hintName ++ taken := by
  induction ps generalizing taken with
  | nil => simp [filesFor]
  | cons q ps ih =>
      have hsplit := forall_split_cons (fun before p =>
        g.shortName p ∈ (g.filesFor taken before).map GeneratedFile.hintName ++ taken →
          g.longName p ∉ (g.filesFor taken before).map GeneratedFile.hintName ++ taken) q ps
      have hperm : ∀ before name,
          name ∈ (g.filesFor taken (q :: before)).map GeneratedFile.hintName ++ taken ↔
            name ∈ (g.filesFor ((g.fileFor taken q.1 q.2).hintName :: taken) before).map
              GeneratedFile.hintName ++ (g.fileFor taken q.1 q.2).hintName :: taken := by
        intro before name
        rw [filesFor_cons, List.map_cons]
        simp only [List.cons_append, List.mem_cons, List.mem_append]
        exact or_left_comm
      rw [hsplit, filesFor_cons, List.map_cons, List.nodup_cons]
      simp only [hperm]
      rw [← ih ((g.fileFor taken q.1 q.2).hintName :: taken)]
      have hq := g.hintName_fileFor_not_mem_iff taken q
      simp only [filesFor, List.map_nil, List.nil_append, ← hq, List.mem_cons, not_or]
      constructor
      · rintro ⟨⟨hne, hnodup⟩, hnew⟩
        refine ⟨hnew _ (Or.inl rfl), hnodup, ?_⟩
        intro name hname
        exact ⟨fun e => hne (e ▸ hname), hnew name (Or.inr hname)⟩
      · rintro ⟨hfree, hnodup, hnew⟩
        refine ⟨⟨fun hmem => (hnew _ hmem).1 rfl, hnodup⟩, ?_⟩
        rintro name (rfl | hname)
        · exact hfree
        · exact (hnew name hname).2

/-- No file of a pass takes the name of another. -/
structure NamesApart (find : String → Option Symbol)
    (declarations : List (SourceFile × Declaration)) : Prop where
  /-- No file has the name of the marker attribute's file. -/
  marker_free : g.markerFile.hintName ∉ g.namesFor (g.implemented find declarations)
  /-- A file that finds its short name taken by files before it finds its long name free. -/
  long_free : ∀ before p after, g.implemented find declarations = before ++ p :: after →
    g.shortName p ∈ g.namesFor before → g.longName p ∉ g.namesFor before

theorem nodup_namesFor_iff (ps : List (TargetType × Contract)) :
    (g.namesFor ps).Nodup ↔ ∀ before p after, ps = before ++ p :: after →
      g.shortName p ∈ g.namesFor before → g.longName p ∉ g.namesFor before := by
  have h := g.nodup_filesFor_iff [] ps
  simpa only [namesFor, List.append_nil, List.not_mem_nil, not_false_eq_true, implies_true,
    and_true] using h

/-! ## The marker's name -/

theorem mem_toList_stem (target interface : String) :
    '_' ∈ (FileName.stem target interface).toList := by
  simp only [FileName.stem, FileName.sanitize, String.toList_ofList, List.mem_map]
  exact ⟨'_', by simp, by decide⟩

theorem exists_stem_of_mem_filesFor {taken : List String} {ps : List (TargetType × Contract)}
    {name : String} (h : name ∈ (g.filesFor taken ps).map GeneratedFile.hintName) :
    ∃ target interface, name = FileName.stem target interface ++ g.settings.fileSuffix := by
  induction ps generalizing taken with
  | nil => exact absurd h List.not_mem_nil
  | cons p ps ih =>
      rw [filesFor_cons, List.map_cons, List.mem_cons] at h
      rcases h with rfl | h
      · rw [hintName_fileFor]
        split
        · exact ⟨_, _, rfl⟩
        · exact ⟨_, _, rfl⟩
      · exact ih h

/-- Every implementation's name has a low line before the suffix, so a marker without one keeps its
name for itself. -/
theorem markerName_not_mem_namesFor (h : '_' ∉ g.settings.attributeName.toList)
    (ps : List (TargetType × Contract)) : g.markerFile.hintName ∉ g.namesFor ps := by
  intro hmem
  obtain ⟨target, interface, heq⟩ := g.exists_stem_of_mem_filesFor hmem
  have hstem : g.settings.className = FileName.stem target interface :=
    (String.append_left_inj g.settings.fileSuffix).1 heq
  have hlow : '_' ∈ g.settings.className.toList := hstem ▸ mem_toList_stem target interface
  rw [Settings.className, String.toList_append, List.mem_append] at hlow
  rcases hlow with hlow | hlow
  · exact h hlow
  · exact absurd hlow (by decide)

/-! ## Reports with distinct names -/

/--
A pass that returns gives its files distinct names exactly if the names are apart.  Then, and only
then, the sources have an entry for every file; and every file is found under its name, with its
own text.
-/
theorem nodup_hintNames_iff (c : Compilation) (report : Report)
    (h : (g.run c .idle).result = .ok report) :
    ((report.files.map GeneratedFile.hintName).Nodup ↔ g.NamesApart c.lookup c.declarations) ∧
      (report.sources.length = report.files.length ↔ g.NamesApart c.lookup c.declarations) ∧
      (g.NamesApart c.lookup c.declarations → ∀ f ∈ report.files,
        report.sources.lookup f.hintName = some f.source ∧ report.file? f.hintName = some f) := by
  have hnames : report.files.map GeneratedFile.hintName =
      g.markerFile.hintName :: g.namesFor (g.implemented c.lookup c.declarations) := by
    rw [g.files_of_generate h, List.map_cons]
    rfl
  have hnodup : (report.files.map GeneratedFile.hintName).Nodup ↔
      g.NamesApart c.lookup c.declarations := by
    rw [hnames, List.nodup_cons, nodup_namesFor_iff]
    constructor
    · rintro ⟨hmarker, hlong⟩
      exact ⟨hmarker, hlong⟩
    · rintro ⟨hmarker, hlong⟩
      exact ⟨hmarker, hlong⟩
  refine ⟨hnodup, report.length_sources_eq_iff.trans hnodup, ?_⟩
  intro hapart f hf
  exact Report.lookup_sources_of_nodup (hnodup.2 hapart) hf

end Generator

/-! ## Classes of one name -/

/-- Two classes of one name, in different namespaces, that name the same interface. -/
def Compilation.namesakes : Compilation where
  files := [
    ⟨"App.cs", ["using N;"], [.marked ["App"] "Foo" ["IBar"]]⟩,
    ⟨"Bar.cs", ["using N;"], [.marked ["Bar"] "Foo" ["IBar"]]⟩]
  symbols := [.emptyInterface "N" "IBar"]

/-- The second namesake takes its long name, and nothing is in its way. -/
theorem nodup_hintNames_namesakes :
    ∃ report, ((Generator.mk .byName .usual).run .namesakes .idle).result = .ok report ∧
      (Generator.mk .byName .usual).NamesApart Compilation.namesakes.lookup
        Compilation.namesakes.declarations ∧
      (report.files.map GeneratedFile.hintName).Nodup ∧
      report.sources.length = report.files.length := by
  obtain ⟨report, hreport⟩ := Generator.exists_report_of_markerArguments
    (.mk .byName .usual) rfl Compilation.namesakes.lookup Compilation.namesakes.declarations
  obtain ⟨hnodup, hlength, -⟩ :=
    Generator.nodup_hintNames_iff (.mk .byName .usual) .namesakes report hreport
  have hnames : (Generator.mk .byName .usual).namesFor ((Generator.mk .byName .usual).implemented
      Compilation.namesakes.lookup Compilation.namesakes.declarations) =
        ["Foo_IBar.g.cs", "Bar.Foo_N.IBar.g.cs"] := by decide +kernel
  have hapart : (Generator.mk .byName .usual).NamesApart Compilation.namesakes.lookup
      Compilation.namesakes.declarations := by
    refine ⟨?_, (Generator.nodup_namesFor_iff _ _).1 ?_⟩
    · exact Generator.markerName_not_mem_namesFor _ (by decide) _
    · rw [hnames]
      decide
  exact ⟨report, hreport, hapart, hnodup.2 hapart, hlength.2 hapart⟩

/-- The same two classes, the first with a qualified reference, and a third outside of every
namespace.  The third has to give up the short name of the second. -/
def Compilation.crowded : Compilation where
  files := [
    ⟨"App.cs", ["using N;"], [.marked ["App"] "Foo" ["N.IBar"]]⟩,
    ⟨"Bar.cs", ["using N;"], [.marked ["Bar"] "Foo" ["IBar"]]⟩,
    ⟨"Foo.cs", ["using N;"], [.marked [] "Foo" ["IBar"]]⟩]
  symbols := [.emptyInterface "N" "IBar"]

/-- Settings under which the marker's name has a low line in it. -/
def Settings.lowLine : Settings :=
  { Settings.usual with
    attributeName := "Foo_I"
    name_identifier := by decide
    name_not_suffixed := by decide }

/-- A class `Foo` that implements an interface `IAttribute` by name. -/
def Compilation.attributeInterface : Compilation where
  files := [⟨"App.cs", [], [{ Declaration.marked ["App"] "Foo" [] with
    attributes := [⟨"Foo_I", some ["IAttribute"]⟩] }]⟩]
  symbols := [.emptyInterface "" "IAttribute"]

/-- A long name may be another file's short name, and the marker's name may be a short name; in
either case a text is lost. -/
theorem hintNames_clash :
    (∃ report, ((Generator.mk .byName .usual).run .crowded .idle).result = .ok report ∧
      report.files.map GeneratedFile.hintName =
        ["AutoImplementAttribute.g.cs", "Foo_N.IBar.g.cs", "Foo_IBar.g.cs", "Foo_N.IBar.g.cs"] ∧
      report.sources.length = 3) ∧
    (∃ report, ((Generator.mk .byName .lowLine).run .attributeInterface .idle).result =
        .ok report ∧
      report.files.map GeneratedFile.hintName =
        ["Foo_IAttribute.g.cs", "Foo_IAttribute.g.cs"] ∧
      report.sources.length = 1) := by
  refine ⟨⟨_, rfl, ?_, ?_⟩, ⟨_, rfl, ?_, ?_⟩⟩
  · decide +kernel
  · decide +kernel
  · decide +kernel
  · decide +kernel

end PropertyWeaver
