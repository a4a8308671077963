import Mathlib.Data.List.Forall2
import Mathlib.Data.List.Nodup
import PropertyWeaver.Proofs.Accounting

/-!
# The order of files

Of two contracts that ask for the same interface and the same type, a pass generates the one that
comes first, under the reference that is written there; and of two files with the same short name
the first one gets it.  So the order of the files, and of the declarations in a file, decides how an
interface is spelled and what a file is called.  It does not decide which interfaces are implemented
for which types.

What a pass implements is what its declarations contribute, with later repetitions dropped.  In
another order of the declarations the contributions come in another order, too, and the same pairs
of metadata names are kept (`perm_map_pairIdentity_implemented`).  Where every candidate has a
metadata name of its own, nothing is dropped at all; then the very contributions are kept, and the
files differ in their names only (`perm_implemented`).

## Main results

* `exists_perm_declarations` — a rearranged program has the same declarations in another order.
* `filterMap_identity?_place` — what files are generated for, while contracts are placed.
* `result_rearranged` — what a pass over a rearranged program has in common with the pass before.
-/

namespace PropertyWeaver

open Script

/-! ## Rearranged programs -/

/-- The same file, with its declarations in another order. -/
structure SourceFile.Reordered (file file' : SourceFile) : Prop where
  path_eq : file'.path = file.path
  usings_eq : file'.usings = file.usings
  declarations_perm : file'.declarations.Perm file.declarations

/-- The same files in another order, and the declarations of each of them in another order. -/
def Rearranged (files files' : List SourceFile) : Prop :=
  ∃ moved : List SourceFile,
    moved.Perm files ∧ List.Forall₂ SourceFile.Reordered moved files'

theorem SourceFile.Reordered.importPaths_eq {file file' : SourceFile} (h : file.Reordered file') :
    file'.importPaths = file.importPaths := by
  unfold importPaths
  rw [h.usings_eq]

/-- Files whose declarations are in another order show a pass the same declarations in another
order. -/
theorem exists_perm_of_forall₂_reordered {moved files' : List SourceFile}
    (h : List.Forall₂ SourceFile.Reordered moved files') (find : String → Option Symbol) :
    ∃ declarations : List (SourceFile × Declaration),
      declarations.Perm (Host.declarations ⟨moved, find⟩) ∧
        declarations.map Generator.view =
          (Host.declarations ⟨files', find⟩).map Generator.view := by
  induction h with
  | nil => exact ⟨[], List.Perm.refl _, rfl⟩
  | @cons file file' moved files' hfile _ ih =>
      obtain ⟨declarations, hperm, hview⟩ := ih
      refine ⟨file'.declarations.map (fun d => (file, d)) ++ declarations, ?_, ?_⟩
      · exact (hfile.declarations_perm.map _).append hperm
      · have hhead : (file'.declarations.map fun d => (file, d)).map Generator.view =
            (file'.declarations.map fun d => (file', d)).map Generator.view := by
          rw [List.map_map, List.map_map]
          apply List.map_congr_left
          intro d _
          show (file.path, file.importPaths, d) = (file'.path, file'.importPaths, d)
          rw [hfile.path_eq, hfile.importPaths_eq]
        rw [List.map_append, hview, hhead, ← List.map_append]
        rfl

/-- A rearranged program shows a pass the same declarations in another order. -/
theorem Rearranged.exists_perm_declarations {files files' : List SourceFile}
    (h : Rearranged files files') (find : String → Option Symbol) :
    ∃ declarations : List (SourceFile × Declaration),
      declarations.Perm (Host.declarations ⟨files, find⟩) ∧
        declarations.map Generator.view =
          (Host.declarations ⟨files', find⟩).map Generator.view := by
  obtain ⟨moved, hmoved, hfiles⟩ := h
  obtain ⟨declarations, hperm, hview⟩ := exists_perm_of_forall₂_reordered hfiles find
  exact ⟨declarations, hperm.trans (hmoved.flatMap_right _), hview⟩

/-! ## What files are generated for -/

/-- The metadata names of the type and the interface that a placed file is for. -/
def Placement.identity? : Placement → Option (String × String)
  | emitted target contract _ => some (target.metadataName, contract.metadataName)
  | dropped _ _ => none

/-- What a file is apart from its name: what it was generated for, and its text. -/
def GeneratedFile.content (f : GeneratedFile) : String × String × String × String :=
  (f.targetNamespace, f.targetName, f.interfaceName, f.source)

/-- The metadata name of the type that is declared. -/
def declaredName (x : SourceFile × Declaration) : String :=
  (TargetType.ofDeclaration x.2 x.1 []).metadataName

namespace Generator

variable (g : Generator) {find : String → Option Symbol}

/-- The files of the report that implement an interface are those of a pass over the declarations,
and `covered` says for which types and interfaces they are generated, in the order of the files. -/
def Covers (find : String → Option Symbol) (declarations : List (SourceFile × Declaration))
    (report : Report) (covered : List (String × String)) : Prop :=
  ∃ plans, ((g.planAll declarations).run find .idle).result = .ok plans ∧
    report.implementations = (g.placements plans).filterMap Placement.file? ∧
    covered = (g.placements plans).filterMap Placement.identity?

/-- Each file is generated for one type and one interface. -/
theorem Covers.length_eq {declarations : List (SourceFile × Declaration)} {report : Report}
    {covered : List (String × String)} (h : g.Covers find declarations report covered) :
    report.implementations.length = covered.length := by
  obtain ⟨plans, -, hfiles, hcovered⟩ := h
  rw [hfiles, hcovered]
  induction g.placements plans with
  | nil => rfl
  | cons placement placements ih =>
      cases placement with
      | emitted target contract file => exact congrArg (· + 1) ih
      | dropped target contract => exact ih

/-- While contracts are placed, files are generated for the identities that are new, once for
each. -/
theorem filterMap_identity?_place (ledger : Ledger) (pairs : List (TargetType × Contract)) :
    (g.place ledger pairs).filterMap Placement.identity? =
      (firstsBy pairIdentity ledger.identities pairs).map pairIdentity := by
  induction pairs generalizing ledger with
  | nil => rfl
  | cons pair pairs ih =>
      obtain ⟨target, contract⟩ := pair
      simp only [place]
      by_cases hs : (target.metadataName, contract.metadataName) ∈ ledger.identities
      · have hs' : pairIdentity (target, contract) ∈ ledger.identities := hs
        rw [if_pos hs, List.filterMap_cons_none rfl, firstsBy_of_mem hs']
        exact ih ledger
      · have hs' : pairIdentity (target, contract) ∉ ledger.identities := hs
        have hid : (Placement.emitted target contract
            (g.fileFor ledger.names target contract)).identity? =
              some (pairIdentity (target, contract)) := rfl
        rw [if_neg hs, List.filterMap_cons_some hid, firstsBy_of_not_mem hs', List.map_cons]
        exact congrArg (_ :: ·) (ih _)

/-- What the files of a pass that returns are generated for. -/
theorem covers_of_generate {declarations : List (SourceFile × Declaration)} {report : Report}
    (h : ((g.generate declarations).run find .idle).result = .ok report) :
    g.Covers find declarations report ((g.implemented find declarations).map pairIdentity) := by
  rw [run_idle] at h
  obtain ⟨plans, hplans, hfiles⟩ := g.files_of_ending_generate h
  refine ⟨plans, ?_, ?_, ?_⟩
  · rw [run_idle]
    exact hplans
  · rw [g.implementations_of_files hfiles]
    rfl
  · rw [← g.firstsBy_pairs_of_planAll hplans]
    exact (g.filterMap_identity?_place ⟨[], []⟩ _).symm

/-- No type gets an interface twice. -/
theorem nodup_map_pairIdentity_implemented (find : String → Option Symbol)
    (declarations : List (SourceFile × Declaration)) :
    ((g.implemented find declarations).map pairIdentity).Nodup := by
  rw [implemented_eq]
  exact nodup_map_firstsBy _ _ _

/-! ## Contents of files -/

/-- The content of the file for a contract. -/
def contentFor (p : TargetType × Contract) : String × String × String × String :=
  (p.1.namespaceName, p.1.name, p.2.name,
    Layout.source g.settings p.1 p.2 g.rendering g.strategy.restatesInterface)

/-- Apart from their names, files do not depend on the names that are taken. -/
theorem map_content_filesFor (taken : List String) (pairs : List (TargetType × Contract)) :
    (g.filesFor taken pairs).map GeneratedFile.content = pairs.map g.contentFor := by
  induction pairs generalizing taken with
  | nil => rfl
  | cons pair pairs ih =>
      obtain ⟨target, contract⟩ := pair
      have hfile : (g.fileFor taken target contract).content = g.contentFor (target, contract) := by
        rw [fileFor_eq]
        rfl
      rw [filesFor, List.map_cons, List.map_cons, hfile, ih]

/-- The contents of the files that implement an interface, in a pass that returns. -/
theorem map_content_implementations {declarations : List (SourceFile × Declaration)}
    {report : Report} (h : ((g.generate declarations).run find .idle).result = .ok report) :
    report.implementations.map GeneratedFile.content =
      (g.implemented find declarations).map g.contentFor := by
  rw [run_idle] at h
  obtain ⟨plans, hplans, hfiles⟩ := g.files_of_ending_generate h
  rw [g.implementations_of_files hfiles, g.filesOf_of_planAll hplans, map_content_filesFor]

/-! ## Declarations in another order -/

section Order

variable {xs ys : List (SourceFile × Declaration)}

/-- The order of declarations does not decide whether a pass returns. -/
theorem exists_report_of_perm (h : ys.Perm xs) {report : Report}
    (hreport : ((g.generate xs).run find .idle).result = .ok report) :
    ∃ report', ((g.generate ys).run find .idle).result = .ok report' := by
  rw [run_idle] at hreport ⊢
  have hreadable := g.exists_report_iff.1 ⟨report, hreport⟩
  exact g.exists_report_iff.2 fun y hy => hreadable y (h.mem_iff.1 hy)

/-- The order of declarations does not decide for which types and interfaces files are made. -/
theorem perm_map_pairIdentity_implemented (h : ys.Perm xs) :
    ((g.implemented find ys).map pairIdentity).Perm
      ((g.implemented find xs).map pairIdentity) := by
  rw [implemented_eq, implemented_eq]
  exact perm_map_firstsBy (h.flatMap_right _) pairIdentity []

/-- What a declaration contributes is for its own type. -/
theorem metadataName_of_mem_contribution {x : SourceFile × Declaration}
    {p : TargetType × Contract} (h : p ∈ g.contribution find x) :
    p.1.metadataName = declaredName x := by
  unfold contribution at h
  obtain ⟨a, ha, rfl⟩ := List.mem_map.1 h
  have haccepted := List.mem_of_find?_eq_some (find?_of_mem_firstsBy ha)
  obtain ⟨references, -, htarget⟩ := g.exists_references_of_mem_acceptancesIn haccepted
  show a.target.metadataName = declaredName x
  rw [htarget]
  rfl

/-- A declaration contributes no interface twice. -/
theorem nodup_map_pairIdentity_contribution (x : SourceFile × Declaration) :
    ((g.contribution find x).map pairIdentity).Nodup := by
  apply List.Nodup.of_map Prod.snd
  unfold contribution
  rw [List.map_map, List.map_map]
  exact nodup_map_firstsBy Acceptance.interfaceName [] _

/-- Only candidates contribute anything. -/
theorem contribution_of_not_candidate {x : SourceFile × Declaration}
    (h : ¬ g.isCandidate x.2 = true) : g.contribution find x = [] := by
  unfold contribution acceptancesIn
  rw [if_neg h]
  rfl

/-- Where every candidate has a metadata name of its own, no contribution is dropped. -/
theorem implemented_of_nodup (h : ((g.candidates xs).map declaredName).Nodup) :
    g.implemented find xs = xs.flatMap (g.contribution find) := by
  rw [implemented_eq]
  refine firstsBy_eq_self ?_ fun _ _ => List.not_mem_nil
  rw [← g.flatMap_candidates fun _ => g.contribution_of_not_candidate, List.map_flatMap,
    List.nodup_flatMap]
  refine ⟨fun x _ => g.nodup_map_pairIdentity_contribution x, ?_⟩
  refine (List.pairwise_map.1 h).imp ?_
  intro x y hne identity hx hy
  obtain ⟨p, hp, rfl⟩ := List.mem_map.1 hx
  obtain ⟨q, hq, heq⟩ := List.mem_map.1 hy
  apply hne
  rw [← g.metadataName_of_mem_contribution hp, ← g.metadataName_of_mem_contribution hq]
  exact (congrArg Prod.fst heq).symm

/-- Where every candidate has a metadata name of its own, the order of declarations does not decide
which contracts are implemented. -/
theorem perm_implemented (h : ys.Perm xs) (hnames : ((g.candidates xs).map declaredName).Nodup) :
    (g.implemented find ys).Perm (g.implemented find xs) := by
  have hnames' : ((g.candidates ys).map declaredName).Nodup :=
    ((h.filter _).map declaredName).nodup_iff.2 hnames
  rw [g.implemented_of_nodup hnames, g.implemented_of_nodup hnames']
  exact h.flatMap_right _

end Order

/-! ## Passes over rearranged programs -/

/--
When a pass returns, and the files of the program are put in another order, and the declarations of
each file, too, then a pass over the rearranged program returns as well.  It makes as many files
that implement interfaces, for the same pairs of a type and an interface.  If no two candidates have
the same metadata name, the files are even the same ones up to their order and their names.
-/
theorem result_rearranged (host : Host) (files : List SourceFile) (report : Report)
    (hfiles : Rearranged host.files files) (h : (g.runOn host .idle).result = .ok report) :
    ∃ report' covered covered',
      (g.runOn { host with files := files } .idle).result = .ok report' ∧
      g.Covers host.find host.declarations report covered ∧
      g.Covers host.find (Host.declarations { host with files := files }) report' covered' ∧
      covered.Nodup ∧ covered'.Perm covered ∧
      report'.implementations.length = report.implementations.length ∧
      (((g.candidates host.declarations).map declaredName).Nodup →
        (report'.implementations.map GeneratedFile.content).Perm
          (report.implementations.map GeneratedFile.content)) := by
  obtain ⟨declarations, hperm, hview⟩ := hfiles.exists_perm_declarations host.find
  have hgenerate : g.generate (Host.declarations { host with files := files }) =
      g.generate declarations := (g.generate_congr hview).symm
  have hplanAll : g.planAll (Host.declarations { host with files := files }) =
      g.planAll declarations := (g.planAll_congr hview).symm
  obtain ⟨report', hreport'⟩ := g.exists_report_of_perm hperm h
  have hcovers := g.covers_of_generate h
  have hcovers' := g.covers_of_generate hreport'
  have hcovered : ((g.implemented host.find declarations).map pairIdentity).Perm
      ((g.implemented host.find host.declarations).map pairIdentity) :=
    g.perm_map_pairIdentity_implemented hperm
  refine ⟨report', _, _, ?_, hcovers, ?_, ?_, hcovered, ?_, ?_⟩
  · rw [runOn, hgenerate]
    exact hreport'
  · unfold Covers
    rw [hplanAll]
    exact hcovers'
  · exact g.nodup_map_pairIdentity_implemented host.find host.declarations
  · rw [hcovers.length_eq, hcovers'.length_eq, hcovered.length_eq]
  · intro hnames
    rw [g.map_content_implementations h, g.map_content_implementations hreport']
    exact (g.perm_implemented hperm hnames).map g.contentFor

end Generator

/-! ## Two files that change places -/

/-- A class and another one whose name is also that of a class elsewhere. -/
def SourceFile.neighbours : SourceFile :=
  ⟨"Bar.cs", ["using N;"], [.marked ["Bar"] "Foo" ["IBar"], .marked ["Bar"] "Baz" ["IBar"]]⟩

def Compilation.neighbours : Compilation where
  files := [⟨"App.cs", ["using N;"], [.marked ["App"] "Foo" ["IBar"]]⟩, .neighbours]
  symbols := [.emptyInterface "N" "IBar"]

/-- The same files, the second one first and turned around. -/
def Compilation.turnedAround : Compilation where
  files := [
    ⟨"Bar.cs", ["using N;"], [.marked ["Bar"] "Baz" ["IBar"], .marked ["Bar"] "Foo" ["IBar"]]⟩,
    ⟨"App.cs", ["using N;"], [.marked ["App"] "Foo" ["IBar"]]⟩]
  symbols := [.emptyInterface "N" "IBar"]

/-- The short name goes to the other class, and nothing else in the files changes. -/
theorem result_rearranged_neighbours :
    Rearranged Compilation.neighbours.files Compilation.turnedAround.files ∧
    ∃ report report',
      ((Generator.mk .byName .usual).runOn Compilation.neighbours.host .idle).result =
        .ok report ∧
      ((Generator.mk .byName .usual).runOn { Compilation.neighbours.host with
        files := Compilation.turnedAround.files } .idle).result = .ok report' ∧
      (report'.implementations.map GeneratedFile.content).Perm
        (report.implementations.map GeneratedFile.content) ∧
      report.implementations.map GeneratedFile.hintName =
        ["Foo_IBar.g.cs", "Bar.Foo_N.IBar.g.cs", "Baz_IBar.g.cs"] ∧
      report'.implementations.map GeneratedFile.hintName =
        ["Baz_IBar.g.cs", "Foo_IBar.g.cs", "App.Foo_N.IBar.g.cs"] := by
  have hrearranged : Rearranged Compilation.neighbours.files Compilation.turnedAround.files := by
    refine ⟨_, List.Perm.swap _ SourceFile.neighbours [], ?_⟩
    exact .cons ⟨rfl, rfl, List.Perm.swap _ _ []⟩ (.cons ⟨rfl, rfl, List.Perm.refl _⟩ .nil)
  obtain ⟨report, hreport, hnames⟩ : ∃ report,
      ((Generator.mk .byName .usual).runOn Compilation.neighbours.host .idle).result =
        .ok report ∧
      report.implementations.map GeneratedFile.hintName =
        ["Foo_IBar.g.cs", "Bar.Foo_N.IBar.g.cs", "Baz_IBar.g.cs"] :=
    ⟨_, rfl, by decide +kernel⟩
  obtain ⟨turned, hturned, hnames'⟩ : ∃ turned,
      ((Generator.mk .byName .usual).runOn { Compilation.neighbours.host with
        files := Compilation.turnedAround.files } .idle).result = .ok turned ∧
      turned.implementations.map GeneratedFile.hintName =
        ["Baz_IBar.g.cs", "Foo_IBar.g.cs", "App.Foo_N.IBar.g.cs"] :=
    ⟨_, rfl, by decide +kernel⟩
  obtain ⟨report', _, _, hreport', -, -, -, -, -, hcontents⟩ := Generator.result_rearranged
    (.mk .byName .usual) Compilation.neighbours.host _ report hrearranged hreport
  rw [hturned] at hreport'
  cases hreport'
  exact ⟨hrearranged, report, turned, hreport, hturned, hcontents (by decide +kernel), hnames,
    hnames'⟩

end PropertyWeaver
