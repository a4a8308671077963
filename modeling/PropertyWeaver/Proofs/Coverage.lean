import Mathlib.Data.List.Forall2
import PropertyWeaver.Proofs.FirstOccurrence
import PropertyWeaver.Proofs.Undisturbed

/-!
# What a pass covers

An *acceptance* is a reference of a declaration together with the interface that it means, where
the strategy accepts that interface.  The acceptances of a program, in the order in which they are
written, say what a pass has to do; two of them ask for the same file when they agree on the
metadata names of type and interface.

A plan already drops the repetitions within its declaration, and placement drops those that are
left.  The two removals go by different keys; `pairs_of_planAll` and `firstsBy_identity_flatMap`
show that together they keep the first acceptance of each identity and nothing else.

## Main results

* `files_of_generate` — the files of a pass that returns, as a function of the acceptances.
* `files_cover_acceptances` — one file for each identity, made from its first acceptance.
-/

namespace PropertyWeaver

open Script

/-- A reference that is accepted: the type that makes it, and the interface that it means. -/
structure Acceptance where
  target : TargetType
  reference : String
  symbol : Symbol

namespace Acceptance

/-- The metadata name of the interface. -/
def interfaceName (a : Acceptance) : String := a.symbol.metadataName

/-- What an acceptance asks for: the metadata names of the type and of the interface. -/
def identity (a : Acceptance) : String × String :=
  (a.target.metadataName, a.interfaceName)

/-- The contract that is generated for an acceptance. -/
def contract (r : Rendering) (a : Acceptance) : Contract :=
  .ofSymbol a.reference a.symbol (some r)

/-- The target and the contract that come to be placed. -/
def pair (r : Rendering) (a : Acceptance) : TargetType × Contract := (a.target, a.contract r)

end Acceptance

/-- The contracts of a plan, each with the target. -/
def Plan.pairs (p : Plan) : List (TargetType × Contract) :=
  p.contracts.map fun contract => (p.target, contract)

namespace Generator

variable (g : Generator) {find : String → Option Symbol}

/-! ## Acceptances -/

/-- The acceptance of a reference that `target` makes, if there is one. -/
def acceptanceOf? (find : String → Option Symbol) (target : TargetType) (reference : String) :
    Option Acceptance :=
  match ((resolve reference target.imports).run find .idle).result with
  | .ok (.ok symbol) => if g.accepts symbol then some ⟨target, reference, symbol⟩ else none
  | _ => none

/-- The acceptances of a declaration, in the order of its references. -/
def acceptancesIn (find : String → Option Symbol) (x : SourceFile × Declaration) :
    List Acceptance :=
  if g.isCandidate x.2 then
    match g.references x.2 with
    | .ok references =>
        references.filterMap (g.acceptanceOf? find (.ofDeclaration x.2 x.1 references))
    | .error _ => []
  else []

/-- The acceptances of declarations, in order. -/
def acceptances (find : String → Option Symbol) (declarations : List (SourceFile × Declaration)) :
    List Acceptance :=
  declarations.flatMap (g.acceptancesIn find)

theorem acceptanceOf?_eq (find : String → Option Symbol) (target : TargetType)
    (reference : String) :
    g.acceptanceOf? find target reference =
      match meaning find reference target.imports with
      | .ok symbol => if g.accepts symbol then some ⟨target, reference, symbol⟩ else none
      | .error _ => none := by
  unfold acceptanceOf?
  rw [run_idle, ending_resolve]
  cases meaning find reference target.imports <;> rfl

theorem verdictOn_of_none (seen : List String) {target : TargetType} {reference : String}
    (h : g.acceptanceOf? find target reference = none) :
    ∃ reason, g.verdictOn find target.imports seen reference = .skipped reference reason := by
  rw [acceptanceOf?_eq] at h
  unfold verdictOn
  cases hm : meaning find reference target.imports with
  | error reason => exact ⟨reason, rfl⟩
  | ok symbol =>
      rw [hm] at h
      cases ha : g.accepts symbol with
      | false => exact ⟨.notMarked, by simp [ha]⟩
      | true => simp [ha] at h

theorem verdictOn_of_some (seen : List String) {target : TargetType} {reference : String}
    {a : Acceptance} (h : g.acceptanceOf? find target reference = some a) :
    a.target = target ∧ g.verdictOn find target.imports seen reference =
      if a.interfaceName ∈ seen then .skipped reference .duplicate
      else .accepted (a.contract g.rendering) := by
  rw [acceptanceOf?_eq] at h
  unfold verdictOn
  cases hm : meaning find reference target.imports with
  | error reason =>
      rw [hm] at h
      cases h
  | ok symbol =>
      rw [hm] at h
      cases ha : g.accepts symbol with
      | false => simp [ha] at h
      | true =>
          simp only [ha, if_true] at h
          cases h
          refine ⟨rfl, ?_⟩
          simp only [ha, Bool.not_true, Bool.false_eq_true, if_false]
          rfl

/-- The target of an acceptance is the declaration with the references that it makes. -/
theorem exists_references_of_mem_acceptancesIn {x : SourceFile × Declaration} {a : Acceptance}
    (h : a ∈ g.acceptancesIn find x) :
    ∃ references, g.references x.2 = .ok references ∧
      a.target = .ofDeclaration x.2 x.1 references := by
  unfold acceptancesIn at h
  split at h
  · cases hr : g.references x.2 with
    | error fault =>
        rw [hr] at h
        cases h
    | ok references =>
        rw [hr] at h
        obtain ⟨reference, -, hsome⟩ := List.mem_filterMap.1 h
        exact ⟨references, rfl, (g.verdictOn_of_some [] hsome).1⟩
  · cases h

/-- All acceptances of a declaration are its own. -/
theorem target_of_mem_acceptancesIn (find : String → Option Symbol)
    (x : SourceFile × Declaration) :
    ∃ t : TargetType, ∀ a ∈ g.acceptancesIn find x, a.target = t := by
  cases hr : g.references x.2 with
  | error fault =>
      refine ⟨.ofDeclaration x.2 x.1 [], ?_⟩
      intro a ha
      obtain ⟨references, hok, -⟩ := g.exists_references_of_mem_acceptancesIn ha
      rw [hr] at hok
      cases hok
  | ok references =>
      refine ⟨.ofDeclaration x.2 x.1 references, ?_⟩
      intro a ha
      obtain ⟨references', hok, htarget⟩ := g.exists_references_of_mem_acceptancesIn ha
      rw [hr] at hok
      cases hok
      exact htarget

/-! ## From acceptances to contracts -/

/-- The contracts of the verdicts are those of the acceptances that are first of their interface. -/
theorem pairs_verdictsOn (target : TargetType) (seen references : List String) :
    ((g.verdictsOn find target.imports seen references).filterMap Verdict.contract?).map
        (fun contract => (target, contract)) =
      (firstsBy Acceptance.interfaceName seen
        (references.filterMap (g.acceptanceOf? find target))).map
          (Acceptance.pair g.rendering) := by
  induction references generalizing seen with
  | nil => rfl
  | cons reference references ih =>
      simp only [verdictsOn]
      cases hof : g.acceptanceOf? find target reference with
      | none =>
          obtain ⟨reason, hv⟩ := g.verdictOn_of_none seen hof
          rw [hv, List.filterMap_cons_none hof, List.filterMap_cons_none rfl]
          exact ih seen
      | some a =>
          obtain ⟨ht, hv⟩ := g.verdictOn_of_some seen hof
          rw [hv, List.filterMap_cons_some hof]
          by_cases hs : a.interfaceName ∈ seen
          · rw [if_pos hs, List.filterMap_cons_none rfl, firstsBy_of_mem hs]
            exact ih seen
          · have hc : (Verdict.accepted (a.contract g.rendering)).contract? =
                some (a.contract g.rendering) := rfl
            rw [if_neg hs, List.filterMap_cons_some hc, firstsBy_of_not_mem hs, List.map_cons,
              List.map_cons, Acceptance.pair, ht]
            exact congrArg (_ :: ·) (ih _)

theorem pairs_of_planAll {declarations : List (SourceFile × Declaration)} {plans : List Plan}
    (h : (g.planAll declarations).ending find = .ok plans) :
    (plans.flatMap fun plan => plan.contracts.map fun contract => (plan.target, contract)) =
      declarations.flatMap fun x =>
        (firstsBy Acceptance.interfaceName [] (g.acceptancesIn find x)).map
          (Acceptance.pair g.rendering) := by
  induction declarations generalizing plans with
  | nil =>
      cases h
      rfl
  | cons x rest ih =>
      obtain ⟨file, d⟩ := x
      rw [List.flatMap_cons, acceptancesIn]
      by_cases hc : g.isCandidate d = true
      · have hplan := g.ending_plan find d file
        simp only [if_pos hc]
        cases hr : g.references d with
        | error fault =>
            rw [hr] at hplan
            rw [g.ending_planAll_of_error hc hplan] at h
            cases h
        | ok references =>
            rw [hr] at hplan
            rw [g.ending_planAll_of_ok hc hplan] at h
            cases hrest : (g.planAll rest).ending find with
            | error fault =>
                rw [hrest] at h
                cases h
            | ok others =>
                rw [hrest] at h
                cases h
                rw [List.flatMap_cons, ih hrest]
                exact congrArg (· ++ _) (g.pairs_verdictsOn _ [] references)
      · rw [g.ending_planAll_of_not_candidate hc] at h
        simp only [if_neg hc]
        exact ih h

/-- Dropping the repetitions within each declaration makes no difference to the whole. -/
theorem firstsBy_identity_flatMap (seen : List (String × String))
    (declarations : List (SourceFile × Declaration)) :
    firstsBy Acceptance.identity seen
        (declarations.flatMap fun x =>
          firstsBy Acceptance.interfaceName [] (g.acceptancesIn find x)) =
      firstsBy Acceptance.identity seen (g.acceptances find declarations) := by
  induction declarations generalizing seen with
  | nil => rfl
  | cons x rest ih =>
      obtain ⟨t, ht⟩ := g.target_of_mem_acceptancesIn find x
      rw [acceptances, List.flatMap_cons, List.flatMap_cons]
      rw [firstsBy_firstsBy_append (h := fun name => (t.metadataName, name)) _ ?_ ?_]
      · rw [firstsBy_append, firstsBy_append, ih]
        rfl
      · intro a ha
        rw [Acceptance.identity, ht a ha]
      · intro k hk
        cases hk

/-! ## From contracts to files -/

/-- What two contracts have in common when one file is enough for both. -/
def pairIdentity (p : TargetType × Contract) : String × String :=
  (p.1.metadataName, p.2.metadataName)

/-- The files for contracts that are all to be generated, when names in `taken` are taken. -/
def filesFor : List String → List (TargetType × Contract) → List GeneratedFile
  | _, [] => []
  | taken, (target, contract) :: rest =>
      let file := g.fileFor taken target contract
      file :: filesFor (file.hintName :: taken) rest

/-- The names that are taken decide on the name of a file, and on nothing else in it. -/
theorem fileFor_eq (taken : List String) (t : TargetType) (c : Contract) :
    g.fileFor taken t c =
      { GeneratedFile.implementing g.settings t c g.rendering g.strategy.restatesInterface with
        hintName := (g.fileFor taken t c).hintName } := by
  unfold fileFor
  dsimp only
  split <;> rfl

/-- Placement generates files for the contracts that are first of their identity. -/
theorem filterMap_place (ledger : Ledger) (pairs : List (TargetType × Contract)) :
    (g.place ledger pairs).filterMap Placement.file? =
      g.filesFor ledger.names (firstsBy pairIdentity ledger.identities pairs) := by
  induction pairs generalizing ledger with
  | nil => rfl
  | cons pair pairs ih =>
      obtain ⟨target, contract⟩ := pair
      simp only [place]
      by_cases hs : (target.metadataName, contract.metadataName) ∈ ledger.identities
      · have hs' : pairIdentity (target, contract) ∈ ledger.identities := hs
        rw [if_pos hs, List.filterMap_cons_none rfl, firstsBy_of_mem hs']
        exact ih ledger
      · have hs' : pairIdentity (target, contract) ∉ ledger.identities := hs
        have hf : (Placement.emitted target contract
            (g.fileFor ledger.names target contract)).file? =
              some (g.fileFor ledger.names target contract) := rfl
        rw [if_neg hs, List.filterMap_cons_some hf, firstsBy_of_not_mem hs']
        exact congrArg (_ :: ·) (ih _)

/-- The contracts of a pass that are not dropped, each with its target. -/
def implemented (find : String → Option Symbol) (declarations : List (SourceFile × Declaration)) :
    List (TargetType × Contract) :=
  (firstsBy Acceptance.identity [] (g.acceptances find declarations)).map
    (Acceptance.pair g.rendering)

/-- What a declaration contributes to what is placed: its contracts, each with the type. -/
def contribution (find : String → Option Symbol) (x : SourceFile × Declaration) :
    List (TargetType × Contract) :=
  (firstsBy Acceptance.interfaceName [] (g.acceptancesIn find x)).map
    (Acceptance.pair g.rendering)

/-- Placing everything that is contributed, repetitions dropped, is implementing the acceptances. -/
theorem implemented_eq (declarations : List (SourceFile × Declaration)) :
    g.implemented find declarations =
      firstsBy pairIdentity [] (declarations.flatMap (g.contribution find)) := by
  have hflat : declarations.flatMap (g.contribution find) =
      (declarations.flatMap fun x =>
        firstsBy Acceptance.interfaceName [] (g.acceptancesIn find x)).map
          (Acceptance.pair g.rendering) := by
    rw [List.map_flatMap]
    rfl
  rw [hflat, firstsBy_map, implemented, ← g.firstsBy_identity_flatMap []]
  rfl

/-- What is placed when the plans are carried out, repetitions dropped. -/
theorem firstsBy_pairs_of_planAll {declarations : List (SourceFile × Declaration)}
    {plans : List Plan} (h : (g.planAll declarations).ending find = .ok plans) :
    firstsBy pairIdentity [] (plans.flatMap Plan.pairs) = g.implemented find declarations := by
  rw [implemented_eq]
  exact congrArg (firstsBy pairIdentity []) (g.pairs_of_planAll h)

theorem filesOf_of_planAll {declarations : List (SourceFile × Declaration)} {plans : List Plan}
    (h : (g.planAll declarations).ending find = .ok plans) :
    g.filesOf plans = g.filesFor [] (g.implemented find declarations) := by
  rw [← g.firstsBy_pairs_of_planAll h]
  exact g.filterMap_place ⟨[], []⟩ _

/-- The files of a pass that returns. -/
theorem files_of_generate {declarations : List (SourceFile × Declaration)} {report : Report}
    (h : ((g.generate declarations).run find .idle).result = .ok report) :
    report.files = g.markerFile :: g.filesFor [] (g.implemented find declarations) := by
  rw [run_idle] at h
  obtain ⟨plans, hplans, hfiles⟩ := g.files_of_ending_generate h
  rw [hfiles, g.filesOf_of_planAll hplans]

/-! ## One file for each identity -/

/-- A file that implements an acceptance; its name depends on the files before it. -/
structure Implements (file : GeneratedFile) (a : Acceptance) : Prop where
  kind_eq : file.kind = GeneratedFile.implementationKind
  targetName_eq : file.targetName = a.target.name
  targetNamespace_eq : file.targetNamespace = a.target.namespaceName
  interfaceName_eq : file.interfaceName = a.reference
  source_eq : file.source =
    Layout.source g.settings a.target (a.contract g.rendering) g.rendering
      g.strategy.restatesInterface

theorem implements_fileFor (taken : List String) (a : Acceptance) :
    g.Implements (g.fileFor taken a.target (a.contract g.rendering)) a := by
  unfold fileFor
  dsimp only
  split
  · exact ⟨rfl, rfl, rfl, rfl, rfl⟩
  · exact ⟨rfl, rfl, rfl, rfl, rfl⟩

theorem forall₂_implements_filesFor (taken : List String) (as : List Acceptance) :
    List.Forall₂ g.Implements (g.filesFor taken (as.map (Acceptance.pair g.rendering))) as := by
  induction as generalizing taken with
  | nil => exact List.Forall₂.nil
  | cons a as ih => exact List.Forall₂.cons (g.implements_fileFor taken a) (ih _)

/--
A pass that returns generates the marker attribute's file and then one file for each identity among
the acceptances, in the order in which the identities first occur and made from those first
occurrences.  No accepted reference is lost, and no identity is generated twice.
-/
theorem files_cover_acceptances (c : Compilation) (report : Report)
    (h : (g.run c .idle).result = .ok report) :
    let firsts := firstsBy Acceptance.identity [] (g.acceptances c.lookup c.declarations)
    (firsts.map Acceptance.identity).Nodup ∧
      (∀ a ∈ g.acceptances c.lookup c.declarations,
        a.identity ∈ firsts.map Acceptance.identity) ∧
      ∃ files, report.files = g.markerFile :: files ∧
        List.Forall₂ g.Implements files firsts := by
  intro firsts
  refine ⟨nodup_map_firstsBy _ _ _, ?_, ?_⟩
  · intro a ha
    exact mem_map_firstsBy.2 ⟨List.mem_map_of_mem ha, List.not_mem_nil⟩
  · exact ⟨_, g.files_of_generate h, g.forall₂_implements_filesFor [] firsts⟩

end Generator

/-! ## A type in two parts

The settings that a build gets without asking, and a class that is declared in two files.  Its
parts name one interface in two spellings, and one of them names a second that does not exist.
-/

/-- The settings of a build that asks for nothing. -/
def Settings.usual : Settings where
  attributeNamespace := "AttributeGenerator"
  attributeName := "AutoImplement"
  fileSuffix := ".g.cs"
  visibility := .everyone
  rendering := none
  header := true
  namespace_dotted := by decide
  name_identifier := by decide
  name_not_suffixed := by decide
  suffix_source := by decide

/-- A class with a marker that names interfaces. -/
def Declaration.marked (namespacePath : List String) (name : String) (arguments : List String) :
    Declaration :=
  ⟨name, "class", namespacePath, [], [], [⟨"AutoImplement", some arguments⟩], []⟩

/-- An interface that asks for nothing. -/
def Symbol.emptyInterface (namespaceName name : String) : Symbol :=
  ⟨name, namespaceName, "interface", [], [], []⟩

def Compilation.partialType : Compilation where
  files := [
    ⟨"Foo.cs", ["using N;"], [.marked ["App"] "Foo" ["IBar", "INone"]]⟩,
    ⟨"Foo.Part.cs", [], [.marked ["App"] "Foo" ["N.IBar"]]⟩]
  symbols := [.emptyInterface "N" "IBar"]

theorem files_cover_partialType :
    ∃ report files, ((Generator.mk .byName .usual).run .partialType .idle).result = .ok report ∧
      report.files = (Generator.mk .byName .usual).markerFile :: files ∧
      (firstsBy Acceptance.identity [] ((Generator.mk .byName .usual).acceptances
        Compilation.partialType.lookup Compilation.partialType.declarations)).map
          Acceptance.identity = [("App.Foo", "N.IBar")] ∧
      List.Forall₂ (Generator.mk .byName .usual).Implements files
        (firstsBy Acceptance.identity [] ((Generator.mk .byName .usual).acceptances
          Compilation.partialType.lookup Compilation.partialType.declarations)) := by
  obtain ⟨report, hreport⟩ := Generator.exists_report_of_markerArguments
    (.mk .byName .usual) rfl Compilation.partialType.lookup Compilation.partialType.declarations
  obtain ⟨-, -, files, hfiles, hcover⟩ :=
    Generator.files_cover_acceptances (.mk .byName .usual) .partialType report hreport
  exact ⟨report, files, hreport, hfiles, by decide +kernel, hcover⟩

end PropertyWeaver
