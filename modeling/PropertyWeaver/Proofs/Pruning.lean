import PropertyWeaver.Proofs.Failure
import PropertyWeaver.Proofs.Parts
import PropertyWeaver.Proofs.Verdicts

/-!
# Deleting what was skipped

A reference that was skipped leaves a record in the log and nothing else.  Marker arguments and base
list entries whose references were skipped can therefore be deleted, as many of them as one likes
and in as many declarations, and so can entries that are no names; a pass makes the same files of
what is left.

`Pruned` follows a list from left to right with the verdicts on its references next to it.  What is
kept is judged as it was, because a skipped reference adds nothing to what is taken when the next
one is judged (`contracts_of_pruned`).  So the declaration makes the same contracts, even where
nothing is left of its base list and it is not read any more (`exists_asked_of_pruned`).  A pass
makes its files of the contracts of all declarations and of the types without their references
(`filesFor_contributions_congr`).

## Main results

* `contracts_of_pruned` — deleting skipped references keeps the contracts.
* `result_pruned` — a pass comes to the same result when what was skipped is deleted.
-/

namespace PropertyWeaver

open Script

/-! ## Names in base lists -/

/-- The interface name that an entry stands for, if its form is that of a name. -/
def BaseEntry.name? (e : BaseEntry) : Option String :=
  match BaseForm.ofText? e.form with
  | some form => if form.isName then some (Text.compact e.text) else none
  | none => none

theorem BaseEntry.reference_of_not_isUnknown {e : BaseEntry} (h : ¬ e.IsUnknown) :
    e.reference = .ok e.name? := by
  unfold reference name?
  cases hform : BaseForm.ofText? e.form with
  | none => exact absurd (BaseForm.ofText?_eq_none_iff.1 hform) h
  | some form => rfl

/-- A base list can be read if no form in it is unknown, and then its names are read. -/
theorem baseReferences_eq_ok_iff {entries : List BaseEntry} {names : List String} :
    baseReferences entries = .ok names ↔
      (∀ e ∈ entries, ¬ e.IsUnknown) ∧ names = entries.filterMap BaseEntry.name? := by
  induction entries generalizing names with
  | nil => simp [baseReferences, eq_comm]
  | cons entry entries ih =>
      by_cases hentry : entry.IsUnknown
      · have hhead : ¬ ∀ e ∈ entry :: entries, ¬ e.IsUnknown :=
          fun h => h entry List.mem_cons_self hentry
        rw [baseReferences, BaseEntry.reference_of_isUnknown hentry]
        constructor
        · intro h
          cases h
        · intro h
          exact absurd h.1 hhead
      · rw [baseReferences, BaseEntry.reference_of_not_isUnknown hentry, List.forall_mem_cons,
          and_iff_right hentry]
        cases hrest : baseReferences entries with
        | error fault =>
            have hknown : ¬ ∀ e ∈ entries, ¬ e.IsUnknown := by
              intro h
              have hok := ih.2 ⟨h, rfl⟩
              rw [hrest] at hok
              cases hok
            simp [hknown]
        | ok others =>
            obtain ⟨hknown, hothers⟩ := ih.1 hrest
            have hnames : entry.name?.toList ++ others =
                (entry :: entries).filterMap BaseEntry.name? := by
              rw [hothers, List.filterMap_cons]
              cases entry.name? <;> rfl
            dsimp only
            rw [Except.ok.injEq, hnames, and_iff_right hknown]
            exact eq_comm

/-! ## Pruned lists -/

/-- Of a list with some of its elements deleted, `kept` is left.  The verdicts are those on the
references that the elements stand for, in order; an element is deleted only if it stands for none
or for one that was skipped. -/
inductive Pruned {α : Type} (reference? : α → Option String) :
    List α → List Verdict → List α → Prop
  | nil : Pruned reference? [] [] []
  /-- A reference is kept, whatever became of it. -/
  | keep {a : α} {reference : String} {verdict : Verdict} {as kept : List α}
      {verdicts : List Verdict} (h : reference? a = some reference) :
      Pruned reference? as verdicts kept →
        Pruned reference? (a :: as) (verdict :: verdicts) (a :: kept)
  /-- A reference is deleted that was skipped. -/
  | delete {a : α} {reference : String} {reason : SkipReason} {as kept : List α}
      {verdicts : List Verdict} (h : reference? a = some reference) :
      Pruned reference? as verdicts kept →
        Pruned reference? (a :: as) (.skipped reference reason :: verdicts) kept
  /-- Something else is kept. -/
  | keepOther {a : α} {as kept : List α} {verdicts : List Verdict} (h : reference? a = none) :
      Pruned reference? as verdicts kept → Pruned reference? (a :: as) verdicts (a :: kept)
  /-- Something else is deleted. -/
  | deleteOther {a : α} {as kept : List α} {verdicts : List Verdict} (h : reference? a = none) :
      Pruned reference? as verdicts kept → Pruned reference? (a :: as) verdicts kept

theorem Pruned.sublist {α : Type} {reference? : α → Option String} {as kept : List α}
    {verdicts : List Verdict} (h : Pruned reference? as verdicts kept) : kept.Sublist as := by
  induction h with
  | nil => exact List.Sublist.refl []
  | keep _ _ ih => exact ih.cons_cons _
  | delete _ _ ih => exact ih.cons _
  | keepOther _ _ ih => exact ih.cons_cons _
  | deleteOther _ _ ih => exact ih.cons _

namespace Generator

variable (g : Generator) {find : String → Option Symbol}

/-- Deleting skipped references keeps the contracts.  The induction carries what is taken: a skipped
reference adds nothing to it, so the references that are kept are judged as they were. -/
theorem contracts_of_pruned {α : Type} {reference? : α → Option String} {as kept : List α}
    {imports seen : List String}
    (h : Pruned reference? as (g.verdictsOn find imports seen (as.filterMap reference?)) kept) :
    (g.verdictsOn find imports seen (kept.filterMap reference?)).filterMap Verdict.contract? =
      (g.verdictsOn find imports seen (as.filterMap reference?)).filterMap Verdict.contract? := by
  generalize hverdicts : g.verdictsOn find imports seen (as.filterMap reference?) = verdicts at h
  induction h generalizing seen with
  | nil => rw [← hverdicts]
  | keep hreference _ ih =>
      rw [List.filterMap_cons_some hreference, verdictsOn] at hverdicts ⊢
      obtain ⟨hhead, hrest⟩ := List.cons.inj hverdicts
      rw [List.filterMap_cons, List.filterMap_cons, ← hhead, ih hrest]
  | delete hreference _ ih =>
      rw [List.filterMap_cons_some hreference, verdictsOn] at hverdicts
      obtain ⟨hhead, hrest⟩ := List.cons.inj hverdicts
      rw [hhead] at hrest
      rw [List.filterMap_cons_none rfl]
      exact ih hrest
  | keepOther hreference _ ih =>
      rw [List.filterMap_cons_none hreference] at hverdicts ⊢
      exact ih hverdicts
  | deleteOther hreference _ ih =>
      rw [List.filterMap_cons_none hreference] at hverdicts
      exact ih hverdicts

/-! ## Pruned declarations -/

/-- Of a declaration of the file, this is left when something is deleted that came to nothing. -/
inductive PrunedDeclaration (find : String → Option Symbol) (file : SourceFile)
    (d : Declaration) : Declaration → Prop
  /-- Nothing is deleted. -/
  | unchanged : PrunedDeclaration find file d d
  /-- Arguments of the first marker are deleted whose references were skipped. -/
  | arguments (plan : Plan) (before after : List Attribute) (a : Attribute)
      (arguments kept : List String)
      (discovery_eq : g.strategy.discovery = .markerArguments)
      (isCandidate : g.isCandidate d = true)
      (plan_eq : ((g.plan d file).run find .idle).result = .ok plan)
      (attributes_eq : d.attributes = before ++ a :: after)
      (not_isMarker : ∀ b ∈ before, g.settings.isMarker b.name = false)
      (isMarker : g.settings.isMarker a.name = true)
      (arguments_eq : a.arguments = some arguments)
      (pruned : Pruned (some ∘ argumentName) arguments plan.verdicts kept) :
      PrunedDeclaration find file d
        { d with attributes := before ++ { a with arguments := some kept } :: after }
  /-- Entries of the base list are deleted whose references were skipped, and others that are no
  names. -/
  | entries (plan : Plan) (kept : List BaseEntry)
      (discovery_eq : g.strategy.discovery = .baseList)
      (isCandidate : g.isCandidate d = true)
      (plan_eq : ((g.plan d file).run find .idle).result = .ok plan)
      (pruned : Pruned BaseEntry.name? d.baseList plan.verdicts kept) :
      PrunedDeclaration find file d { d with baseList := kept }
  /-- Entries of the base list are deleted of a declaration that is not read at all. -/
  | unreadEntries (kept : List BaseEntry)
      (discovery_eq : g.strategy.discovery = .baseList)
      (isCandidate : g.isCandidate d = false)
      (sublist : kept.Sublist d.baseList) :
      PrunedDeclaration find file d { d with baseList := kept }

/-- The file with its declarations pruned. -/
structure PrunedFile (find : String → Option Symbol) (file file' : SourceFile) : Prop where
  path_eq : file'.path = file.path
  usings_eq : file'.usings = file.usings
  declarations_pruned :
    List.Forall₂ (g.PrunedDeclaration find file) file.declarations file'.declarations

/-- The verdicts of a plan are those on the references that the declaration asks for. -/
theorem verdicts_of_plan {d : Declaration} {file : SourceFile} {plan : Plan}
    {references : List String} (hc : g.isCandidate d = true)
    (hplan : ((g.plan d file).run find .idle).result = .ok plan)
    (hasked : g.asked d = .ok references) :
    plan.verdicts = g.verdictsOn find file.importPaths [] references := by
  have hread : g.references d = .ok references := by
    rw [asked, if_pos hc] at hasked
    exact hasked
  rw [run_idle, g.ending_plan, hread] at hplan
  cases hplan
  rfl

/-- No interface is read. -/
theorem isInterface_of_isCandidate {d : Declaration} (h : g.isCandidate d = true) :
    d.isInterface = false := by
  unfold isCandidate at h
  cases hdiscovery : g.strategy.discovery with
  | markerArguments =>
      rw [hdiscovery] at h
      exact (Declaration.isMarkedCandidate_iff.1 h).1
  | baseList =>
      rw [hdiscovery] at h
      exact (Declaration.isBaseListCandidate_iff.1 h).1

/-- What is asked for with a marker are the arguments of the first one. -/
theorem asked_of_first {d : Declaration} {before after : List Attribute} {a : Attribute}
    {arguments : List String} (hg : g.strategy.discovery = .markerArguments)
    (hinterface : d.isInterface = false) (hattributes : d.attributes = before ++ a :: after)
    (hbefore : ∀ b ∈ before, g.settings.isMarker b.name = false)
    (ha : g.settings.isMarker a.name = true) (harguments : a.arguments = some arguments) :
    g.asked d = .ok (arguments.filterMap (some ∘ argumentName)) := by
  have hmarker := Declaration.marker?_of_first hattributes hbefore ha
  rw [g.asked_of_markerArguments hg hmarker, hinterface, harguments, List.filterMap_eq_map]
  rfl

/-- What is asked for with a base list are its names. -/
theorem asked_eq_baseReferences {d : Declaration} (hg : g.strategy.discovery = .baseList)
    (hinterface : d.isInterface = false) : g.asked d = baseReferences d.baseList := by
  rw [g.asked_of_baseList hg, hinterface]
  rfl

/-- A base list that is not read is empty, or that of an interface. -/
theorem asked_of_not_candidate {d : Declaration} (hg : g.strategy.discovery = .baseList)
    (hc : g.isCandidate d = false) {kept : List BaseEntry} (h : kept.Sublist d.baseList) :
    g.asked { d with baseList := kept } = .ok [] := by
  cases hinterface : d.isInterface with
  | true =>
      rw [g.asked_of_baseList hg]
      exact if_pos hinterface
  | false =>
      have hempty : d.baseList = [] := by
        by_contra hne
        have hcandidate := Declaration.isBaseListCandidate_iff.2 ⟨hinterface, hne⟩
        rw [isCandidate, hg] at hc
        exact absurd (hc.symm.trans hcandidate) (by decide)
      rw [hempty, List.sublist_nil] at h
      rw [h]
      exact g.asked_eq_baseReferences hg hinterface

/-- What is left of a declaration is of the same type, can be read, and asks for references that
make the same contracts. -/
theorem exists_asked_of_pruned {file : SourceFile} {d d' : Declaration}
    (h : g.PrunedDeclaration find file d d') {references : List String}
    (hasked : g.asked d = .ok references) :
    TargetType.ofDeclaration d' file [] = .ofDeclaration d file [] ∧
      ∃ left, g.asked d' = .ok left ∧
        (g.verdictsOn find file.importPaths [] left).filterMap Verdict.contract? =
          (g.verdictsOn find file.importPaths [] references).filterMap Verdict.contract? := by
  cases h with
  | unchanged => exact ⟨rfl, references, hasked, rfl⟩
  | arguments plan before after a arguments kept hg hc hplan hattributes hbefore ha harguments
      hpruned =>
      have hinterface := g.isInterface_of_isCandidate hc
      have hread := g.asked_of_first hg hinterface hattributes hbefore ha harguments
      have hreferences : references = arguments.filterMap (some ∘ argumentName) :=
        Except.ok.inj (hasked.symm.trans hread)
      rw [g.verdicts_of_plan hc hplan hasked, hreferences] at hpruned
      refine ⟨rfl, kept.filterMap (some ∘ argumentName), ?_, ?_⟩
      · exact g.asked_of_first hg hinterface rfl hbefore ha rfl
      · rw [hreferences]
        exact g.contracts_of_pruned hpruned
  | entries plan kept hg hc hplan hpruned =>
      have hinterface := g.isInterface_of_isCandidate hc
      have hread := g.asked_eq_baseReferences hg hinterface
      obtain ⟨hknown, hreferences⟩ := baseReferences_eq_ok_iff.1 (hread.symm.trans hasked)
      rw [g.verdicts_of_plan hc hplan hasked, hreferences] at hpruned
      have hkept : g.asked { d with baseList := kept } = baseReferences kept :=
        g.asked_eq_baseReferences hg hinterface
      refine ⟨rfl, kept.filterMap BaseEntry.name?, ?_, ?_⟩
      · rw [hkept]
        exact baseReferences_eq_ok_iff.2 ⟨fun e he => hknown e (hpruned.sublist.subset he), rfl⟩
      · rw [hreferences]
        exact g.contracts_of_pruned hpruned
  | unreadEntries kept hg hc hsub =>
      have hread := g.asked_of_not_candidate hg hc (List.Sublist.refl d.baseList)
      have hnone : references = [] := Except.ok.inj (hasked.symm.trans hread)
      rw [hnone]
      exact ⟨rfl, [], g.asked_of_not_candidate hg hc hsub, rfl⟩

/-! ## Contributions -/

/-- The type of a contract without its references. -/
def plainPair (p : TargetType × Contract) : TargetType × Contract := (p.1.withoutReferences, p.2)

theorem map_plainPair_contribution {file : SourceFile} {d : Declaration}
    {references : List String} (h : g.asked d = .ok references) :
    (g.contribution find (file, d)).map plainPair =
      ((g.verdictsOn find file.importPaths [] references).filterMap Verdict.contract?).map
        fun contract => (TargetType.ofDeclaration d file [], contract) := by
  unfold contribution acceptancesIn
  dsimp only
  unfold asked at h
  by_cases hc : g.isCandidate d = true
  · rw [if_pos hc] at h
    rw [if_pos hc, h]
    dsimp only
    have hpairs : ((g.verdictsOn find file.importPaths [] references).filterMap
        Verdict.contract?).map (fun contract =>
          (TargetType.ofDeclaration d file references, contract)) = _ :=
      g.pairs_verdictsOn (.ofDeclaration d file references) [] references
    rw [← hpairs, List.map_map]
    rfl
  · rw [if_neg hc] at h
    cases h
    rw [if_neg hc]
    rfl

/-- The files of a pass depend on what the declarations contribute, and on the types only without
their references. -/
theorem filesFor_contributions_congr {xs ys : List (SourceFile × Declaration)}
    (h : (xs.flatMap (g.contribution find)).map plainPair =
      (ys.flatMap (g.contribution find)).map plainPair) :
    g.filesFor [] (g.implemented find xs) = g.filesFor [] (g.implemented find ys) := by
  have hplain : ∀ ps : List (TargetType × Contract),
      g.filesFor [] (firstsBy pairIdentity [] ps) =
        g.filesFor [] (firstsBy pairIdentity [] (ps.map plainPair)) := by
    intro ps
    rw [firstsBy_map]
    exact (g.filesFor_withoutReferences [] _).symm
  rw [implemented_eq, implemented_eq, hplain, h, ← hplain]

/-! ## Pruned programs -/

/-- If every list can be read, reading goes through. -/
theorem readThrough_of_asked {declarations : List (SourceFile × Declaration)}
    (h : ∀ x ∈ declarations, ∃ references, g.asked x.2 = .ok references) :
    g.readThrough declarations = .ok () := by
  induction declarations with
  | nil => rfl
  | cons x rest ih =>
      obtain ⟨⟨references, hasked⟩, hrest⟩ := List.forall_mem_cons.1 h
      rw [readThrough_cons, hasked, ih hrest]
      rfl

/-- One declaration for another, which is left of it or is it. -/
structure Replaces (find : String → Option Symbol) (x y : SourceFile × Declaration) : Prop where
  importPaths_eq : y.1.importPaths = x.1.importPaths
  pruned : g.PrunedDeclaration find x.1 x.2 y.2

theorem forall₂_replaces_declarations {files files' : List SourceFile}
    (h : List.Forall₂ (g.PrunedFile find) files files') :
    List.Forall₂ (g.Replaces find) (Host.declarations ⟨files, find⟩)
      (Host.declarations ⟨files', find⟩) := by
  induction h with
  | nil => exact List.Forall₂.nil
  | cons hfile _ ih =>
      rename_i file file' files files' _
      have hpaths : file'.importPaths = file.importPaths := by
        unfold SourceFile.importPaths
        rw [hfile.usings_eq]
      refine List.rel_append ?_ ih
      rw [List.forall₂_map_left_iff, List.forall₂_map_right_iff]
      exact hfile.declarations_pruned.imp fun d d' hd => ⟨hpaths, hd⟩

theorem exists_asked_of_replaces {x y : SourceFile × Declaration} (h : g.Replaces find x y)
    {references : List String} (hasked : g.asked x.2 = .ok references) :
    (∃ left, g.asked y.2 = .ok left) ∧
      (g.contribution find y).map plainPair = (g.contribution find x).map plainPair := by
  obtain ⟨file, d⟩ := x
  obtain ⟨file', d'⟩ := y
  obtain ⟨hpaths, hpruned⟩ := h
  obtain ⟨htarget, left, hleft, hcontracts⟩ := g.exists_asked_of_pruned hpruned hasked
  have htarget' : TargetType.ofDeclaration d' file' [] = .ofDeclaration d file [] := by
    rw [← htarget]
    unfold TargetType.ofDeclaration
    dsimp only at hpaths
    rw [hpaths]
  refine ⟨⟨left, hleft⟩, ?_⟩
  dsimp only at hpaths hasked
  rw [g.map_plainPair_contribution hleft, g.map_plainPair_contribution hasked, htarget', hpaths,
    hcontracts]

/-- Reading goes through a program that is pruned, and it contributes the same. -/
theorem forall_asked_of_replaces {xs ys : List (SourceFile × Declaration)}
    (h : List.Forall₂ (g.Replaces find) xs ys)
    (hasked : ∀ x ∈ xs, ∃ references, g.asked x.2 = .ok references) :
    (∀ y ∈ ys, ∃ left, g.asked y.2 = .ok left) ∧
      (ys.flatMap (g.contribution find)).map plainPair =
        (xs.flatMap (g.contribution find)).map plainPair := by
  induction h with
  | nil => exact ⟨fun _ hy => absurd hy List.not_mem_nil, rfl⟩
  | cons hxy _ ih =>
      obtain ⟨⟨references, hx⟩, hrest⟩ := List.forall_mem_cons.1 hasked
      obtain ⟨hy, hsame⟩ := g.exists_asked_of_replaces hxy hx
      obtain ⟨hys, hsames⟩ := ih hrest
      refine ⟨List.forall_mem_cons.2 ⟨hy, hys⟩, ?_⟩
      rw [List.flatMap_cons, List.flatMap_cons, List.map_append, List.map_append, hsame, hsames]

/--
When a pass returns, and anything is deleted from the declarations whose reference was skipped, or
that is an entry of a base list and no name, then the pass over what is left comes to the very same
result: the same files with the same names, in the same order.
-/
theorem result_pruned (host : Host) (files : List SourceFile) (report : Report)
    (h : (g.runOn host .idle).result = .ok report)
    (hfiles : List.Forall₂ (g.PrunedFile host.find) host.files files) :
    (g.runOn { host with files := files } .idle).result = .ok report := by
  rw [runOn, run_idle] at h ⊢
  dsimp only at h ⊢
  rw [ending_generate_eq] at h ⊢
  have hread : g.readThrough host.declarations = .ok () := by
    cases hread : g.readThrough host.declarations with
    | error fault =>
        rw [hread] at h
        cases h
    | ok _ => rfl
  obtain ⟨hasked, hcontributions⟩ := g.forall_asked_of_replaces
    (g.forall₂_replaces_declarations hfiles) (g.exists_asked_of_readThrough hread)
  rw [g.readThrough_of_asked hasked, g.filesFor_contributions_congr hcontributions, ← h, hread]

end Generator

/-! ## Two lists that are pruned -/

/-- A class whose base list comes to nothing. -/
def Declaration.barren : Declaration :=
  { Declaration.mixed with
    name := "Bar"
    baseList := [⟨"Base", "identifier"⟩, ⟨"int", "predefined"⟩] }

def Compilation.overgrown : Compilation where
  files := [⟨"Foo.cs", ["using N;"], [.mixed, .barren]⟩]
  symbols := Compilation.mixed.symbols

/-- Of the one list an interface and a base class are left, and nothing of the other. -/
def SourceFile.trimmed : SourceFile where
  path := "Foo.cs"
  usings := ["using N;"]
  declarations := [
    { Declaration.mixed with baseList := [⟨"IBar", "identifier"⟩, ⟨"Base", "identifier"⟩] },
    { Declaration.barren with baseList := [] }]

theorem result_pruned_overgrown :
    ∃ report,
      ((Generator.mk .inherited .usual).runOn Compilation.overgrown.host .idle).result =
        .ok report ∧
      List.Forall₂ ((Generator.mk .inherited .usual).PrunedFile Compilation.overgrown.host.find)
        Compilation.overgrown.host.files [.trimmed] ∧
      ((Generator.mk .inherited .usual).runOn
        { Compilation.overgrown.host with files := [.trimmed] } .idle).result = .ok report ∧
      report.files.map GeneratedFile.hintName =
        ["AutoImplementAttribute.g.cs", "Foo_IBar.g.cs"] := by
  obtain ⟨report, hreport, hnames⟩ : ∃ report,
      ((Generator.mk .inherited .usual).runOn Compilation.overgrown.host .idle).result =
        .ok report ∧
      report.files.map GeneratedFile.hintName =
        ["AutoImplementAttribute.g.cs", "Foo_IBar.g.cs"] :=
    ⟨_, rfl, by decide +kernel⟩
  have hmixed : (Generator.mk .inherited .usual).PrunedDeclaration Compilation.overgrown.host.find
      ⟨"Foo.cs", ["using N;"], [.mixed, .barren]⟩ .mixed
      { Declaration.mixed with
        baseList := [⟨"IBar", "identifier"⟩, ⟨"Base", "identifier"⟩] } := by
    obtain ⟨plan, hplan, hverdicts⟩ : ∃ plan, (((Generator.mk .inherited .usual).plan .mixed
        ⟨"Foo.cs", ["using N;"], [.mixed, .barren]⟩).run Compilation.overgrown.host.find
          .idle).result = .ok plan ∧
        plan.verdicts = [.skipped "IPlain" .notMarked,
          .accepted (.ofSymbol "IBar" (.markedInterface "N" "IBar") (some .display)),
          .skipped "" .empty, .skipped "Base" .unresolved, .skipped "N.IBar" .duplicate] :=
      ⟨_, rfl, by decide +kernel⟩
    refine .entries plan _ rfl (by decide +kernel) hplan ?_
    have hbar : BaseEntry.name? ⟨"IBar", "identifier"⟩ = some "IBar" := by decide +kernel
    have hbase : BaseEntry.name? ⟨"Base", "identifier"⟩ = some "Base" := by decide +kernel
    rw [hverdicts]
    exact .delete (by decide +kernel) <| .keep hbar <| .deleteOther (by decide +kernel) <|
      .delete (by decide +kernel) <| .keep hbase <| .delete (by decide +kernel) .nil
  have hbarren : (Generator.mk .inherited .usual).PrunedDeclaration
      Compilation.overgrown.host.find ⟨"Foo.cs", ["using N;"], [.mixed, .barren]⟩ .barren
      { Declaration.barren with baseList := [] } := by
    obtain ⟨plan, hplan, hverdicts⟩ : ∃ plan, (((Generator.mk .inherited .usual).plan .barren
        ⟨"Foo.cs", ["using N;"], [.mixed, .barren]⟩).run Compilation.overgrown.host.find
          .idle).result = .ok plan ∧ plan.verdicts = [.skipped "Base" .unresolved] :=
      ⟨_, rfl, by decide +kernel⟩
    refine .entries plan _ rfl (by decide +kernel) hplan ?_
    rw [hverdicts]
    exact .delete (by decide +kernel) (.deleteOther (by decide +kernel) .nil)
  have hfiles : List.Forall₂
      ((Generator.mk .inherited .usual).PrunedFile Compilation.overgrown.host.find)
      Compilation.overgrown.host.files [.trimmed] :=
    .cons ⟨rfl, rfl, .cons hmixed (.cons hbarren .nil)⟩ .nil
  exact ⟨report, hreport, hfiles,
    Generator.result_pruned (.mk .inherited .usual) _ _ report hreport hfiles, hnames⟩

end PropertyWeaver
