import PropertyWeaver.Proofs.Accounting
import PropertyWeaver.Proofs.Pruning

/-!
# Passes without the filter

Before a declaration is planned, a pass asks whether it is worth reading at all.  The question is
cheap, and each discovery answers it by other means than those by which references are read.  What
matters is that the two agree: a declaration that is turned down makes no references, interfaces
apart, which are never read.

A driver that does not ask plans every declaration but the interfaces.  The two passes differ in the
observations and in the records of what was read, and in nothing that a host without a token can see
besides.  So they are compared as scripts, with these requests left out (`hushed`).  Planning for a
declaration that was turned down is then no request at all, and gives a plan without contracts
(`plan_of_not_candidate`).  Files are made of contracts only, so whatever is made of the contracts
of all plans is the same under both drivers; this is the form in which `hushed_planAll` goes by
induction on the declarations.

## Main results

* `run_hushed` — what an undisturbed run shows of a script with requests left out.
* `references_of_not_candidate` — the filter and the reading of references agree.
* `hushed_planAll` — planning with the filter, and without it.
* `candidate_filter_lossless` — a pass without the filter makes the same files.
-/

namespace PropertyWeaver

namespace Script

variable {α β : Type} {find : String → Option Symbol}

/-! ## Leaving requests out -/

/-- The script without its observations, and with those of its records that are kept. -/
def hushed (keep : Record → Bool) : Script α → Script α
  | done value => done value
  | fail fault => fail fault
  | observe _ next => next.hushed keep
  | lookup name next => lookup name fun symbol => (next symbol).hushed keep
  | log record next =>
    if keep record then log record (next.hushed keep) else next.hushed keep

theorem hushed_bind (keep : Record → Bool) (s : Script α) (f : α → Script β) :
    (s.bind f).hushed keep = (s.hushed keep).bind fun value => (f value).hushed keep := by
  induction s with
  | done value => rfl
  | fail fault => rfl
  | observe stage next ih => exact ih
  | lookup name next ih => exact congrArg (lookup name) (funext ih)
  | log record next ih =>
      simp only [bind, hushed, ih]
      split
      · rfl
      · rfl

theorem hushed_logAll (keep : Record → Bool) (records : List Record) :
    (logAll records).hushed keep = logAll (records.filter keep) := by
  induction records with
  | nil => rfl
  | cons record records ih =>
      rw [logAll, hushed, List.filter_cons, ih]
      split
      · rfl
      · rfl

/-- An undisturbed run does not show what was left out, and shows everything else. -/
theorem run_hushed (keep : Record → Bool) (s : Script α) :
    (s.hushed keep).run find .idle =
      ⟨s.ending find, (s.trace find).records.filter keep, (s.trace find).names, .idle⟩ := by
  induction s with
  | done value => rfl
  | fail fault => rfl
  | observe stage next ih => exact ih
  | lookup name next ih =>
      rw [hushed, run_lookup_idle, ih]
      rfl
  | log record next ih =>
      rw [hushed, trace, Trace.records, List.filter_cons]
      split
      · rw [run, ih]
        rfl
      · exact ih

end Script

open Script

/-- The declarations that are not interfaces. -/
def nonInterfaces (declarations : List (SourceFile × Declaration)) :
    List (SourceFile × Declaration) :=
  declarations.filter fun x => !x.2.isInterface

theorem nonInterfaces_cons_of_true {file : SourceFile} {d : Declaration}
    (h : d.isInterface = true) (xs : List (SourceFile × Declaration)) :
    nonInterfaces ((file, d) :: xs) = nonInterfaces xs := by
  simp [nonInterfaces, h]

theorem nonInterfaces_cons_of_false {file : SourceFile} {d : Declaration}
    (h : d.isInterface = false) (xs : List (SourceFile × Declaration)) :
    nonInterfaces ((file, d) :: xs) = (file, d) :: nonInterfaces xs := by
  simp [nonInterfaces, h]

namespace Generator

variable (g : Generator) {find : String → Option Symbol}

/-! ## Declarations that are turned down -/

/-- A declaration that is turned down makes no references, unless it is an interface. -/
theorem references_of_not_candidate {d : Declaration} (hinterface : d.isInterface = false)
    (h : ¬ g.isCandidate d = true) : g.references d = .ok [] := by
  unfold isCandidate at h
  unfold references
  cases hdiscovery : g.strategy.discovery with
  | markerArguments =>
      rw [hdiscovery] at h
      have hnone : d.marker? g.settings = none := by
        rw [← Option.not_isSome_iff_eq_none]
        intro hsome
        apply h
        show (!d.isInterface && (d.marker? g.settings).isSome) = true
        rw [hinterface, hsome]
        rfl
      show Except.ok (d.markerReferences g.settings) = .ok []
      rw [Declaration.markerReferences, hnone]
      rfl
  | baseList =>
      rw [hdiscovery] at h
      have hempty : d.baseList = [] := by
        by_contra hne
        exact h (Declaration.isBaseListCandidate_iff.2 ⟨hinterface, hne⟩)
      show baseReferences d.baseList = .ok []
      rw [hempty]
      rfl

/-- Planning for it is one observation, and comes to a plan without verdicts. -/
theorem plan_of_not_candidate {d : Declaration} (hinterface : d.isInterface = false)
    (h : ¬ g.isCandidate d = true) (file : SourceFile) :
    g.plan d file = observe .transform (done ⟨.ofDeclaration d file [], []⟩) := by
  unfold plan
  rw [g.references_of_not_candidate hinterface h]
  rfl

/-! ## Passes without the filter -/

/-- The plans for the declarations, worth reading or not. -/
def planEach : List (SourceFile × Declaration) → Script (List Plan)
  | [] => return []
  | (file, d) :: rest => do
    let plan ← g.plan d file
    let plans ← planEach rest
    return plan :: plans

/-- The files for all declarations but the interfaces, worth reading or not. -/
def emitUnfiltered (declarations : List (SourceFile × Declaration)) :
    Script (List GeneratedFile) := do
  let plans ← g.planEach (nonInterfaces declarations)
  g.emit plans

/-- The files for contracts, each given with its target, and a record of each placement. -/
def emitPairs (pairs : List (TargetType × Contract)) : Script (List GeneratedFile) := do
  let placements := g.place ⟨[], []⟩ pairs
  Script.logAll (placements.map g.placementRecord)
  return placements.filterMap Placement.file?

theorem filter_not_isReading_planRecords (path : String) (p : Plan) :
    (g.planRecords path p).filter (fun r => !r.isReading) = [] := by
  rw [List.filter_eq_nil_iff]
  intro r hr
  rw [planRecords, List.mem_cons, List.mem_map] at hr
  rcases hr with rfl | ⟨miss, -, rfl⟩
  · exact Bool.false_ne_true
  · exact Bool.false_ne_true

/-- Whatever is done with the contracts of all plans, it is done with the same ones under both
drivers, after the same lookups. -/
theorem hushed_planAll {β : Type} (declarations : List (SourceFile × Declaration))
    (next : List (TargetType × Contract) → Script β) :
    ((g.planAll declarations).bind fun plans => next (plans.flatMap Plan.pairs)).hushed
        (fun r => !r.isReading) =
      ((g.planEach (nonInterfaces declarations)).bind fun plans =>
        next (plans.flatMap Plan.pairs)).hushed (fun r => !r.isReading) := by
  induction declarations generalizing next with
  | nil => rfl
  | cons x rest ih =>
      obtain ⟨file, d⟩ := x
      by_cases hc : g.isCandidate d = true
      · -- The contracts of this plan are part of what is done with those of the rest.
        have hrest := fun plan : Plan => ih fun pairs => next (plan.pairs ++ pairs)
        simp only [hushed_bind] at hrest
        rw [nonInterfaces_cons_of_false (g.isInterface_of_isCandidate hc), planAll, planEach,
          if_pos hc]
        simp only [bind_eq, pure_eq, bind_checkpoint, Script.bind, bind_assoc, hushed,
          hushed_bind, hushed_logAll, filter_not_isReading_planRecords, logAll,
          List.flatMap_cons, hrest]
      · rw [planAll, if_neg hc, bind_eq, bind_checkpoint]
        cases hinterface : d.isInterface with
        | true =>
            rw [nonInterfaces_cons_of_true hinterface]
            exact ih next
        | false =>
            rw [nonInterfaces_cons_of_false hinterface, planEach,
              g.plan_of_not_candidate hinterface hc]
            simp only [bind_eq, pure_eq, Script.bind, bind_assoc, hushed, List.flatMap_cons]
            exact ih next

/-- The report of a pass that has generated these files. -/
def reportOf (files : List GeneratedFile) : Report :=
  { strategy := g.strategy.text, files := g.markerFile :: files }

/-- A pass does what the driver without the filter does, and reports on it; in between it logs what
it has read. -/
theorem hushed_generate (declarations : List (SourceFile × Declaration)) :
    (g.generate declarations).hushed (fun r => !r.isReading) =
      ((g.emitUnfiltered declarations).bind fun files => done (g.reportOf files)).hushed
        (fun r => !r.isReading) := by
  have hplans := g.hushed_planAll declarations fun pairs =>
    (g.emitPairs pairs).bind fun files => done (g.reportOf files)
  rw [emitUnfiltered, bind_eq, bind_assoc]
  exact hplans

theorem records_trace_planEach (declarations : List (SourceFile × Declaration)) :
    Trace.records ((g.planEach declarations).trace find) = [] := by
  induction declarations with
  | nil => rfl
  | cons x rest ih =>
      obtain ⟨file, d⟩ := x
      rw [planEach, bind_eq]
      cases hplan : (g.plan d file).ending find with
      | error fault => rw [trace_bind_of_error hplan, records_trace_plan]
      | ok plan =>
          rw [trace_bind_of_ok hplan, Trace.records_append, records_trace_plan, bind_eq,
            trace_bind_pure, ih, List.append_nil]

/-- The driver without the filter generates what a report counts as implementations, and logs
nothing but placements. -/
theorem emitUnfiltered_implements (find : String → Option Symbol)
    (declarations : List (SourceFile × Declaration)) :
    (∀ files, (g.emitUnfiltered declarations).ending find = .ok files →
      (g.reportOf files).implementations = files) ∧
    (Trace.records ((g.emitUnfiltered declarations).trace find)).filter (fun r => !r.isReading) =
      Trace.records ((g.emitUnfiltered declarations).trace find) := by
  rw [emitUnfiltered, bind_eq]
  cases hplans : (g.planEach (nonInterfaces declarations)).ending find with
  | error fault =>
      rw [ending_bind_of_error hplans, trace_bind_of_error hplans, records_trace_planEach]
      exact ⟨nofun, rfl⟩
  | ok plans =>
      rw [ending_bind_of_ok hplans, trace_bind_of_ok hplans, Trace.records_append,
        records_trace_planEach, List.nil_append, ending_emit, trace_emit, Trace.records_ofRecords]
      constructor
      · intro files hfiles
        cases hfiles
        exact g.implementations_of_files rfl
      · rw [List.filter_eq_self]
        intro r hr
        obtain ⟨placement, -, rfl⟩ := List.mem_map.1 hr
        rw [g.isReading_placementRecord]
        rfl

/-! ## Interfaces -/

theorem hushed_planAll_nonInterfaces (keep : Record → Bool)
    (declarations : List (SourceFile × Declaration)) :
    (g.planAll (nonInterfaces declarations)).hushed keep =
      (g.planAll declarations).hushed keep := by
  induction declarations with
  | nil => rfl
  | cons x rest ih =>
      obtain ⟨file, d⟩ := x
      cases hinterface : d.isInterface with
      | true =>
          have hc : ¬ g.isCandidate d = true := by
            intro hcandidate
            rw [g.isInterface_of_isCandidate hcandidate] at hinterface
            cases hinterface
          rw [nonInterfaces_cons_of_true hinterface, planAll, if_neg hc]
          exact ih
      | false =>
          rw [nonInterfaces_cons_of_false hinterface, planAll, planAll]
          split
          · simp only [bind_eq, bind_checkpoint, hushed, hushed_bind, ih]
          · exact ih

/-- For all that a host without a token can see, a pass does not look at interfaces. -/
theorem run_generate_nonInterfaces (declarations : List (SourceFile × Declaration)) :
    (g.generate (nonInterfaces declarations)).run find .idle =
      (g.generate declarations).run find .idle := by
  have hall : ∀ s : Script Report, (s.hushed fun _ => true).run find .idle = s.run find .idle := by
    intro s
    rw [run_hushed, run_idle, List.filter_true]
  rw [← hall, ← hall (g.generate declarations)]
  unfold generate
  rw [bind_eq, bind_eq, hushed_bind, hushed_bind, hushed_planAll_nonInterfaces]

/-- Every plan of a pass is for a candidate, and so for a type that is not an interface. -/
theorem forall₂_reads_nonInterface {declarations : List (SourceFile × Declaration)}
    {plans : List Plan} (h : (g.planAll declarations).ending find = .ok plans) :
    List.Forall₂ (fun x p => g.Reads find x p ∧ p.target.keyword ≠ "interface")
      (g.candidates declarations) plans := by
  have hcandidates : ∀ x ∈ g.candidates declarations, x.2.isInterface = false :=
    fun _ hx => g.isInterface_of_isCandidate (List.mem_filter.1 hx).2
  refine ((List.forall₂_and_left _ _).2 ⟨hcandidates, g.forall₂_reads_of_planAll h⟩).imp ?_
  rintro x p ⟨hinterface, hreads⟩
  have hkeyword : p.target.keyword = x.2.keyword := by
    rw [hreads.target_eq]
    rfl
  refine ⟨hreads, ?_⟩
  rw [hkeyword]
  simpa [Declaration.isInterface] using hinterface

/-! ## The filter -/

/-- What the driver without the filter shows can be read off what a pass shows. -/
theorem run_emitUnfiltered (host : Host) :
    (g.emitUnfiltered host.declarations).run host.find .idle =
      { result := (g.runOn host .idle).result.map Report.implementations
        log := (g.runOn host .idle).log.filter fun r => !r.isReading
        probes := (g.runOn host .idle).probes
        token := .idle } := by
  obtain ⟨himplement, hlog⟩ := g.emitUnfiltered_implements host.find host.declarations
  have htrace : ((g.emitUnfiltered host.declarations).bind fun files =>
      done (g.reportOf files)).trace host.find =
        (g.emitUnfiltered host.declarations).trace host.find := trace_bind_pure _ _
  have hruns := congrArg (Script.run host.find · .idle) (g.hushed_generate host.declarations)
  rw [run_hushed, run_hushed, htrace, hlog] at hruns
  obtain ⟨hending, hrecords, hnames, -⟩ := Outcome.mk.inj hruns
  rw [runOn, run_idle, run_idle, hending, hrecords, hnames]
  cases hfiles : (g.emitUnfiltered host.declarations).ending host.find with
  | error fault =>
      rw [ending_bind_of_error hfiles]
      rfl
  | ok files =>
      rw [ending_bind_of_ok hfiles]
      show _ = Outcome.mk (.ok (g.reportOf files).implementations) _ _ _
      rw [himplement files hfiles]

/--
The filter loses nothing.  A driver that plans every declaration but the interfaces, worth reading
or not, comes to the implementations of the report or to the fault of a pass with the filter, looks
up the same names in the same order, and logs the same placements.  Of a declaration that is turned
down, interfaces apart, there is nothing to read: it makes no references, and its plan is made
without a lookup or a fault, and without accepting or skipping anything.  Interfaces do not count at
all: the report is made of the plans for the candidates, none of which is an interface, and a pass
is the same when the interfaces are taken out of the program.
-/
theorem candidate_filter_lossless (host : Host) :
    (g.emitUnfiltered host.declarations).run host.find .idle =
        { result := (g.runOn host .idle).result.map Report.implementations
          log := (g.runOn host .idle).log.filter fun r => !r.isReading
          probes := (g.runOn host .idle).probes
          token := .idle } ∧
      (∀ (d : Declaration) (file : SourceFile), d.isInterface = false → ¬ g.isCandidate d = true →
        g.references d = .ok [] ∧
          (g.plan d file).run host.find .idle =
            ⟨.ok ⟨.ofDeclaration d file [], []⟩, [], [], .idle⟩) ∧
      (∀ report, (g.runOn host .idle).result = .ok report →
        ∃ plans, report.files = g.markerFile :: g.filesOf plans ∧
          List.Forall₂ (fun x p => g.Reads host.find x p ∧ p.target.keyword ≠ "interface")
            (g.candidates host.declarations) plans) ∧
      (g.generate (nonInterfaces host.declarations)).run host.find .idle = g.runOn host .idle := by
  refine ⟨g.run_emitUnfiltered host, ?_, ?_, g.run_generate_nonInterfaces _⟩
  · intro d file hinterface hc
    refine ⟨g.references_of_not_candidate hinterface hc, ?_⟩
    rw [g.plan_of_not_candidate hinterface hc]
    rfl
  · intro report hreport
    rw [runOn, run_idle] at hreport
    obtain ⟨plans, hplans, hfiles⟩ := g.files_of_ending_generate hreport
    exact ⟨plans, hfiles, g.forall₂_reads_nonInterface hplans⟩

end Generator

/-! ## A file of all kinds -/

/-- An interface with a base list, a class with the same one, and a class without. -/
def SourceFile.allKinds : SourceFile :=
  ⟨"Foo.cs", ["using N;"], [{ Declaration.mixed with name := "IFoo", keyword := "interface" },
    .mixed, { Declaration.mixed with name := "Plain", baseList := [] }]⟩

def Compilation.allKinds : Compilation where
  files := [.allKinds]
  symbols := Compilation.mixed.symbols

/-- One of the three declarations is a candidate, and it gets the same file under both drivers. -/
theorem candidate_filter_allKinds :
    (Generator.mk .inherited .usual).candidates Compilation.allKinds.host.declarations =
      [(.allKinds, .mixed)] ∧
    (∃ report plans,
      ((Generator.mk .inherited .usual).runOn Compilation.allKinds.host .idle).result =
        .ok report ∧
      report.files.map GeneratedFile.hintName = ["AutoImplementAttribute.g.cs", "Foo_IBar.g.cs"] ∧
      report.files = (Generator.mk .inherited .usual).markerFile ::
        (Generator.mk .inherited .usual).filesOf plans ∧
      plans.map (fun p => p.target.keyword) = ["class"] ∧
      (((Generator.mk .inherited .usual).emitUnfiltered
        Compilation.allKinds.host.declarations).run Compilation.allKinds.lookup .idle).result =
          .ok report.implementations) ∧
    (Generator.mk .inherited .usual).references
      { Declaration.mixed with name := "Plain", baseList := [] } = .ok [] := by
  obtain ⟨hdriver, hrejected, hplans, -⟩ :=
    Generator.candidate_filter_lossless (.mk .inherited .usual) Compilation.allKinds.host
  obtain ⟨report, hreport, hnames⟩ : ∃ report,
      ((Generator.mk .inherited .usual).runOn Compilation.allKinds.host .idle).result =
        .ok report ∧
      report.files.map GeneratedFile.hintName =
        ["AutoImplementAttribute.g.cs", "Foo_IBar.g.cs"] :=
    ⟨_, rfl, by decide +kernel⟩
  have hcandidates : (Generator.mk .inherited .usual).candidates
      Compilation.allKinds.host.declarations = [(.allKinds, .mixed)] := by decide +kernel
  obtain ⟨plans, hfiles, hreads⟩ := hplans report hreport
  have hkeywords : plans.map (fun p => p.target.keyword) = ["class"] := by
    rw [hcandidates] at hreads
    obtain ⟨plan, rest, hread, hrest, rfl⟩ := List.forall₂_cons_left_iff.1 hreads
    rw [List.forall₂_nil_left_iff.1 hrest, List.map_singleton, hread.1.target_eq]
    rfl
  refine ⟨hcandidates, ⟨report, plans, hreport, hnames, hfiles, hkeywords, ?_⟩,
    (hrejected _ .allKinds rfl (by decide +kernel)).1⟩
  have hresult := congrArg Script.Outcome.result hdriver
  rw [hreport] at hresult
  exact hresult

end PropertyWeaver
