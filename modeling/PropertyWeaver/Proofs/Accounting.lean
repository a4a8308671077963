import PropertyWeaver.Proofs.Hosts
import PropertyWeaver.Proofs.Reading
import PropertyWeaver.Session

/-!
# The log as an account

A pass that returns has logged what became of every reference.  Each candidate gives one record,
which lists its references and the interfaces that they were resolved to, and after it one record
for each reference that was skipped.  When all candidates have been read, each interface that was
resolved gives one more record: its file was generated, or dropped because an earlier one does.

So nothing is lost between the lists and the records.  A plan has one verdict on each reference, and
a verdict is either a contract or a miss; a placement is one for each contract; and a file is
generated exactly where the log says so, under the name that the log gives.  Each of these is a fact
about one list, and the counts of a whole pass are their sums.

## Main results

* `forall₂_reads_of_planAll` — a pass has one plan for each candidate.
* `map_pair_place` — what is placed are the contracts, each once and in their order.
* `log_accounts_for_references` — what a pass appends to its log, and how the numbers add up.
-/

namespace PropertyWeaver

open Script

/-! ## Counting records -/

/-- The value of one of the further fields of a record. -/
def Record.field? (name : String) (r : Record) : Option Value :=
  r.extra.bind (Value.field? name)

/-- What the record lists in one of its further fields. -/
def Record.listed (name : String) (r : Record) : List Value :=
  match r.field? name with
  | some (.list items) => items
  | _ => []

theorem Record.length_listed_of_texts {name : String} {r : Record} {items : List String}
    (h : r.field? name = some (.texts items)) : (r.listed name).length = items.length := by
  unfold listed
  rw [h]
  exact List.length_map _

theorem Event.text_inj {e e' : Event} : e.text = e'.text ↔ e = e' := by
  constructor
  · intro h
    have htext := congrArg Event.ofText? h
    simpa using htext
  · rintro rfl
    rfl

namespace Log

theorem ofEvent_append (log added : Log) (event : String) :
    ofEvent (log ++ added) event = log.ofEvent event ++ ofEvent added event :=
  List.filter_append _ _

theorem ofEvent_of_forall {log : Log} {e : Event} (h : ∀ r ∈ log, r.event = e) :
    log.ofEvent e.text = log := by
  refine List.filter_eq_self.2 ?_
  intro r hr
  rw [h r hr]
  exact beq_self_eq_true _

theorem ofEvent_of_forall_ne {log : Log} {e : Event} (h : ∀ r ∈ log, r.event ≠ e) :
    log.ofEvent e.text = [] := by
  refine List.filter_eq_nil_iff.2 ?_
  intro r hr heq
  exact h r hr (Event.text_inj.1 (beq_iff_eq.1 heq))

/-- How many records a log has of one event. -/
def count (e : Event) (log : Log) : Nat := (log.ofEvent e.text).length

/-- How much the candidates of a log list in one of their further fields. -/
def listed (name : String) (log : Log) : Nat :=
  ((log.ofEvent Event.candidate.text).flatMap (Record.listed name)).length

@[simp] theorem count_append (e : Event) (log added : Log) :
    count e (log ++ added) = log.count e + count e added := by
  rw [count, ofEvent_append, List.length_append]
  rfl

@[simp] theorem listed_append (name : String) (log added : Log) :
    listed name (log ++ added) = log.listed name + listed name added := by
  rw [listed, ofEvent_append, List.flatMap_append, List.length_append]
  rfl

theorem count_of_forall {log : Log} {e : Event} (h : ∀ r ∈ log, r.event = e) :
    log.count e = log.length := by
  rw [count, ofEvent_of_forall h]

theorem count_of_forall_ne {log : Log} {e : Event} (h : ∀ r ∈ log, r.event ≠ e) :
    log.count e = 0 := by
  rw [count, ofEvent_of_forall_ne h]
  rfl

theorem listed_of_forall_ne {log : Log} (h : ∀ r ∈ log, r.event ≠ .candidate) (name : String) :
    log.listed name = 0 := by
  rw [listed, ofEvent_of_forall_ne h]
  rfl

end Log

/-! ## Property lines -/

namespace Layout

/-- The lines of a file that come before the properties. -/
def heading (s : Settings) (t : TargetType) (c : Contract) (r : Rendering) (restates : Bool) :
    List String :=
  prelude s t c r ++ openings 0 t.containers ++
    [indent t.containers.length (typeHeader t c r restates), indent t.containers.length openBrace]

/-- The lines of a file that declare the properties of its contract. -/
def propertyLines (s : Settings) (t : TargetType) (c : Contract) : List String :=
  c.properties.map fun p => indent (t.containers.length + 1) (p.line s.visibility.text)

/-- Between its heading and the closing braces, a file has its property lines. -/
theorem lines_eq (s : Settings) (t : TargetType) (c : Contract) (r : Rendering)
    (restates : Bool) :
    lines s t c r restates =
      heading s t c r restates ++ propertyLines s t c ++ closings (t.containers.length + 1) := by
  unfold lines heading propertyLines body
  simp only [closings, List.append_assoc, List.cons_append, List.nil_append]

end Layout

/-! ## Verdicts and placements -/

/-- The reference that a verdict is on. -/
def Verdict.reference : Verdict → String
  | accepted contract => contract.name
  | skipped reference _ => reference

/-- The target and the contract that a placement is of. -/
def Placement.pair : Placement → TargetType × Contract
  | emitted target contract _ => (target, contract)
  | dropped target contract => (target, contract)

namespace Generator

variable (g : Generator) {find : String → Option Symbol}

theorem reference_verdictOn (imports seen : List String) (reference : String) :
    (g.verdictOn find imports seen reference).reference = reference := by
  unfold verdictOn
  split
  · rfl
  · split
    · rfl
    · split
      · rfl
      · rfl

/-- There is one verdict on each reference, in the order of the references. -/
theorem map_reference_verdictsOn (imports seen references : List String) :
    (g.verdictsOn find imports seen references).map Verdict.reference = references := by
  induction references generalizing seen with
  | nil => rfl
  | cons reference references ih =>
      rw [verdictsOn, List.map_cons, reference_verdictOn, ih]

/-- There is one placement of each contract, in the order of the contracts. -/
theorem map_pair_place (ledger : Ledger) (pairs : List (TargetType × Contract)) :
    (g.place ledger pairs).map Placement.pair = pairs := by
  induction pairs generalizing ledger with
  | nil => rfl
  | cons pair pairs ih =>
      obtain ⟨target, contract⟩ := pair
      simp only [place]
      split
      · rw [List.map_cons, ih]
        rfl
      · rw [List.map_cons, ih]
        rfl

/-! ## Plans of a pass -/

/-- The declarations that are worth reading, each with its file. -/
def candidates (declarations : List (SourceFile × Declaration)) :
    List (SourceFile × Declaration) :=
  declarations.filter fun x => g.isCandidate x.2

theorem candidates_cons_of_pos {x : SourceFile × Declaration} (h : g.isCandidate x.2 = true)
    (xs : List (SourceFile × Declaration)) : g.candidates (x :: xs) = x :: g.candidates xs :=
  List.filter_cons_of_pos h

theorem candidates_cons_of_neg {x : SourceFile × Declaration} (h : ¬ g.isCandidate x.2 = true)
    (xs : List (SourceFile × Declaration)) : g.candidates (x :: xs) = g.candidates xs :=
  List.filter_cons_of_neg h

/-- The plan is what becomes of the declaration, and has one verdict on each of the references that
the declaration makes. -/
structure Reads (find : String → Option Symbol) (x : SourceFile × Declaration) (p : Plan) :
    Prop where
  plan_eq : ((g.plan x.2 x.1).run find .idle).result = .ok p
  references_eq : g.references x.2 = .ok p.target.references
  target_eq : p.target = .ofDeclaration x.2 x.1 p.target.references
  verdicts_eq : p.verdicts.map Verdict.reference = p.target.references

theorem reads_of_ending_plan {x : SourceFile × Declaration} {p : Plan}
    (h : (g.plan x.2 x.1).ending find = .ok p) : g.Reads find x p := by
  have hplan := g.ending_plan find x.2 x.1
  cases hr : g.references x.2 with
  | error fault =>
      rw [hr, h] at hplan
      cases hplan
  | ok references =>
      rw [hr, h] at hplan
      injection hplan with hp
      subst hp
      refine ⟨?_, hr, rfl, ?_⟩
      · rw [run_idle]
        exact h
      · exact g.map_reference_verdictsOn _ [] references

namespace Reads

variable {g} {x : SourceFile × Declaration} {p : Plan}

theorem ending_plan (h : g.Reads find x p) : (g.plan x.2 x.1).ending find = .ok p := by
  have hplan := h.plan_eq
  rw [run_idle] at hplan
  exact hplan

/-- Every reference of a plan is accepted or skipped. -/
theorem length_references (h : g.Reads find x p) :
    p.target.references.length = p.contracts.length + p.misses.length := by
  have hverdicts := congrArg List.length h.verdicts_eq
  rw [List.length_map] at hverdicts
  rw [p.length_contracts_add_length_misses, hverdicts]

end Reads

/-- A pass has one plan for each candidate. -/
theorem forall₂_reads_of_planAll {declarations : List (SourceFile × Declaration)}
    {plans : List Plan} (h : (g.planAll declarations).ending find = .ok plans) :
    List.Forall₂ (g.Reads find) (g.candidates declarations) plans := by
  induction declarations generalizing plans with
  | nil =>
      cases h
      exact List.Forall₂.nil
  | cons x rest ih =>
      obtain ⟨file, d⟩ := x
      by_cases hc : g.isCandidate d = true
      · rw [g.candidates_cons_of_pos hc]
        cases hplan : (g.plan d file).ending find with
        | error fault =>
            rw [g.ending_planAll_of_error hc hplan] at h
            cases h
        | ok plan =>
            rw [g.ending_planAll_of_ok hc hplan] at h
            cases hrest : (g.planAll rest).ending find with
            | error fault =>
                rw [hrest] at h
                cases h
            | ok others =>
                rw [hrest] at h
                cases h
                exact List.Forall₂.cons (g.reads_of_ending_plan hplan) (ih hrest)
      · rw [g.candidates_cons_of_neg hc]
        rw [g.ending_planAll_of_not_candidate hc] at h
        exact ih h

/-- The records of plans, each made for its declaration. -/
def allPlanRecords (read : List (SourceFile × Declaration)) (plans : List Plan) : List Record :=
  (List.zipWith (fun x p => g.planRecords x.1.path p) read plans).flatten

theorem allPlanRecords_cons (x : SourceFile × Declaration) (p : Plan)
    (read : List (SourceFile × Declaration)) (plans : List Plan) :
    g.allPlanRecords (x :: read) (p :: plans) =
      g.planRecords x.1.path p ++ g.allPlanRecords read plans := rfl

/-- If nothing comes of declarations that are not worth reading, they need not be looked at. -/
theorem flatMap_candidates {β : Type} {f : SourceFile × Declaration → List β}
    (h : ∀ x, ¬ g.isCandidate x.2 = true → f x = [])
    (declarations : List (SourceFile × Declaration)) :
    (g.candidates declarations).flatMap f = declarations.flatMap f := by
  induction declarations with
  | nil => rfl
  | cons x rest ih =>
      by_cases hc : g.isCandidate x.2 = true
      · rw [g.candidates_cons_of_pos hc, List.flatMap_cons, List.flatMap_cons, ih]
      · rw [g.candidates_cons_of_neg hc, List.flatMap_cons, h x hc, ih, List.nil_append]

theorem flatMap_readingRecords_candidates (declarations : List (SourceFile × Declaration)) :
    (g.candidates declarations).flatMap (g.readingRecords find) =
      declarations.flatMap (g.readingRecords find) :=
  g.flatMap_candidates (fun _ hc => if_neg hc) declarations

/-- What a pass logs of its readings are the records of its plans. -/
theorem flatMap_readingRecords {read : List (SourceFile × Declaration)} {plans : List Plan}
    (hread : ∀ x ∈ read, g.isCandidate x.2 = true)
    (h : List.Forall₂ (g.Reads find) read plans) :
    read.flatMap (g.readingRecords find) = g.allPlanRecords read plans := by
  induction h with
  | nil => rfl
  | @cons x p read plans hx _ ih =>
      obtain ⟨hc, hrest⟩ := List.forall_mem_cons.1 hread
      have hrecords : g.readingRecords find x = g.planRecords x.1.path p := by
        unfold readingRecords
        rw [if_pos hc, hx.ending_plan]
      rw [List.flatMap_cons, hrecords, ih hrest, allPlanRecords_cons]

/-! ## The records of plans -/

section PlanRecords

variable (path : String) (p : Plan)

theorem planRecords_eq_append :
    g.planRecords path p = [g.candidateRecord path p] ++ p.misses.map (g.missRecord p.target) := rfl

theorem event_of_mem_missRecords {r : Record} (h : r ∈ p.misses.map (g.missRecord p.target)) :
    r.event = .skipped := by
  obtain ⟨miss, -, rfl⟩ := List.mem_map.1 h
  rfl

theorem count_skipped_planRecords :
    Log.count .skipped (g.planRecords path p) = p.misses.length := by
  have hmisses := Log.count_of_forall fun r hr => g.event_of_mem_missRecords p (r := r) hr
  rw [planRecords_eq_append, Log.count_append, hmisses, List.length_map]
  exact Nat.zero_add _

theorem count_planRecords {e : Event} (hc : e ≠ .candidate) (hs : e ≠ .skipped) :
    Log.count e (g.planRecords path p) = 0 := by
  apply Log.count_of_forall_ne
  intro r hr heq
  rw [planRecords_eq_append] at hr
  rcases List.mem_append.1 hr with hhead | hmiss
  · rw [List.mem_singleton.1 hhead] at heq
    exact hc heq.symm
  · rw [g.event_of_mem_missRecords p hmiss] at heq
    exact hs heq.symm

theorem listed_planRecords (name : String) :
    Log.listed name (g.planRecords path p) =
      ((g.candidateRecord path p).listed name).length := by
  have hcandidate : Log.listed name [g.candidateRecord path p] =
      ((g.candidateRecord path p).listed name).length := congrArg List.length (List.append_nil _)
  have hmisses : Log.listed name (p.misses.map (g.missRecord p.target)) = 0 := by
    apply Log.listed_of_forall_ne
    intro r hr
    rw [g.event_of_mem_missRecords p hr]
    decide
  rw [planRecords_eq_append, Log.listed_append, hmisses, hcandidate, Nat.add_zero]

theorem length_listed_references :
    ((g.candidateRecord path p).listed "references").length = p.target.references.length :=
  Record.length_listed_of_texts rfl

theorem length_listed_resolved :
    ((g.candidateRecord path p).listed "resolved").length = p.contracts.length := by
  have hlisted : ((g.candidateRecord path p).listed "resolved").length =
      (p.contracts.map Contract.metadataName).length := Record.length_listed_of_texts rfl
  rw [hlisted, List.length_map]

end PlanRecords

/-- What the readings of a pass list, and what they leave to be placed. -/
structure ReadingBalance (log : Log) (plans : List Plan) : Prop where
  references_eq :
    log.listed "references" = log.count .skipped + (plans.flatMap Plan.pairs).length
  resolved_eq : log.listed "resolved" = (plans.flatMap Plan.pairs).length
  emitted_eq : log.count .emitted = 0
  dropped_eq : log.count .dropped = 0

/-- No file is generated while the declarations are read. -/
theorem ReadingBalance.ofEvent_emitted {log : Log} {plans : List Plan}
    (h : ReadingBalance log plans) (later : Log) :
    Log.ofEvent (log ++ later) Event.emitted.text = later.ofEvent Event.emitted.text := by
  have hnone : log.ofEvent Event.emitted.text = [] := List.length_eq_zero_iff.1 h.emitted_eq
  rw [Log.ofEvent_append, hnone, List.nil_append]

theorem readingBalance {read : List (SourceFile × Declaration)} {plans : List Plan}
    (h : List.Forall₂ (g.Reads find) read plans) :
    ReadingBalance (g.allPlanRecords read plans) plans := by
  induction h with
  | nil => exact ⟨rfl, rfl, rfl, rfl⟩
  | @cons x p read plans hx _ ih =>
      have hreferences := hx.length_references
      have hpairs : p.pairs.length = p.contracts.length := List.length_map _
      have hrest := ih.references_eq
      have hresolved := ih.resolved_eq
      refine ⟨?_, ?_, ?_, ?_⟩
      · rw [allPlanRecords_cons, Log.listed_append, Log.count_append, listed_planRecords,
          length_listed_references, count_skipped_planRecords, List.flatMap_cons,
          List.length_append]
        omega
      · rw [allPlanRecords_cons, Log.listed_append, listed_planRecords, length_listed_resolved,
          List.flatMap_cons, List.length_append]
        omega
      · rw [allPlanRecords_cons, Log.count_append, ih.emitted_eq,
          g.count_planRecords _ _ (by decide) (by decide)]
      · rw [allPlanRecords_cons, Log.count_append, ih.dropped_eq,
          g.count_planRecords _ _ (by decide) (by decide)]

/-! ## The records of placements -/

/-- The record gives the name of the file, and the number of its property lines. -/
structure ReportsFile (r : Record) (f : GeneratedFile) : Prop where
  hintName_eq : r.field? "hint_name" = some (.text f.hintName)
  interfaceName_eq : r.interface = some f.interfaceName
  properties : ∃ t c, r = g.placementRecord (.emitted t c f) ∧
    f.source = Layout.join
      (Layout.heading g.settings t c g.rendering g.strategy.restatesInterface ++
        Layout.propertyLines g.settings t c ++ Layout.closings (t.containers.length + 1)) ∧
    r.field? "properties" = some (.int (Layout.propertyLines g.settings t c).length)

theorem reportsFile_fileFor (taken : List String) (t : TargetType) (c : Contract) :
    g.ReportsFile (g.placementRecord (.emitted t c (g.fileFor taken t c)))
      (g.fileFor taken t c) := by
  have hfile := g.fileFor_eq taken t c
  refine ⟨rfl, ?_, t, c, rfl, ?_, ?_⟩
  · rw [hfile]
    rfl
  · rw [hfile, ← Layout.lines_eq]
    rfl
  · have hlength : (Layout.propertyLines g.settings t c).length = c.properties.length :=
      List.length_map _
    rw [hlength]
    rfl

/-- The records of generated files stand in the log in the order of the files, one for each. -/
theorem forall₂_reportsFile_place (ledger : Ledger) (pairs : List (TargetType × Contract)) :
    List.Forall₂ g.ReportsFile
      (Log.ofEvent ((g.place ledger pairs).map g.placementRecord) Event.emitted.text)
      ((g.place ledger pairs).filterMap Placement.file?) := by
  induction pairs generalizing ledger with
  | nil => exact List.Forall₂.nil
  | cons pair pairs ih =>
      obtain ⟨t, c⟩ := pair
      simp only [place]
      split
      · exact ih ledger
      · exact List.Forall₂.cons (g.reportsFile_fileFor ledger.names t c) (ih _)

theorem event_placementRecord (placement : Placement) :
    (g.placementRecord placement).event = .emitted ∨
      (g.placementRecord placement).event = .dropped := by
  cases placement with
  | emitted target contract file => exact Or.inl rfl
  | dropped target contract => exact Or.inr rfl

/-- A placement is logged once, as generated or as dropped, and counts as nothing else. -/
structure PlacementBalance (log : Log) (placements : List Placement) : Prop where
  placed_eq : log.count .emitted + log.count .dropped = placements.length
  skipped_eq : log.count .skipped = 0
  listed_eq : ∀ name, log.listed name = 0

theorem placementBalance (placements : List Placement) :
    PlacementBalance (placements.map g.placementRecord) placements := by
  induction placements with
  | nil => exact ⟨rfl, rfl, fun _ => rfl⟩
  | cons placement placements ih =>
      have hsplit : (placement :: placements).map g.placementRecord =
          [g.placementRecord placement] ++ placements.map g.placementRecord := rfl
      have hevent := g.event_placementRecord placement
      have hplaced := ih.placed_eq
      refine ⟨?_, ?_, ?_⟩
      · have hone : Log.count .emitted [g.placementRecord placement] +
            Log.count .dropped [g.placementRecord placement] = 1 := by
          cases placement <;> rfl
        rw [hsplit, Log.count_append, Log.count_append, List.length_cons]
        omega
      · have hone : Log.count .skipped [g.placementRecord placement] = 0 := by
          cases placement <;> rfl
        rw [hsplit, Log.count_append, hone, ih.skipped_eq]
      · intro name
        have hone : Log.listed name [g.placementRecord placement] = 0 := by
          cases placement <;> rfl
        rw [hsplit, Log.listed_append, hone, ih.listed_eq]

/-! ## The files of a report -/

theorem isImplementation_fileFor (taken : List String) (t : TargetType) (c : Contract) :
    (g.fileFor taken t c).isImplementation = true := by
  rw [g.fileFor_eq]
  rfl

/-- Everything that is placed implements an interface. -/
theorem filter_isImplementation_place (ledger : Ledger) (pairs : List (TargetType × Contract)) :
    ((g.place ledger pairs).filterMap Placement.file?).filter GeneratedFile.isImplementation =
      (g.place ledger pairs).filterMap Placement.file? := by
  induction pairs generalizing ledger with
  | nil => rfl
  | cons pair pairs ih =>
      obtain ⟨t, c⟩ := pair
      simp only [place]
      split
      · exact ih ledger
      · have hfile : (Placement.emitted t c (g.fileFor ledger.names t c)).file? =
            some (g.fileFor ledger.names t c) := rfl
        have hhead := g.isImplementation_fileFor ledger.names t c
        rw [List.filterMap_cons_some hfile, List.filter_cons_of_pos hhead, ih]

/-- Of the files of a pass, all but the marker attribute's implement an interface. -/
theorem implementations_of_files {report : Report} {plans : List Plan}
    (h : report.files = g.markerFile :: g.filesOf plans) :
    report.implementations = g.filesOf plans := by
  have hmarker : ¬ g.markerFile.isImplementation = true := by
    show ¬ (GeneratedFile.markerKind == GeneratedFile.implementationKind) = true
    decide
  rw [Report.implementations, h, List.filter_cons_of_neg hmarker]
  exact g.filter_isImplementation_place _ _

/-! ## The account of a pass -/

/-- A pass that returns has logged its plans, and after them its placements. -/
theorem records_trace_generate_eq {declarations : List (SourceFile × Declaration)}
    {plans : List Plan} (h : (g.planAll declarations).ending find = .ok plans) :
    Trace.records ((g.generate declarations).trace find) =
      g.allPlanRecords (g.candidates declarations) plans ++
        (g.placements plans).map g.placementRecord := by
  have hcandidates : ∀ x ∈ g.candidates declarations, g.isCandidate x.2 = true :=
    fun _ hx => (List.mem_filter.1 hx).2
  rw [g.records_trace_generate_of_ok h, ← flatMap_readingRecords_candidates,
    g.flatMap_readingRecords hcandidates (g.forall₂_reads_of_planAll h)]

/-- What the records of a pass that returns say of its references. -/
structure Accounts (host : Host) (report : Report) (plans : List Plan) (log : Log) : Prop where
  /-- There is one plan for each candidate, in order. -/
  reads : List.Forall₂ (g.Reads host.find) (g.candidates host.declarations) plans
  /-- What is placed are the contracts of the plans, in order. -/
  placed : (g.placements plans).map Placement.pair = plans.flatMap Plan.pairs
  /-- The candidates come first, each with its skipped references, and then the placements. -/
  log_eq : log = g.allPlanRecords (g.candidates host.declarations) plans ++
    (g.placements plans).map g.placementRecord
  references_eq : log.listed "references" =
    log.count .skipped + log.count .emitted + log.count .dropped
  resolved_eq : log.listed "resolved" = log.count .emitted + log.count .dropped
  emitted_eq : log.count .emitted = report.implementations.length
  /-- The records of generated files are about the files of the report, in order. -/
  files : List.Forall₂ g.ReportsFile (log.ofEvent Event.emitted.text) report.implementations

theorem exists_accounts {host : Host} {report : Report}
    (h : (g.runOn host .idle).result = .ok report) :
    ∃ plans, g.Accounts host report plans (g.runOn host .idle).log := by
  rw [runOn, run_idle] at h ⊢
  obtain ⟨plans, hplans, hfiles⟩ := g.files_of_ending_generate h
  have hreads := g.forall₂_reads_of_planAll hplans
  have hlog := g.records_trace_generate_eq hplans
  have hplaced : (g.placements plans).map Placement.pair = plans.flatMap Plan.pairs :=
    g.map_pair_place _ _
  have hlength : (g.placements plans).length = (plans.flatMap Plan.pairs).length := by
    rw [← hplaced, List.length_map]
  -- The two parts of the log are balanced each on its own, and the counts of a log are sums.
  have hreading := g.readingBalance hreads
  have hplacing := g.placementBalance (g.placements plans)
  have hreferences := hreading.references_eq
  have hresolved := hreading.resolved_eq
  have hplacedCount := hplacing.placed_eq
  have hreport : List.Forall₂ g.ReportsFile
      (Log.ofEvent (Trace.records ((g.generate host.declarations).trace host.find))
        Event.emitted.text) report.implementations := by
    rw [hlog, hreading.ofEvent_emitted, g.implementations_of_files hfiles]
    exact g.forall₂_reportsFile_place _ _
  refine ⟨plans, hreads, hplaced, hlog, ?_, ?_, hreport.length_eq, hreport⟩
  · rw [hlog]
    simp only [Log.listed_append, Log.count_append, hplacing.listed_eq, hplacing.skipped_eq,
      hreading.emitted_eq, hreading.dropped_eq]
    omega
  · rw [hlog]
    simp only [Log.listed_append, Log.count_append, hplacing.listed_eq, hreading.emitted_eq,
      hreading.dropped_eq]
    omega

/--
A pass that returns appends to the log of its generator, whatever is there already: for each
candidate one record and one for each of its skipped references, and then one record for each
contract that is placed.  The references listed are as many as the references skipped, the files
generated and the files dropped; the interfaces listed are as many as the files generated or
dropped; and the records of generated files go through the implementations of the report, one by
one, each with the name of the file and the number of its property lines.
-/
theorem log_accounts_for_references (host : Host) (report : Report)
    (h : (g.runOn host .idle).result = .ok report) :
    (∃ plans, g.Accounts host report plans (g.runOn host .idle).log) ∧
      ∀ s : Session, s.generator = g → s.compilation.host = host →
        s.step (.generate (.own .idle)) =
          ({ s with log := s.log ++ (g.runOn host .idle).log }, .report report) := by
  refine ⟨g.exists_accounts h, ?_⟩
  rintro s rfl rfl
  have hperform : s.perform (s.generator.generate s.compilation.declarations) (.own .idle) =
      ({ s with log := s.log ++ (s.generator.runOn s.compilation.host .idle).log },
        .ok report) := by
    rw [← h]
    rfl
  simp only [Session.step, hperform]

end Generator

/-- Of the two parts of the type, the first gets a file and has a reference skipped, and the second
is dropped.  A second pass adds the same records again. -/
theorem log_accounts_partialType :
    ∃ report plans,
      ((Generator.mk .byName .usual).runOn Compilation.partialType.host .idle).result =
        .ok report ∧
      (Generator.mk .byName .usual).Accounts Compilation.partialType.host report plans
        ((Generator.mk .byName .usual).runOn Compilation.partialType.host .idle).log ∧
      ((Generator.mk .byName .usual).runOn Compilation.partialType.host .idle).log.map
        Record.event = [.candidate, .skipped, .candidate, .emitted, .dropped] ∧
      ((Session.start (.mk .byName .usual) .partialType).steps
        [.generate (.own .idle), .generate (.own .idle)]).1.log =
          ((Generator.mk .byName .usual).runOn Compilation.partialType.host .idle).log ++
            ((Generator.mk .byName .usual).runOn Compilation.partialType.host .idle).log := by
  obtain ⟨report, hreport⟩ := Generator.exists_report_of_markerArguments
    (.mk .byName .usual) rfl Compilation.partialType.lookup Compilation.partialType.declarations
  obtain ⟨⟨plans, haccounts⟩, hsession⟩ := Generator.log_accounts_for_references
    (.mk .byName .usual) Compilation.partialType.host report hreport
  refine ⟨report, plans, hreport, haccounts, by decide +kernel, ?_⟩
  simp only [Session.steps]
  rw [hsession (.start (.mk .byName .usual) .partialType) rfl rfl]
  rw [hsession _ rfl rfl]
  rfl

end PropertyWeaver
