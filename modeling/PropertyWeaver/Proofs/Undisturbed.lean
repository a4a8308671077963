import PropertyWeaver.Pass
import PropertyWeaver.Proofs.Trace

/-!
# The undisturbed pass

What each operation of a pass comes to when nobody cancels it, from the resolution of one reference
up to the whole pass.  Every operation has one lemma about its ending, and the operations that plan
have one about their trace: none of them logs, so whatever a plan makes of a declaration is logged
only after the last observation that the plan makes.

Callers use these lemmas and never open the operations themselves.

## Main results

* `ending_resolve`, `ending_judgeAll`, `ending_plan` — a plan is a function of the declaration and
  of the answers to lookups.
* `ending_planAll_of_ok`, `ending_emit`, `ending_generate` — so is a pass.
* `records_trace_plan` — planning does not log.
-/

namespace PropertyWeaver

variable {find : String → Option Symbol}

open Script

/-! ## Resolution -/

/-- The interface a reference means, or why there is none, when nobody cancels. -/
def meaning (find : String → Option Symbol) (reference : String) (imports : List String) :
    Except SkipReason Symbol :=
  if Text.isBlankText reference then .error .empty
  else
    match (candidateNames reference imports).findSome? (interfaceNamed find) with
    | some symbol => .ok symbol
    | none => .error .unresolved

theorem ending_probe (names : List String) :
    (probe names).ending find = .ok (names.findSome? (interfaceNamed find)) := by
  have h := run_probe find names
  rw [run_idle] at h
  exact congrArg Outcome.result h

theorem records_trace_probe (names : List String) :
    Trace.records ((probe names).trace find) = [] := by
  have h := run_probe find names
  rw [run_idle] at h
  exact congrArg Outcome.log h

theorem ending_resolve (reference : String) (imports : List String) :
    (resolve reference imports).ending find = .ok (meaning find reference imports) := by
  unfold resolve meaning
  by_cases hb : Text.isBlankText reference = true
  · rw [if_pos hb, if_pos hb]
    rfl
  · rw [if_neg hb, if_neg hb]
    rw [bind_eq, ending_bind_of_ok (ending_probe _)]
    cases (candidateNames reference imports).findSome? (interfaceNamed find) <;> rfl

theorem records_trace_resolve (reference : String) (imports : List String) :
    Trace.records ((resolve reference imports).trace find) = [] := by
  unfold resolve
  by_cases hb : Text.isBlankText reference = true
  · rw [if_pos hb]
    rfl
  · rw [if_neg hb, bind_eq, trace_bind_of_ok (ending_probe _), Trace.records_append,
      records_trace_probe]
    cases (candidateNames reference imports).findSome? (interfaceNamed find) <;> rfl

theorem interfaceNamed_eq_some_iff {name : String} {s : Symbol} :
    interfaceNamed find name = some s ↔ find name = some s ∧ s.isInterface = true :=
  Option.filter_eq_some_iff

theorem exists_of_meaning {reference : String} {imports : List String} {s : Symbol}
    (h : meaning find reference imports = .ok s) :
    ∃ name ∈ candidateNames reference imports, interfaceNamed find name = some s := by
  unfold meaning at h
  split at h
  · cases h
  · split at h
    · next found hfound =>
        cases h
        exact List.exists_of_findSome?_eq_some hfound
    · cases h

/-- What is found is an interface. -/
theorem isInterface_of_meaning {reference : String} {imports : List String} {s : Symbol}
    (h : meaning find reference imports = .ok s) : s.isInterface = true := by
  obtain ⟨name, -, hname⟩ := exists_of_meaning h
  exact (interfaceNamed_eq_some_iff.1 hname).2

/-! ## Projection -/

theorem ending_project (reference : String) (symbol : Symbol) (rendering : Option Rendering) :
    (Contract.project reference symbol rendering).ending find =
      .ok (Contract.ofSymbol reference symbol rendering) := by
  unfold Contract.project
  rw [bind_eq, ending_bind_of_ok (ending_observeTimes _ _)]
  rfl

theorem records_replicate_observed (stage : Stage) (n : Nat) :
    Trace.records (List.replicate n (.observed stage)) = [] := by
  induction n with
  | zero => rfl
  | succ n ih => exact ih

theorem records_trace_project (reference : String) (symbol : Symbol)
    (rendering : Option Rendering) :
    Trace.records ((Contract.project reference symbol rendering).trace find) = [] := by
  unfold Contract.project
  rw [bind_eq, trace_bind_pure, trace_observeTimes, records_replicate_observed]

namespace Generator

variable (g : Generator)

/-! ## Verdicts -/

/-- The verdict on a reference, when the interfaces in `seen` are taken and nobody cancels. -/
def verdictOn (find : String → Option Symbol) (imports seen : List String)
    (reference : String) : Verdict :=
  match meaning find reference imports with
  | .error reason => .skipped reference reason
  | .ok symbol =>
      if !g.accepts symbol then .skipped reference .notMarked
      else if symbol.metadataName ∈ seen then .skipped reference .duplicate
      else .accepted (.ofSymbol reference symbol (some g.rendering))

/-- The verdicts on the references, when the interfaces in `seen` are taken before the first. -/
def verdictsOn (find : String → Option Symbol) (imports : List String) :
    List String → List String → List Verdict
  | _, [] => []
  | seen, reference :: references =>
      let verdict := g.verdictOn find imports seen reference
      verdict :: verdictsOn find imports (verdict.accumulate seen) references

theorem ending_judgeFound (seen : List String) (reference : String) (symbol : Symbol) :
    (g.judgeFound seen reference symbol).ending find =
      .ok (if !g.accepts symbol then .skipped reference .notMarked
        else if symbol.metadataName ∈ seen then .skipped reference .duplicate
        else .accepted (.ofSymbol reference symbol (some g.rendering))) := by
  unfold judgeFound
  split
  · rfl
  · split
    · rfl
    · rw [bind_eq, ending_bind_of_ok (ending_project _ _ _)]
      rfl

theorem records_trace_judgeFound (seen : List String) (reference : String) (symbol : Symbol) :
    Trace.records ((g.judgeFound seen reference symbol).trace find) = [] := by
  unfold judgeFound
  split
  · rfl
  · split
    · rfl
    · rw [bind_eq, trace_bind_pure, records_trace_project]

theorem ending_judge (imports seen : List String) (reference : String) :
    (g.judge imports seen reference).ending find =
      .ok (g.verdictOn find imports seen reference) := by
  unfold judge verdictOn
  rw [bind_eq, bind_checkpoint, ending, bind_eq, ending_bind_of_ok (ending_resolve _ _)]
  cases meaning find reference imports with
  | error reason => rfl
  | ok symbol => exact g.ending_judgeFound seen reference symbol

theorem records_trace_judge (imports seen : List String) (reference : String) :
    Trace.records ((g.judge imports seen reference).trace find) = [] := by
  unfold judge
  rw [bind_eq, bind_checkpoint, trace, bind_eq, trace_bind_of_ok (ending_resolve _ _),
    Trace.records, Trace.records_append, records_trace_resolve]
  cases meaning find reference imports with
  | error reason => rfl
  | ok symbol => exact g.records_trace_judgeFound seen reference symbol

theorem ending_judgeAll (imports seen references : List String) :
    (g.judgeAll imports seen references).ending find =
      .ok (g.verdictsOn find imports seen references) := by
  induction references generalizing seen with
  | nil => rfl
  | cons reference references ih =>
      rw [judgeAll, bind_eq, ending_bind_of_ok (g.ending_judge imports seen reference),
        bind_eq, ending_bind_of_ok (ih _)]
      rfl

theorem records_trace_judgeAll (imports seen references : List String) :
    Trace.records ((g.judgeAll imports seen references).trace find) = [] := by
  induction references generalizing seen with
  | nil => rfl
  | cons reference references ih =>
      rw [judgeAll, bind_eq, trace_bind_of_ok (g.ending_judge imports seen reference),
        bind_eq, trace_bind_pure, Trace.records_append, records_trace_judge, ih]
      rfl

/-! ## Plans -/

/-- The plan for a declaration that makes these references, when nobody cancels. -/
def planOf (find : String → Option Symbol) (file : SourceFile) (d : Declaration)
    (references : List String) : Plan :=
  let target := TargetType.ofDeclaration d file references
  ⟨target, g.verdictsOn find target.imports [] references⟩

theorem ending_plan (find : String → Option Symbol) (d : Declaration) (file : SourceFile) :
    (g.plan d file).ending find =
      match g.references d with
      | .ok references => .ok (g.planOf find file d references)
      | .error fault => .error fault := by
  unfold plan
  rw [bind_eq, bind_checkpoint, ending, bind_eq]
  cases h : g.references d with
  | error fault => rw [ending_bind_of_error (ending_ofExcept (.error fault))]
  | ok references =>
      rw [ending_bind_of_ok (ending_ofExcept (.ok references)), bind_eq,
        ending_bind_of_ok (g.ending_judgeAll _ _ references)]
      rfl

/-- Planning does not log. -/
theorem records_trace_plan (d : Declaration) (file : SourceFile) :
    Trace.records ((g.plan d file).trace find) = [] := by
  unfold plan
  rw [bind_eq, bind_checkpoint, trace, bind_eq, Trace.records]
  cases h : g.references d with
  | error fault => rw [trace_bind_of_error (ending_ofExcept (.error fault)), trace_ofExcept]; rfl
  | ok references =>
      rw [trace_bind_of_ok (ending_ofExcept (.ok references)), bind_eq, trace_bind_pure,
        Trace.records_append, trace_ofExcept, records_trace_judgeAll]
      rfl

/-! ## Passes -/

theorem ending_planAll_of_not_candidate {file : SourceFile} {d : Declaration}
    (h : ¬ g.isCandidate d = true) (rest : List (SourceFile × Declaration)) :
    (g.planAll ((file, d) :: rest)).ending find = (g.planAll rest).ending find := by
  rw [planAll, if_neg h]
  rfl

theorem ending_planAll_of_error {file : SourceFile} {d : Declaration} {fault : Fault}
    (hc : g.isCandidate d = true) (h : (g.plan d file).ending find = .error fault)
    (rest : List (SourceFile × Declaration)) :
    (g.planAll ((file, d) :: rest)).ending find = .error fault := by
  rw [planAll, if_pos hc, bind_eq, bind_checkpoint, ending, bind_eq, ending_bind_of_error h]

theorem ending_planAll_of_ok {file : SourceFile} {d : Declaration} {plan : Plan}
    (hc : g.isCandidate d = true) (h : (g.plan d file).ending find = .ok plan)
    (rest : List (SourceFile × Declaration)) :
    (g.planAll ((file, d) :: rest)).ending find =
      match (g.planAll rest).ending find with
      | .ok plans => .ok (plan :: plans)
      | .error fault => .error fault := by
  rw [planAll, if_pos hc, bind_eq, bind_checkpoint, ending, bind_eq, ending_bind_of_ok h,
    bind_eq, ending_bind_of_ok (ending_logAll _), bind_eq]
  cases hrest : (g.planAll rest).ending find with
  | ok plans => rw [ending_bind_of_ok hrest]; rfl
  | error fault => rw [ending_bind_of_error hrest]

/-- Reading the references is the only part of planning that can fail. -/
theorem exists_ending_planAll (find : String → Option Symbol)
    {declarations : List (SourceFile × Declaration)}
    (h : ∀ x ∈ declarations, ∃ references, g.references x.2 = .ok references) :
    ∃ plans, (g.planAll declarations).ending find = .ok plans := by
  induction declarations with
  | nil => exact ⟨[], rfl⟩
  | cons x rest ih =>
      obtain ⟨file, d⟩ := x
      obtain ⟨plans, hplans⟩ := ih fun y hy => h y (List.mem_cons_of_mem _ hy)
      by_cases hc : g.isCandidate d = true
      · obtain ⟨references, hr⟩ := h (file, d) List.mem_cons_self
        have hplan := g.ending_plan find d file
        rw [hr] at hplan
        rw [g.ending_planAll_of_ok hc hplan, hplans]
        exact ⟨_, rfl⟩
      · rw [g.ending_planAll_of_not_candidate hc]
        exact ⟨plans, hplans⟩

/-- The files for the plans, in order. -/
def filesOf (plans : List Plan) : List GeneratedFile :=
  (g.placements plans).filterMap Placement.file?

theorem ending_emit (plans : List Plan) :
    (g.emit plans).ending find = .ok (g.filesOf plans) := by
  unfold emit
  rw [bind_eq, ending_bind_of_ok (ending_logAll _)]
  rfl

theorem trace_emit (plans : List Plan) :
    (g.emit plans).trace find =
      Trace.ofRecords ((g.placements plans).map g.placementRecord) := by
  unfold emit
  rw [bind_eq, trace_bind_pure, trace_logAll]

theorem ending_generate (declarations : List (SourceFile × Declaration)) :
    (g.generate declarations).ending find =
      match (g.planAll declarations).ending find with
      | .ok plans =>
          .ok { strategy := g.strategy.text, files := g.markerFile :: g.filesOf plans }
      | .error fault => .error fault := by
  unfold generate
  rw [bind_eq]
  cases h : (g.planAll declarations).ending find with
  | ok plans =>
      rw [ending_bind_of_ok h, bind_eq, ending_bind_of_ok (g.ending_emit plans)]
      rfl
  | error fault => rw [ending_bind_of_error h]

/-- A pass that returns has a plan for every candidate and generates their files. -/
theorem files_of_ending_generate {declarations : List (SourceFile × Declaration)}
    {report : Report} (h : (g.generate declarations).ending find = .ok report) :
    ∃ plans, (g.planAll declarations).ending find = .ok plans ∧
      report.files = g.markerFile :: g.filesOf plans := by
  rw [ending_generate] at h
  cases hplans : (g.planAll declarations).ending find with
  | ok plans =>
      rw [hplans] at h
      cases h
      exact ⟨plans, rfl, rfl⟩
  | error fault =>
      rw [hplans] at h
      cases h

/-- A strategy that reads marker arguments always returns. -/
theorem exists_report_of_markerArguments (h : g.strategy.discovery = .markerArguments)
    (find : String → Option Symbol) (declarations : List (SourceFile × Declaration)) :
    ∃ report, ((g.generate declarations).run find .idle).result = .ok report := by
  have hrefs : ∀ x ∈ declarations, ∃ references, g.references x.2 = .ok references := by
    intro x _
    exact ⟨x.2.markerReferences g.settings, by rw [references, h]; rfl⟩
  obtain ⟨plans, hplans⟩ := g.exists_ending_planAll find hrefs
  rw [run_idle, ending_generate, hplans]
  exact ⟨_, rfl⟩

end Generator

end PropertyWeaver
