import Mathlib.Data.List.Forall2
import PropertyWeaver.Proofs.Undisturbed

/-!
# Reading a program

A pass reads every declaration before it generates anything.  `reading` is what it does to read one
declaration, and `readingRecords` is what it logs of it; the trace of all readings is the readings
one after the other, up to the first declaration that cannot be read.

Reading goes through exactly if every declaration is `Readable`.  Then the log of the pass is that
of the readings, followed by one record for each placement; otherwise the log ends with the reading
that failed, and nothing is placed.

## Main results

* `exists_report_iff` — a pass returns exactly if every declaration can be read.
* `planAll_append` — reading two parts of a program is reading the first, and then the second.
* `records_trace_generate_of_ok` — what a pass logs that returns.
* `generate_congr` — of a file, a pass reads the path, the import paths and the declarations.
-/

namespace PropertyWeaver

open Script

/-- The record is about a declaration that was read, or about a reference of it. -/
def Record.isReading (r : Record) : Bool := r.event == .candidate || r.event == .skipped

namespace Generator

variable (g : Generator) {find : String → Option Symbol}

/-! ## One declaration -/

/-- What is logged of a declaration: of a candidate with a plan, the candidate and its skipped
references. -/
def readingRecords (find : String → Option Symbol) (x : SourceFile × Declaration) : List Record :=
  if g.isCandidate x.2 then
    match (g.plan x.2 x.1).ending find with
    | .ok plan => g.planRecords x.1.path plan
    | .error _ => []
  else []

/-- What a pass does to read a declaration. -/
def reading (find : String → Option Symbol) (x : SourceFile × Declaration) : Trace :=
  .observed .discover ::
    if g.isCandidate x.2 then
      (g.plan x.2 x.1).trace find ++ Trace.ofRecords (g.readingRecords find x)
    else []

theorem records_reading (x : SourceFile × Declaration) :
    Trace.records (g.reading find x) = g.readingRecords find x := by
  unfold reading
  split
  · rw [Trace.records, Trace.records_append, records_trace_plan, Trace.records_ofRecords]
    rfl
  · next hc =>
    unfold readingRecords
    rw [if_neg hc]
    rfl

theorem records_flatMap_reading (xs : List (SourceFile × Declaration)) :
    Trace.records (xs.flatMap (g.reading find)) = xs.flatMap (g.readingRecords find) := by
  induction xs with
  | nil => rfl
  | cons x xs ih =>
      rw [List.flatMap_cons, Trace.records_append, records_reading, ih, List.flatMap_cons]

theorem event_of_mem_readingRecords {x : SourceFile × Declaration} {r : Record}
    (h : r ∈ g.readingRecords find x) : r.event = .candidate ∨ r.event = .skipped := by
  unfold readingRecords at h
  split at h
  · split at h
    · next plan _ =>
      rw [planRecords, List.mem_cons, List.mem_map] at h
      rcases h with rfl | ⟨miss, -, rfl⟩
      · exact Or.inl rfl
      · exact Or.inr rfl
    · exact absurd h List.not_mem_nil
  · exact absurd h List.not_mem_nil

/-! ## All declarations -/

/-- The declaration does not keep a pass from going on: it is no candidate, or it gets a plan. -/
def Readable (find : String → Option Symbol) (x : SourceFile × Declaration) : Prop :=
  g.isCandidate x.2 = true → ∃ plan, (g.plan x.2 x.1).ending find = .ok plan

theorem trace_planAll_of_readable {x : SourceFile × Declaration} (h : g.Readable find x)
    (xs : List (SourceFile × Declaration)) :
    (g.planAll (x :: xs)).trace find = g.reading find x ++ (g.planAll xs).trace find := by
  obtain ⟨file, d⟩ := x
  unfold reading readingRecords
  by_cases hc : g.isCandidate d = true
  · obtain ⟨plan, hplan⟩ := h hc
    rw [planAll, if_pos hc, bind_eq, bind_checkpoint, trace, bind_eq, trace_bind_of_ok hplan,
      bind_eq, trace_bind_of_ok (ending_logAll _), trace_logAll, bind_eq, trace_bind_pure]
    dsimp only
    rw [if_pos hc, if_pos hc, hplan, List.cons_append, List.append_assoc]
  · rw [planAll, if_neg hc, if_neg hc, bind_eq, bind_checkpoint, trace]
    rfl

theorem trace_planAll_of_not_readable {x : SourceFile × Declaration} (h : ¬ g.Readable find x)
    (xs : List (SourceFile × Declaration)) :
    (g.planAll (x :: xs)).trace find = g.reading find x := by
  obtain ⟨file, d⟩ := x
  rw [Readable, Classical.not_imp] at h
  obtain ⟨hc, hfail⟩ := h
  cases hplan : (g.plan d file).ending find with
  | ok plan => exact absurd ⟨plan, hplan⟩ hfail
  | error fault =>
      unfold reading readingRecords
      dsimp only
      rw [planAll, if_pos hc, if_pos hc, if_pos hc, bind_eq, bind_checkpoint, trace, bind_eq,
        trace_bind_of_error hplan, hplan]
      exact congrArg (_ :: ·) (List.append_nil _).symm

/-- Reading two parts of a program is reading the first, and then the second. -/
theorem planAll_append (xs ys : List (SourceFile × Declaration)) :
    g.planAll (xs ++ ys) =
      (g.planAll xs).bind fun plans => (g.planAll ys).bind fun more => done (plans ++ more) := by
  induction xs with
  | nil => exact (bind_done _).symm
  | cons x xs ih =>
      obtain ⟨file, d⟩ := x
      rw [List.cons_append, planAll, planAll, ih]
      by_cases hc : g.isCandidate d = true
      · simp only [if_pos hc, bind_eq, bind_checkpoint, pure_eq, Script.bind, Script.bind_assoc,
          List.cons_append]
      · simp only [if_neg hc, bind_eq, bind_checkpoint, Script.bind]

/-- Only the references of a candidate can keep it from being read. -/
theorem readable_iff {x : SourceFile × Declaration} :
    g.Readable find x ↔
      (g.isCandidate x.2 = true → ∃ references, g.references x.2 = .ok references) := by
  have hplan := g.ending_plan find x.2 x.1
  unfold Readable
  rw [hplan]
  cases g.references x.2 with
  | ok references => simp
  | error fault => simp

theorem readable_of_not_candidate {x : SourceFile × Declaration} (h : ¬ g.isCandidate x.2 = true) :
    g.Readable find x := fun hc => absurd hc h

/-- A pass gets to generating exactly if every declaration can be read. -/
theorem exists_plans_iff {declarations : List (SourceFile × Declaration)} :
    (∃ plans, (g.planAll declarations).ending find = .ok plans) ↔
      ∀ x ∈ declarations, g.Readable find x := by
  induction declarations with
  | nil => exact ⟨fun _ x hx => absurd hx List.not_mem_nil, fun _ => ⟨[], rfl⟩⟩
  | cons x rest ih =>
      obtain ⟨file, d⟩ := x
      rw [List.forall_mem_cons, ← ih]
      by_cases hc : g.isCandidate d = true
      · cases hplan : (g.plan d file).ending find with
        | error fault =>
            rw [g.ending_planAll_of_error hc hplan]
            constructor
            · rintro ⟨plans, hplans⟩
              cases hplans
            · rintro ⟨hread, -⟩
              obtain ⟨plan, hok⟩ := hread hc
              rw [hplan] at hok
              cases hok
        | ok plan =>
            have hread : g.Readable find (file, d) := fun _ => ⟨plan, hplan⟩
            rw [g.ending_planAll_of_ok hc hplan]
            cases hrest : (g.planAll rest).ending find with
            | error fault => simp
            | ok plans => simp [hread]
      · rw [g.ending_planAll_of_not_candidate hc]
        have hread : g.Readable find (file, d) := g.readable_of_not_candidate hc
        exact (and_iff_right hread).symm

/-- What is logged while a program is read, if all of it can be. -/
theorem records_trace_planAll {declarations : List (SourceFile × Declaration)}
    (h : ∀ x ∈ declarations, g.Readable find x) :
    Trace.records ((g.planAll declarations).trace find) =
      declarations.flatMap (g.readingRecords find) := by
  induction declarations with
  | nil => rfl
  | cons x rest ih =>
      obtain ⟨hx, hrest⟩ := List.forall_mem_cons.1 h
      rw [g.trace_planAll_of_readable hx, Trace.records_append, records_reading, ih hrest,
        List.flatMap_cons]

/-- A declaration that cannot be read leaves nothing in the log. -/
theorem readingRecords_of_not_readable {x : SourceFile × Declaration}
    (h : ¬ g.Readable find x) : g.readingRecords find x = [] := by
  unfold readingRecords
  split
  · split
    · next plan hplan => exact absurd (fun _ => ⟨plan, hplan⟩) h
    · rfl
  · rfl

/-! ## Whole passes -/

theorem trace_generate_of_ok {declarations : List (SourceFile × Declaration)}
    {plans : List Plan} (h : (g.planAll declarations).ending find = .ok plans) :
    (g.generate declarations).trace find =
      (g.planAll declarations).trace find ++
        Trace.ofRecords ((g.placements plans).map g.placementRecord) := by
  unfold generate
  rw [bind_eq, trace_bind_of_ok h, bind_eq, trace_bind_pure, trace_emit]

theorem trace_generate_of_error {declarations : List (SourceFile × Declaration)}
    {fault : Fault} (h : (g.planAll declarations).ending find = .error fault) :
    (g.generate declarations).trace find = (g.planAll declarations).trace find := by
  unfold generate
  rw [bind_eq, trace_bind_of_error h]

/-- A pass that returns has logged all readings, and after them all placements. -/
theorem records_trace_generate_of_ok {declarations : List (SourceFile × Declaration)}
    {plans : List Plan} (h : (g.planAll declarations).ending find = .ok plans) :
    Trace.records ((g.generate declarations).trace find) =
      declarations.flatMap (g.readingRecords find) ++
        (g.placements plans).map g.placementRecord := by
  have hread : ∀ x ∈ declarations, g.Readable find x := g.exists_plans_iff.1 ⟨plans, h⟩
  rw [g.trace_generate_of_ok h, Trace.records_append, g.records_trace_planAll hread,
    Trace.records_ofRecords]

/-- A pass returns exactly if every declaration can be read. -/
theorem exists_report_iff {declarations : List (SourceFile × Declaration)} :
    (∃ report, (g.generate declarations).ending find = .ok report) ↔
      ∀ x ∈ declarations, g.Readable find x := by
  rw [ending_generate, ← exists_plans_iff]
  cases (g.planAll declarations).ending find with
  | ok plans => simp
  | error fault => simp

theorem isReading_of_mem_readingRecords {x : SourceFile × Declaration} {r : Record}
    (h : r ∈ g.readingRecords find x) : r.isReading = true := by
  rcases g.event_of_mem_readingRecords h with hevent | hevent
  · simp [Record.isReading, hevent]
  · simp [Record.isReading, hevent]

theorem isReading_placementRecord (placement : Placement) :
    (g.placementRecord placement).isReading = false := by
  cases placement <;> rfl

/-- The readings of a pass can be told from the rest of its log. -/
theorem filter_isReading_of_ok {declarations : List (SourceFile × Declaration)}
    {plans : List Plan} (h : (g.planAll declarations).ending find = .ok plans) :
    (Trace.records ((g.generate declarations).trace find)).filter Record.isReading =
      declarations.flatMap (g.readingRecords find) := by
  have hreadings : (declarations.flatMap (g.readingRecords find)).filter Record.isReading =
      declarations.flatMap (g.readingRecords find) := by
    rw [List.filter_eq_self]
    intro r hr
    obtain ⟨x, -, hx⟩ := List.mem_flatMap.1 hr
    exact g.isReading_of_mem_readingRecords hx
  have hplacements :
      ((g.placements plans).map g.placementRecord).filter Record.isReading = [] := by
    rw [List.filter_eq_nil_iff]
    intro r hr
    obtain ⟨placement, -, rfl⟩ := List.mem_map.1 hr
    simp [g.isReading_placementRecord placement]
  rw [g.records_trace_generate_of_ok h, List.filter_append, hreadings, hplacements,
    List.append_nil]

/-! ## What matters of a file -/

/-- What a pass reads of a declaration and its file. -/
def view (x : SourceFile × Declaration) : String × List String × Declaration :=
  (x.1.path, x.1.importPaths, x.2)

theorem plan_congr {file file' : SourceFile} (h : file.importPaths = file'.importPaths)
    (d : Declaration) : g.plan d file = g.plan d file' := by
  have htarget : ∀ references,
      TargetType.ofDeclaration d file references = .ofDeclaration d file' references := by
    intro references
    rw [TargetType.ofDeclaration, h]
    rfl
  unfold plan
  simp only [htarget]

/-- A pass does the same with either declaration. -/
structure ReadAlike (x y : SourceFile × Declaration) : Prop where
  path_eq : x.1.path = y.1.path
  isCandidate_eq : g.isCandidate x.2 = g.isCandidate y.2
  plan_eq : g.plan x.2 x.1 = g.plan y.2 y.1

theorem planAll_of_readAlike {xs ys : List (SourceFile × Declaration)}
    (h : List.Forall₂ g.ReadAlike xs ys) : g.planAll xs = g.planAll ys := by
  induction h with
  | nil => rfl
  | cons hxy _ ih =>
      rename_i x y xs ys _
      obtain ⟨file, d⟩ := x
      obtain ⟨file', d'⟩ := y
      obtain ⟨hpath, hcandidate, hplan⟩ := hxy
      dsimp only at hpath hcandidate hplan
      rw [planAll, planAll, ih, hcandidate, hplan, hpath]

theorem generate_of_readAlike {xs ys : List (SourceFile × Declaration)}
    (h : List.Forall₂ g.ReadAlike xs ys) : g.generate xs = g.generate ys := by
  unfold generate
  rw [g.planAll_of_readAlike h]

theorem forall₂_readAlike_of_view {xs ys : List (SourceFile × Declaration)}
    (h : xs.map view = ys.map view) : List.Forall₂ g.ReadAlike xs ys := by
  rw [← List.forall₂_eq_eq_eq, List.forall₂_map_left_iff, List.forall₂_map_right_iff] at h
  refine h.imp fun x y hview => ?_
  obtain ⟨file, d⟩ := x
  obtain ⟨file', d'⟩ := y
  obtain ⟨hpath, hsame⟩ := Prod.mk.inj hview
  obtain ⟨himports, rfl⟩ := Prod.mk.inj hsame
  exact ⟨hpath, rfl, g.plan_congr himports d⟩

theorem planAll_congr {xs ys : List (SourceFile × Declaration)} (h : xs.map view = ys.map view) :
    g.planAll xs = g.planAll ys :=
  g.planAll_of_readAlike (g.forall₂_readAlike_of_view h)

/-- Of a file, a pass reads the path, the import paths and the declarations, and nothing else. -/
theorem generate_congr {xs ys : List (SourceFile × Declaration)} (h : xs.map view = ys.map view) :
    g.generate xs = g.generate ys :=
  g.generate_of_readAlike (g.forall₂_readAlike_of_view h)

end Generator

end PropertyWeaver
