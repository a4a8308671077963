import PropertyWeaver.Proofs.FileNames
import PropertyWeaver.Proofs.Reading

/-!
# Two passes side by side

Two generators read the same declarations, each with lookups of its own.  Suppose that they judge
every reference alike: both skip it for the same reason, or both accept it with contracts that are
related by some `κ`.  Then nothing that follows can drive the passes apart.  They make corresponding
plans, drop the same repetitions, give their files the same names and log the same records, the
name of the strategy apart.

What is asked of `κ` is little: related contracts agree in what a pass goes by, which is the name in
the reference, the metadata name and the number of properties (`Contract.SameOutline`).

The relations follow the data, from the verdict on one reference (`Verdict.Match`) to plans,
placements and reports.  Each operation of a pass has one lemma, which carries the relation from
what the operation is given to what it returns.

## Main results

* `SideBySide.records_generate` — the logs agree, the strategy apart.
* `SideBySide.ending_generate` — the passes come to the same fault, or to corresponding files.
-/

namespace PropertyWeaver

open Script

/-! ## Relations -/

/-- The contracts agree in what a pass goes by. -/
structure Contract.SameOutline (c c' : Contract) : Prop where
  name_eq : c'.name = c.name
  metadataName_eq : c'.metadataName = c.metadataName
  length_properties : c'.properties.length = c.properties.length

/-- Both verdicts skip the reference for one reason, or both accept it, with related contracts. -/
inductive Verdict.Match (κ : Contract → Contract → Prop) : Verdict → Verdict → Prop where
  | accepted {c c' : Contract} (h : κ c c') : Match κ (.accepted c) (.accepted c')
  | skipped (reference : String) (reason : SkipReason) :
      Match κ (.skipped reference reason) (.skipped reference reason)

/-- The plans are for one target, with related verdicts on its references. -/
structure Plan.Match (κ : Contract → Contract → Prop) (p p' : Plan) : Prop where
  target_eq : p'.target = p.target
  verdicts : List.Forall₂ (Verdict.Match κ) p.verdicts p'.verdicts

/-- Related contracts for one target. -/
def PairMatch (κ : Contract → Contract → Prop) (p p' : TargetType × Contract) : Prop :=
  p'.1 = p.1 ∧ κ p.2 p'.2

/-- Both contracts are dropped, or both are placed while the same names are taken. -/
inductive Placement.Match (κ : Contract → Contract → Prop) (g g' : Generator) :
    Placement → Placement → Prop where
  | emitted (taken : List String) (t : TargetType) {c c' : Contract} (h : κ c c') :
      Match κ g g' (.emitted t c (g.fileFor taken t c)) (.emitted t c' (g'.fileFor taken t c'))
  | dropped (t : TargetType) {c c' : Contract} (h : κ c c') :
      Match κ g g' (.dropped t c) (.dropped t c')

/-- The files are made for related contracts of one target, while the same names are taken. -/
def FileMatch (κ : Contract → Contract → Prop) (g g' : Generator) (f f' : GeneratedFile) : Prop :=
  ∃ taken t c c', κ c c' ∧ f = g.fileFor taken t c ∧ f' = g'.fileFor taken t c'

/-- Both fail with one fault, or both return, with related values. -/
inductive ResultMatch {α β : Type} (R : α → β → Prop) :
    Except Fault α → Except Fault β → Prop where
  | error (fault : Fault) : ResultMatch R (.error fault) (.error fault)
  | ok {a : α} {b : β} (h : R a b) : ResultMatch R (.ok a) (.ok b)

theorem ResultMatch.error_or_ok {α β : Type} {R : α → β → Prop} {x : Except Fault α}
    {y : Except Fault β} (h : ResultMatch R x y) :
    (∃ fault, x = .error fault ∧ y = .error fault) ∨
      ∃ a b, x = .ok a ∧ y = .ok b ∧ R a b := by
  cases h with
  | error fault => exact Or.inl ⟨fault, rfl, rfl⟩
  | ok hab => exact Or.inr ⟨_, _, rfl, rfl, hab⟩

/-- The record as a generator of that strategy would log it. -/
def Record.under (strategy : Strategy) (r : Record) : Record :=
  { r with strategy := strategy.text }

/-- The generators, each with its lookups, judge every reference alike. -/
structure SideBySide (κ : Contract → Contract → Prop) (g g' : Generator)
    (find find' : String → Option Symbol) : Prop where
  isCandidate_eq : ∀ d, g'.isCandidate d = g.isCandidate d
  references_eq : ∀ d, g'.references d = g.references d
  fileSuffix_eq : g'.settings.fileSuffix = g.settings.fileSuffix
  outline : ∀ c c', κ c c' → c.SameOutline c'
  verdict : ∀ imports seen reference,
    Verdict.Match κ (g.verdictOn find imports seen reference)
      (g'.verdictOn find' imports seen reference)

/-! ## Plans -/

namespace Plan.Match

variable {κ : Contract → Contract → Prop} {p p' : Plan}

theorem contracts (h : Plan.Match κ p p') : List.Forall₂ κ p.contracts p'.contracts := by
  refine List.rel_filterMap ?_ h.verdicts
  intro v v' hv
  cases hv with
  | accepted hc => exact Option.Rel.some hc
  | skipped reference reason => exact Option.Rel.none

theorem misses_eq (h : Plan.Match κ p p') : p'.misses = p.misses := by
  have hmisses : List.Forall₂ (· = ·) p.misses p'.misses := by
    refine List.rel_filterMap ?_ h.verdicts
    intro v v' hv
    cases hv with
    | accepted hc => exact Option.Rel.none
    | skipped reference reason => exact Option.Rel.some rfl
  rw [List.forall₂_eq_eq_eq] at hmisses
  exact hmisses.symm

theorem pairs (h : Plan.Match κ p p') :
    List.Forall₂ (PairMatch κ) (p.contracts.map fun contract => (p.target, contract))
      (p'.contracts.map fun contract => (p'.target, contract)) := by
  refine List.rel_map ?_ h.contracts
  intro c c' hc
  exact ⟨h.target_eq, hc⟩

end Plan.Match

namespace SideBySide

variable {κ : Contract → Contract → Prop} {g g' : Generator}
  {find find' : String → Option Symbol}

theorem accumulate_eq (h : SideBySide κ g g' find find') (seen : List String) {v v' : Verdict}
    (hv : Verdict.Match κ v v') : v'.accumulate seen = v.accumulate seen := by
  cases hv with
  | accepted hc => exact congrArg (· :: seen) (h.outline _ _ hc).metadataName_eq
  | skipped reference reason => rfl

/-- The induction carries the interfaces that are taken; both passes take the same ones. -/
theorem verdictsOn (h : SideBySide κ g g' find find') (imports seen references : List String) :
    List.Forall₂ (Verdict.Match κ) (g.verdictsOn find imports seen references)
      (g'.verdictsOn find' imports seen references) := by
  induction references generalizing seen with
  | nil => exact List.Forall₂.nil
  | cons reference references ih =>
      have hverdict := h.verdict imports seen reference
      simp only [Generator.verdictsOn]
      refine List.Forall₂.cons hverdict ?_
      rw [h.accumulate_eq seen hverdict]
      exact ih _

theorem ending_plan (h : SideBySide κ g g' find find') (d : Declaration) (file : SourceFile) :
    ResultMatch (Plan.Match κ) ((g.plan d file).ending find) ((g'.plan d file).ending find') := by
  rw [g.ending_plan, g'.ending_plan, h.references_eq]
  cases g.references d with
  | ok references => exact .ok ⟨rfl, h.verdictsOn _ [] references⟩
  | error fault => exact .error fault

theorem ending_planAll (h : SideBySide κ g g' find find')
    (declarations : List (SourceFile × Declaration)) :
    ResultMatch (List.Forall₂ (Plan.Match κ)) ((g.planAll declarations).ending find)
      ((g'.planAll declarations).ending find') := by
  induction declarations with
  | nil => exact .ok List.Forall₂.nil
  | cons x rest ih =>
      obtain ⟨file, d⟩ := x
      have hcandidate := h.isCandidate_eq d
      by_cases hc : g.isCandidate d = true
      · have hc' : g'.isCandidate d = true := hcandidate.trans hc
        rcases (h.ending_plan d file).error_or_ok with
          ⟨fault, hplan, hplan'⟩ | ⟨plan, plan', hplan, hplan', hmatch⟩
        · rw [g.ending_planAll_of_error hc hplan, g'.ending_planAll_of_error hc' hplan']
          exact .error fault
        · rw [g.ending_planAll_of_ok hc hplan, g'.ending_planAll_of_ok hc' hplan']
          rcases ih.error_or_ok with ⟨fault, hrest, hrest'⟩ | ⟨plans, plans', hrest, hrest', hmore⟩
          · rw [hrest, hrest']
            exact .error fault
          · rw [hrest, hrest']
            exact .ok (List.Forall₂.cons hmatch hmore)
      · have hc' : ¬ g'.isCandidate d = true := by rw [hcandidate]; exact hc
        rw [g.ending_planAll_of_not_candidate hc, g'.ending_planAll_of_not_candidate hc']
        exact ih

/-! ## Records of readings -/

theorem metadataNames_eq (h : SideBySide κ g g' find find') {cs cs' : List Contract}
    (hcs : List.Forall₂ κ cs cs') :
    cs'.map Contract.metadataName = cs.map Contract.metadataName := by
  induction hcs with
  | nil => rfl
  | cons hc _ ih => rw [List.map_cons, List.map_cons, ih, (h.outline _ _ hc).metadataName_eq]

theorem planRecords_eq (h : SideBySide κ g g' find find') (path : String) {p p' : Plan}
    (hp : p.Match κ p') :
    g'.planRecords path p' = (g.planRecords path p).map (Record.under g'.strategy) := by
  have hcandidate : g'.candidateRecord path p' =
      Record.under g'.strategy (g.candidateRecord path p) := by
    simp only [Generator.candidateRecord, Record.under, hp.target_eq,
      h.metadataNames_eq hp.contracts]
  rw [Generator.planRecords, Generator.planRecords, List.map_cons, List.map_map, hcandidate,
    hp.misses_eq, hp.target_eq]
  rfl

theorem readingRecords_eq (h : SideBySide κ g g' find find') (x : SourceFile × Declaration) :
    g'.readingRecords find' x = (g.readingRecords find x).map (Record.under g'.strategy) := by
  unfold Generator.readingRecords
  rw [h.isCandidate_eq]
  by_cases hc : g.isCandidate x.2 = true
  · rw [if_pos hc, if_pos hc]
    rcases (h.ending_plan x.2 x.1).error_or_ok with
      ⟨fault, hplan, hplan'⟩ | ⟨plan, plan', hplan, hplan', hmatch⟩
    · rw [hplan, hplan']
      rfl
    · rw [hplan, hplan']
      exact h.planRecords_eq x.1.path hmatch
  · rw [if_neg hc, if_neg hc]
    rfl

theorem readable_iff (h : SideBySide κ g g' find find') {x : SourceFile × Declaration} :
    g'.Readable find' x ↔ g.Readable find x := by
  rw [g.readable_iff, g'.readable_iff, h.isCandidate_eq, h.references_eq]

/-- Both passes read the same declarations, and log the same of them. -/
theorem records_planAll (h : SideBySide κ g g' find find')
    (declarations : List (SourceFile × Declaration)) :
    Trace.records ((g'.planAll declarations).trace find') =
      (Trace.records ((g.planAll declarations).trace find)).map (Record.under g'.strategy) := by
  induction declarations with
  | nil => rfl
  | cons x rest ih =>
      by_cases hread : g.Readable find x
      · have hread' : g'.Readable find' x := h.readable_iff.2 hread
        rw [g.trace_planAll_of_readable hread, g'.trace_planAll_of_readable hread',
          Trace.records_append, Trace.records_append, g.records_reading, g'.records_reading,
          List.map_append, h.readingRecords_eq, ih]
      · have hread' : ¬ g'.Readable find' x := fun hc => hread (h.readable_iff.1 hc)
        rw [g.trace_planAll_of_not_readable hread, g'.trace_planAll_of_not_readable hread',
          g.records_reading, g'.records_reading, h.readingRecords_eq]

/-! ## Placements -/

theorem hintName_fileFor (h : SideBySide κ g g' find find') (taken : List String)
    (t : TargetType) {c c' : Contract} (hc : κ c c') :
    (g'.fileFor taken t c').hintName = (g.fileFor taken t c).hintName := by
  have houtline := h.outline c c' hc
  have hshort : g'.shortName (t, c') = g.shortName (t, c) := by
    simp only [Generator.shortName, houtline.name_eq, h.fileSuffix_eq]
  have hlong : g'.longName (t, c') = g.longName (t, c) := by
    simp only [Generator.longName, houtline.metadataName_eq, h.fileSuffix_eq]
  rw [g'.hintName_fileFor taken (t, c'), g.hintName_fileFor taken (t, c), hshort, hlong]

/-- The induction carries the ledger.  Both passes keep the same one, as the names of corresponding
files are the same. -/
theorem place (h : SideBySide κ g g' find find') (ledger : Ledger)
    {pairs pairs' : List (TargetType × Contract)}
    (hpairs : List.Forall₂ (PairMatch κ) pairs pairs') :
    List.Forall₂ (Placement.Match κ g g') (g.place ledger pairs) (g'.place ledger pairs') := by
  induction hpairs generalizing ledger with
  | nil => exact List.Forall₂.nil
  | @cons p p' rest rest' hp _ ih =>
      obtain ⟨t, c⟩ := p
      obtain ⟨t', c'⟩ := p'
      obtain ⟨ht, hc⟩ := hp
      dsimp only at ht hc
      subst t'
      simp only [Generator.place, (h.outline c c' hc).metadataName_eq, h.hintName_fileFor _ _ hc]
      by_cases hs : (t.metadataName, c.metadataName) ∈ ledger.identities
      · rw [if_pos hs, if_pos hs]
        exact List.Forall₂.cons (.dropped t hc) (ih _)
      · rw [if_neg hs, if_neg hs]
        exact List.Forall₂.cons (.emitted _ t hc) (ih _)

theorem placements (h : SideBySide κ g g' find find') {plans plans' : List Plan}
    (hplans : List.Forall₂ (Plan.Match κ) plans plans') :
    List.Forall₂ (Placement.Match κ g g') (g.placements plans) (g'.placements plans') := by
  apply h.place
  refine List.rel_flatMap hplans ?_
  intro p p' hp
  exact hp.pairs

theorem placementRecord_eq (h : SideBySide κ g g' find find') {placement placement' : Placement}
    (hp : Placement.Match κ g g' placement placement') :
    g'.placementRecord placement' = Record.under g'.strategy (g.placementRecord placement) := by
  cases hp with
  | emitted taken t hc =>
      have houtline := h.outline _ _ hc
      simp only [Generator.placementRecord, Record.under, houtline.name_eq,
        houtline.length_properties, h.hintName_fileFor taken t hc]
  | dropped t hc =>
      have houtline := h.outline _ _ hc
      simp only [Generator.placementRecord, Record.under, houtline.name_eq,
        houtline.metadataName_eq]

theorem map_placementRecord_eq (h : SideBySide κ g g' find find')
    {placements placements' : List Placement}
    (hp : List.Forall₂ (Placement.Match κ g g') placements placements') :
    placements'.map g'.placementRecord =
      (placements.map g.placementRecord).map (Record.under g'.strategy) := by
  induction hp with
  | nil => rfl
  | cons hp _ ih => simp only [List.map_cons, h.placementRecord_eq hp, ih]

theorem filesOf (h : SideBySide κ g g' find find') {plans plans' : List Plan}
    (hplans : List.Forall₂ (Plan.Match κ) plans plans') :
    List.Forall₂ (FileMatch κ g g') (g.filesOf plans) (g'.filesOf plans') := by
  refine List.rel_filterMap ?_ (h.placements hplans)
  intro placement placement' hp
  cases hp with
  | emitted taken t hc => exact Option.Rel.some ⟨taken, t, _, _, hc, rfl, rfl⟩
  | dropped t hc => exact Option.Rel.none

/-! ## Whole passes -/

/-- The passes log the same, the strategy apart, whether they return or fail. -/
theorem records_generate (h : SideBySide κ g g' find find')
    (declarations : List (SourceFile × Declaration)) :
    Trace.records ((g'.generate declarations).trace find') =
      (Trace.records ((g.generate declarations).trace find)).map (Record.under g'.strategy) := by
  have hreadings := h.records_planAll declarations
  rcases (h.ending_planAll declarations).error_or_ok with
    ⟨fault, hplans, hplans'⟩ | ⟨plans, plans', hplans, hplans', hmatch⟩
  · rw [g.trace_generate_of_error hplans, g'.trace_generate_of_error hplans', hreadings]
  · have hplacements := h.map_placementRecord_eq (h.placements hmatch)
    rw [g.trace_generate_of_ok hplans, g'.trace_generate_of_ok hplans', Trace.records_append,
      Trace.records_append, Trace.records_ofRecords, Trace.records_ofRecords, List.map_append,
      hreadings, hplacements]

/-- The passes come to the same fault, or to files for related contracts. -/
theorem ending_generate (h : SideBySide κ g g' find find')
    (declarations : List (SourceFile × Declaration)) :
    ResultMatch
      (fun report report' => ∃ files files', report.files = g.markerFile :: files ∧
        report'.files = g'.markerFile :: files' ∧ List.Forall₂ (FileMatch κ g g') files files')
      ((g.generate declarations).ending find) ((g'.generate declarations).ending find') := by
  rw [g.ending_generate, g'.ending_generate]
  rcases (h.ending_planAll declarations).error_or_ok with
    ⟨fault, hplans, hplans'⟩ | ⟨plans, plans', hplans, hplans', hmatch⟩
  · rw [hplans, hplans']
    exact .error fault
  · rw [hplans, hplans']
    exact .ok ⟨_, _, rfl, rfl, h.filesOf hmatch⟩

end SideBySide

end PropertyWeaver
