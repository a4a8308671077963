import PropertyWeaver.Proofs.Accounting
import PropertyWeaver.Proofs.NameSearch

/-!
# What becomes of each reference

A plan has one verdict on each reference of its declaration, in the order of the references; the
accepted ones make its contracts and the others its misses.  `Classified` says which verdict it is,
by what the reference means and by what the references before it mean.

While a plan is made, the metadata names of the accepted interfaces are carried along.  What is
carried when a reference comes to be judged is exactly what the references before it take
(`getElem?_verdictsOn`), whether an earlier one was accepted or is itself a repetition.

Interfaces are told apart by their metadata names here.  Where a host answers with symbols of the
name that it was asked for, a repetition means the very symbol that an earlier reference means.

## Main results

* `getElem?_verdictsOn` — a verdict depends on what the earlier references take.
* `plan_classifies_references` — every reference gets its one verdict, and which it gets.
-/

namespace PropertyWeaver

open Script

variable {find : String → Option Symbol}

/-! ## Contracts and misses among the verdicts -/

namespace Plan

/-- The contracts follow the order of the references. -/
theorem sublist_contracts (p : Plan) :
    (p.contracts.map Contract.name).Sublist (p.verdicts.map Verdict.reference) := by
  obtain ⟨target, verdicts⟩ := p
  show ((verdicts.filterMap Verdict.contract?).map Contract.name).Sublist _
  induction verdicts with
  | nil => exact List.Sublist.refl []
  | cons verdict verdicts ih =>
      cases verdict with
      | accepted contract => exact ih.cons_cons contract.name
      | skipped reference reason => exact ih.cons reference

/-- So do the misses. -/
theorem sublist_misses (p : Plan) :
    (p.misses.map Prod.fst).Sublist (p.verdicts.map Verdict.reference) := by
  obtain ⟨target, verdicts⟩ := p
  show ((verdicts.filterMap Verdict.miss?).map Prod.fst).Sublist _
  induction verdicts with
  | nil => exact List.Sublist.refl []
  | cons verdict verdicts ih =>
      cases verdict with
      | accepted contract => exact ih.cons contract.name
      | skipped reference reason => exact ih.cons_cons reference

end Plan

namespace Generator

variable (g : Generator) {imports : List String}

/-! ## One verdict -/

section Verdict

variable {seen : List String} {reference : String}

/-- A reference that means nothing is skipped for the reason for which it means nothing. -/
theorem verdictOn_of_error (seen : List String) {reason : SkipReason}
    (h : meaning find reference imports = .error reason) :
    g.verdictOn find imports seen reference = .skipped reference reason := by
  unfold verdictOn
  rw [h]

/-- A reference that means an interface gets one of the other three verdicts. -/
theorem verdictOn_of_ok (seen : List String) {s : Symbol}
    (h : meaning find reference imports = .ok s) :
    g.verdictOn find imports seen reference =
      if g.accepts s = true then
        if s.metadataName ∈ seen then .skipped reference .duplicate
        else .accepted (.ofSymbol reference s (some g.rendering))
      else .skipped reference .notMarked := by
  unfold verdictOn
  rw [h]
  cases ha : g.accepts s with
  | false => simp [ha]
  | true => simp [ha]

theorem verdictOn_eq_skipped_iff {reason : SkipReason}
    (h : reason = .empty ∨ reason = .unresolved) :
    g.verdictOn find imports seen reference = .skipped reference reason ↔
      meaning find reference imports = .error reason := by
  have hduplicate : SkipReason.duplicate ≠ reason := by rcases h with rfl | rfl <;> decide
  have hnotMarked : SkipReason.notMarked ≠ reason := by rcases h with rfl | rfl <;> decide
  cases hm : meaning find reference imports with
  | error other => simp [g.verdictOn_of_error seen hm]
  | ok s =>
      rw [g.verdictOn_of_ok seen hm]
      split
      · split
        · simp [hduplicate]
        · simp
      · simp [hnotMarked]

theorem verdictOn_eq_notMarked_iff :
    g.verdictOn find imports seen reference = .skipped reference .notMarked ↔
      ∃ s, meaning find reference imports = .ok s ∧ g.accepts s = false := by
  cases hm : meaning find reference imports with
  | error reason =>
      rcases empty_or_unresolved_of_meaning hm with rfl | rfl
      · simp [g.verdictOn_of_error seen hm]
      · simp [g.verdictOn_of_error seen hm]
  | ok s =>
      rw [g.verdictOn_of_ok seen hm]
      by_cases ha : g.accepts s = true
      · by_cases hs : s.metadataName ∈ seen <;> simp [ha, hs]
      · simp [ha]

theorem verdictOn_eq_duplicate_iff :
    g.verdictOn find imports seen reference = .skipped reference .duplicate ↔
      ∃ s, meaning find reference imports = .ok s ∧ g.accepts s = true ∧
        s.metadataName ∈ seen := by
  cases hm : meaning find reference imports with
  | error reason =>
      rcases empty_or_unresolved_of_meaning hm with rfl | rfl
      · simp [g.verdictOn_of_error seen hm]
      · simp [g.verdictOn_of_error seen hm]
  | ok s =>
      rw [g.verdictOn_of_ok seen hm]
      by_cases ha : g.accepts s = true
      · by_cases hs : s.metadataName ∈ seen <;> simp [ha, hs]
      · simp [ha]

theorem verdictOn_eq_accepted_iff {contract : Contract} :
    g.verdictOn find imports seen reference = .accepted contract ↔
      ∃ s, meaning find reference imports = .ok s ∧ g.accepts s = true ∧
        s.metadataName ∉ seen ∧ contract = .ofSymbol reference s (some g.rendering) := by
  cases hm : meaning find reference imports with
  | error reason => simp [g.verdictOn_of_error seen hm]
  | ok s =>
      rw [g.verdictOn_of_ok seen hm]
      by_cases ha : g.accepts s = true
      · by_cases hs : s.metadataName ∈ seen
        · simp [hs, ha]
        · simpa [hs, ha] using eq_comm
      · simp [ha]

end Verdict

/-! ## What the references before take -/

/-- The reference takes an interface for its declaration: it means one of that metadata name, and
the strategy accepts it. -/
def Takes (find : String → Option Symbol) (imports : List String) (reference name : String) :
    Prop :=
  ∃ s, Means find imports reference s ∧ g.accepts s = true ∧ s.metadataName = name

/-- A verdict adds to what is taken what its reference takes. -/
theorem mem_accumulate_verdictOn {seen : List String} {reference name : String} :
    name ∈ (g.verdictOn find imports seen reference).accumulate seen ↔
      name ∈ seen ∨ g.Takes find imports reference name := by
  unfold Takes
  simp only [← meaning_eq_ok_iff]
  cases hm : meaning find reference imports with
  | error reason => simp [g.verdictOn_of_error seen hm, Verdict.accumulate]
  | ok s =>
      rw [g.verdictOn_of_ok seen hm]
      by_cases ha : g.accepts s = true
      · by_cases hs : s.metadataName ∈ seen
        · have htaken : s.metadataName = name → name ∈ seen := fun e => e ▸ hs
          simpa [hs, ha, Verdict.accumulate] using htaken
        · have hhead : name = s.metadataName ↔ s.metadataName = name := eq_comm
          simp [hs, ha, Verdict.accumulate, Contract.ofSymbol, hhead, or_comm]
      · simp [ha, Verdict.accumulate]

/-- A verdict is made when exactly that is taken what the references before it take. -/
theorem getElem?_verdictsOn (find : String → Option Symbol) (imports seen : List String)
    {references : List String} {i : Nat} {reference : String}
    (h : references[i]? = some reference) :
    ∃ taken,
      (g.verdictsOn find imports seen references)[i]? =
        some (g.verdictOn find imports taken reference) ∧
      ∀ name, name ∈ taken ↔
        name ∈ seen ∨ ∃ earlier ∈ references.take i, g.Takes find imports earlier name := by
  induction references generalizing seen i with
  | nil => cases h
  | cons first references ih =>
      cases i with
      | zero =>
          cases h
          exact ⟨seen, rfl, fun name => by simp⟩
      | succ i =>
          obtain ⟨taken, hverdict, htaken⟩ :=
            ih ((g.verdictOn find imports seen first).accumulate seen) h
          refine ⟨taken, hverdict, ?_⟩
          intro name
          rw [htaken, mem_accumulate_verdictOn, List.take_succ_cons, or_assoc]
          simp only [List.exists_mem_cons_iff]

/-! ## Which verdict it is -/

/-- The verdict on a reference that stands behind the `earlier` ones, by what they all mean. -/
structure Classified (find : String → Option Symbol) (imports earlier : List String)
    (reference : String) (verdict : Verdict) : Prop where
  empty_iff : verdict = .skipped reference .empty ↔ Text.isBlankText reference = true
  unresolved_iff : verdict = .skipped reference .unresolved ↔
    Text.isBlankText reference = false ∧
      ∀ name ∈ candidateNames reference imports, ∀ s, find name = some s → s.isInterface = false
  notMarked_iff : verdict = .skipped reference .notMarked ↔
    ∃ s, Means find imports reference s ∧ g.accepts s = false
  duplicate_iff : verdict = .skipped reference .duplicate ↔
    ∃ s, Means find imports reference s ∧ g.accepts s = true ∧
      ∃ other ∈ earlier, g.Takes find imports other s.metadataName
  accepted_iff : ∀ contract, verdict = .accepted contract ↔
    ∃ s, Means find imports reference s ∧ g.accepts s = true ∧
      (¬ ∃ other ∈ earlier, g.Takes find imports other s.metadataName) ∧
      contract = .ofSymbol reference s (some g.rendering)

theorem classified_verdictOn {taken earlier : List String} (reference : String)
    (h : ∀ name, name ∈ taken ↔ ∃ other ∈ earlier, g.Takes find imports other name) :
    g.Classified find imports earlier reference
      (g.verdictOn find imports taken reference) where
  empty_iff := (g.verdictOn_eq_skipped_iff (Or.inl rfl)).trans meaning_eq_empty_iff
  unresolved_iff := (g.verdictOn_eq_skipped_iff (Or.inr rfl)).trans meaning_eq_unresolved_iff
  notMarked_iff := by
    rw [verdictOn_eq_notMarked_iff]
    simp only [meaning_eq_ok_iff]
  duplicate_iff := by
    rw [verdictOn_eq_duplicate_iff]
    simp only [meaning_eq_ok_iff, h]
  accepted_iff := by
    intro contract
    rw [verdictOn_eq_accepted_iff]
    simp only [meaning_eq_ok_iff, h]

/-- What a host that keeps to names shows under one metadata name is one symbol, so a repetition
means the symbol that an earlier reference means. -/
theorem exists_takes_iff_of_named (hfind : ∀ name s, find name = some s → s.metadataName = name)
    {reference : String} {s : Symbol} (h : Means find imports reference s)
    (ha : g.accepts s = true) (other : String) :
    g.Takes find imports other s.metadataName ↔ Means find imports other s := by
  have hanswer : ∀ {r : String} {t : Symbol}, Means find imports r t →
      find t.metadataName = some t := by
    intro r t ht
    obtain ⟨-, i, hends⟩ := ht
    obtain ⟨name, -, hname⟩ := hends.belongs_name
    rw [hfind name t hname]
    exact hname
  constructor
  · intro ⟨t, ht, _, hname⟩
    have heq : some t = some s := by
      rw [← hanswer ht, hname]
      exact hanswer h
    cases heq
    exact ht
  · intro hother
    exact ⟨s, hother, ha, rfl⟩

/-! ## Plans -/

theorem nodup_metadataName_contracts (target : TargetType) (seen references : List String) :
    (((g.verdictsOn find target.imports seen references).filterMap Verdict.contract?).map
      Contract.metadataName).Nodup := by
  have hpairs : ((g.verdictsOn find target.imports seen references).filterMap
      Verdict.contract?).map (fun contract => (target, contract)) = _ :=
    g.pairs_verdictsOn target seen references
  replace hpairs := congrArg (List.map fun pair => pair.2.metadataName) hpairs
  rw [List.map_map, List.map_map] at hpairs
  show (List.map ((fun pair : TargetType × Contract => pair.2.metadataName) ∘
    fun contract => (target, contract)) _).Nodup
  rw [hpairs]
  exact nodup_map_firstsBy Acceptance.interfaceName seen _

/--
If the references of a declaration can be read, a plan is made, and it has one verdict on each of
them.  The contracts and the misses are the accepted and the skipped ones in the order of the
references, and no interface has two contracts.  A reference is skipped as empty exactly if it is
blank, as unresolved if none of the names that it could mean is an interface's, as not marked if it
means an interface that the strategy does not accept, and as a duplicate if it means one that it
accepts and that a reference before it takes.  Otherwise it is accepted, with the contract that the
interface makes under the reference as it is written.
-/
theorem plan_classifies_references (find : String → Option Symbol) (d : Declaration)
    (file : SourceFile) (references : List String) (h : g.references d = .ok references) :
    ∃ plan, ((g.plan d file).run find .idle).result = .ok plan ∧
      plan.verdicts.map Verdict.reference = references ∧
      plan.contracts.length + plan.misses.length = references.length ∧
      (plan.contracts.map Contract.name).Sublist references ∧
      (plan.misses.map Prod.fst).Sublist references ∧
      (plan.contracts.map Contract.metadataName).Nodup ∧
      (∀ (i : Nat) (reference : String), references[i]? = some reference →
        ∃ verdict, plan.verdicts[i]? = some verdict ∧
          g.Classified find file.importPaths (references.take i) reference verdict) ∧
      ((∀ name s, find name = some s → s.metadataName = name) →
        ∀ (i : Nat) (reference : String), references[i]? = some reference →
          (plan.verdicts[i]? = some (.skipped reference .duplicate) ↔
            ∃ s, Means find file.importPaths reference s ∧ g.accepts s = true ∧
              ∃ other ∈ references.take i, Means find file.importPaths other s)) := by
  have hplan := g.ending_plan find d file
  rw [h] at hplan
  have hreads := g.reads_of_ending_plan (x := (file, d)) hplan
  have hverdicts : (g.planOf find file d references).verdicts.map Verdict.reference =
      references := hreads.verdicts_eq
  have hclassified : ∀ (i : Nat) (reference : String), references[i]? = some reference →
      ∃ verdict, (g.planOf find file d references).verdicts[i]? = some verdict ∧
        g.Classified find file.importPaths (references.take i) reference verdict := by
    intro i reference hi
    obtain ⟨taken, hverdict, htaken⟩ := g.getElem?_verdictsOn find file.importPaths [] hi
    refine ⟨_, hverdict, g.classified_verdictOn reference ?_⟩
    intro name
    rw [htaken]
    exact or_iff_right List.not_mem_nil
  refine ⟨_, hreads.plan_eq, hverdicts, ?_, ?_, ?_, ?_, hclassified, ?_⟩
  · exact (hreads.length_references).symm
  · have hsub := (g.planOf find file d references).sublist_contracts
    rw [hverdicts] at hsub
    exact hsub
  · have hsub := (g.planOf find file d references).sublist_misses
    rw [hverdicts] at hsub
    exact hsub
  · exact g.nodup_metadataName_contracts (.ofDeclaration d file references) [] references
  · intro hfind i reference hi
    obtain ⟨verdict, hverdict, hclass⟩ := hclassified i reference hi
    rw [hverdict, Option.some.injEq, hclass.duplicate_iff]
    constructor
    · intro ⟨s, hs, ha, other, hother, htakes⟩
      exact ⟨s, hs, ha, other, hother, (g.exists_takes_iff_of_named hfind hs ha other).1 htakes⟩
    · intro ⟨s, hs, ha, other, hother, hmeans⟩
      exact ⟨s, hs, ha, other, hother, (g.exists_takes_iff_of_named hfind hs ha other).2 hmeans⟩

end Generator

/-! ## A base list with all five verdicts -/

/-- An interface that carries the marker. -/
def Symbol.markedInterface (namespaceName name : String) : Symbol :=
  ⟨name, namespaceName, "interface", [], ["AutoImplement"], []⟩

/-- A class whose base list has an interface without the marker, one with it in two spellings, a
base class, a blank entry, and one that is no name. -/
def Declaration.mixed : Declaration where
  name := "Foo"
  keyword := "class"
  namespacePath := ["App"]
  containers := []
  typeParameters := []
  attributes := []
  baseList := [⟨"IPlain", "identifier"⟩, ⟨"IBar", "identifier"⟩, ⟨"List<int>", "generic"⟩,
    ⟨" ", "identifier"⟩, ⟨"Base", "identifier"⟩, ⟨"N . IBar", "qualified"⟩]

def SourceFile.mixed : SourceFile := ⟨"Foo.cs", ["using N;"], [.mixed]⟩

def Compilation.mixed : Compilation where
  files := [.mixed]
  symbols := [.markedInterface "N" "IBar", .emptyInterface "N" "IPlain",
    ⟨"Base", "N", "class", [], [], []⟩]

/-- One reference is accepted, and the others are skipped for one reason each. -/
theorem plan_classifies_mixed :
    (Generator.mk .inherited .usual).references .mixed =
      .ok ["IPlain", "IBar", "", "Base", "N.IBar"] ∧
    ∃ plan, (((Generator.mk .inherited .usual).plan .mixed .mixed).run Compilation.mixed.lookup
        .idle).result = .ok plan ∧
      plan.misses = [("IPlain", .notMarked), ("", .empty), ("Base", .unresolved),
        ("N.IBar", .duplicate)] ∧
      plan.contracts.map Contract.metadataName = ["N.IBar"] ∧
      ∃ s, Means Compilation.mixed.lookup SourceFile.mixed.importPaths "N.IBar" s ∧
        ∃ other ∈ ["IPlain", "IBar", "", "Base"],
          Means Compilation.mixed.lookup SourceFile.mixed.importPaths other s := by
  have hreferences : (Generator.mk .inherited .usual).references .mixed =
      .ok ["IPlain", "IBar", "", "Base", "N.IBar"] := by decide +kernel
  obtain ⟨plan, hplan, -, -, -, -, -, -, hnamed⟩ :=
    Generator.plan_classifies_references (.mk .inherited .usual) Compilation.mixed.lookup .mixed
      .mixed _ hreferences
  obtain ⟨computed, hcomputed, hmisses, hcontracts, hfour⟩ : ∃ computed,
      (((Generator.mk .inherited .usual).plan .mixed .mixed).run Compilation.mixed.lookup
        .idle).result = .ok computed ∧
      computed.misses = [("IPlain", .notMarked), ("", .empty), ("Base", .unresolved),
        ("N.IBar", .duplicate)] ∧
      computed.contracts.map Contract.metadataName = ["N.IBar"] ∧
      computed.verdicts[4]? = some (.skipped "N.IBar" .duplicate) :=
    ⟨_, rfl, by decide +kernel, by decide +kernel, by decide +kernel⟩
  rw [hcomputed] at hplan
  cases hplan
  obtain ⟨s, hs, -, other, hother, hmeans⟩ :=
    (hnamed (fun _ _ h => Compilation.metadataName_of_lookup h) 4 "N.IBar" rfl).1 hfour
  exact ⟨hreferences, plan, hcomputed, hmisses, hcontracts, s, hs, other, hother, hmeans⟩

end PropertyWeaver
