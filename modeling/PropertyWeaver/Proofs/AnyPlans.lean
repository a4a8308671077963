import PropertyWeaver.Proofs.Accounting
import PropertyWeaver.Proofs.Extension
import PropertyWeaver.Proofs.FileNames
import PropertyWeaver.Proofs.TypeIdentity

/-!
# Files for any plans

A host may ask for the files of whatever plans it has: plans for other programs, plans that it made
one by one, or one plan several times.  Nothing is known of such plans, and still the answer is what
the contracts in them say, read one after the other.  The first contract of every identity gets a
file, and the others are logged as dropped.

Two things are carried along, and both can be read off the answer.  The identities that are taken
are those of the contracts before (`getElem?_place`), and the names that are taken are those of the
files before, as they are called in the end (`getElem?_filesFor`).  So a file has its short name
unless an earlier one has it, and its long name otherwise.

Nobody asks whether the long name is free.  An earlier file may have it, and then two files of one
request get one name.  The long name may even be the short name that had to be given up; this is
the only way for a file to have its short name after an earlier one (`short_name_shared`).

## Main results

* `getElem?_filesFor` — a file is named when the names of the files before it are taken.
* `getElem?_place` — a contract is dropped when the contracts before it have its identity.
* `emit_implements_firsts` — what becomes of any plans, and of more plans after them.
-/

namespace PropertyWeaver

open Script

/-! ## First occurrences -/

/-- Of the pairs, the first of every identity, in the order in which the identities first occur. -/
structure AreFirsts (pairs firsts : List (TargetType × Contract)) : Prop where
  identities_eq : firsts.map Generator.pairIdentity =
    (pairs.map Generator.pairIdentity).eraseDups
  first : ∀ p ∈ firsts,
    pairs.find? (fun q => Generator.pairIdentity q = Generator.pairIdentity p) = some p

namespace Generator

variable (g : Generator)

theorem areFirsts_firstsBy (pairs : List (TargetType × Contract)) :
    AreFirsts pairs (firstsBy pairIdentity [] pairs) where
  identities_eq := map_firstsBy_nil pairs
  first := fun _ hp => find?_of_mem_firstsBy hp

/-! ## Names of the files -/

/-- The file implements the contract for the target; only its name is left open. -/
def ImplementsPair (f : GeneratedFile) (p : TargetType × Contract) : Prop :=
  f = { GeneratedFile.implementing g.settings p.1 p.2 g.rendering g.strategy.restatesInterface with
    hintName := f.hintName }

theorem forall₂_implementsPair_filesFor (taken : List String)
    (ps : List (TargetType × Contract)) :
    List.Forall₂ g.ImplementsPair (g.filesFor taken ps) ps := by
  induction ps generalizing taken with
  | nil => exact List.Forall₂.nil
  | cons p ps ih => exact List.Forall₂.cons (g.fileFor_eq taken p.1 p.2) (ih _)

/-- What is taken when a file comes to be named are the names of the files before it. -/
theorem getElem?_filesFor {ps : List (TargetType × Contract)} {i : Nat}
    {p : TargetType × Contract} (h : ps[i]? = some p) :
    (g.filesFor [] ps)[i]? = some
      (g.fileFor (((g.filesFor [] ps).take i).map GeneratedFile.hintName).reverse p.1 p.2) := by
  obtain ⟨hi, hget⟩ := List.getElem?_eq_some_iff.1 h
  have hsplit : ps = ps.take i ++ p :: ps.drop (i + 1) := by
    rw [← hget, List.getElem_cons_drop, List.take_append_drop]
  have hlength : (g.filesFor [] (ps.take i)).length = i := by
    rw [(g.forall₂_implementsPair_filesFor [] (ps.take i)).length_eq, List.length_take]
    omega
  have hfiles : g.filesFor [] ps = g.filesFor [] (ps.take i) ++
      g.filesFor ((g.filesFor [] (ps.take i)).map GeneratedFile.hintName).reverse
        (p :: ps.drop (i + 1)) := by
    have happend := g.filesFor_append [] (ps.take i) (p :: ps.drop (i + 1))
    rwa [← hsplit, List.append_nil] at happend
  have hbefore : (g.filesFor [] ps).take i = g.filesFor [] (ps.take i) := by
    rw [hfiles, List.take_left' hlength]
  rw [hbefore, hfiles, List.getElem?_append_right hlength.le, hlength, Nat.sub_self, filesFor_cons]
  rfl

/-- Every file has its short name unless an earlier file has that name; then it has its long name,
which is not compared with any other.  A file that gives up its short name for a long name of the
same text gets the name of an earlier file. -/
structure NamedInTurn (files : List GeneratedFile) (ps : List (TargetType × Contract)) :
    Prop where
  hintName_eq : ∀ (i : Nat) (f : GeneratedFile) (p : TargetType × Contract),
    files[i]? = some f → ps[i]? = some p →
      f.hintName =
        if g.shortName p ∈ (files.take i).map GeneratedFile.hintName then g.longName p
        else g.shortName p
  hintName_eq_short_iff : ∀ (i : Nat) (f : GeneratedFile) (p : TargetType × Contract),
    files[i]? = some f → ps[i]? = some p →
      (f.hintName = g.shortName p ↔
        g.shortName p ∉ (files.take i).map GeneratedFile.hintName ∨ g.longName p = g.shortName p)

theorem namedInTurn_filesFor (ps : List (TargetType × Contract)) :
    g.NamedInTurn (g.filesFor [] ps) ps := by
  have hname : ∀ (i : Nat) (f : GeneratedFile) (p : TargetType × Contract),
      (g.filesFor [] ps)[i]? = some f → ps[i]? = some p →
        f.hintName =
          if g.shortName p ∈ ((g.filesFor [] ps).take i).map GeneratedFile.hintName then
            g.longName p
          else g.shortName p := by
    intro i f p hf hp
    rw [g.getElem?_filesFor hp] at hf
    cases hf
    simp only [hintName_fileFor, List.mem_reverse]
  refine ⟨hname, fun i f p hf hp => ?_⟩
  rw [hname i f p hf hp]
  by_cases htaken : g.shortName p ∈ ((g.filesFor [] ps).take i).map GeneratedFile.hintName
  · rw [if_pos htaken]
    exact (or_iff_right (not_not_intro htaken)).symm
  · rw [if_neg htaken]
    exact iff_of_true rfl (Or.inl htaken)

/-! ## Records of the contracts -/

/-- What becomes of a contract is decided by the contracts before it. -/
theorem getElem?_place {pairs : List (TargetType × Contract)} {k : Nat}
    {p : TargetType × Contract} (h : pairs[k]? = some p) :
    ∃ placement, (g.place ⟨[], []⟩ pairs)[k]? = some placement ∧
      ((∃ q ∈ pairs.take k, pairIdentity q = pairIdentity p) ∧ placement = .dropped p.1 p.2 ∨
        (∀ q ∈ pairs.take k, pairIdentity q ≠ pairIdentity p) ∧
          ∃ f, placement = .emitted p.1 p.2 f) := by
  have hplaced := congrArg (·[k]?) (g.map_pair_place ⟨[], []⟩ pairs)
  simp only [List.getElem?_map, h, Option.map_eq_some_iff] at hplaced
  obtain ⟨placement, hplacement, hpair⟩ := hplaced
  refine ⟨placement, hplacement, ?_⟩
  have hdropped := g.getElem?_place_eq_dropped_iff ⟨[], []⟩ pairs k p.1 p.2
  cases placement with
  | emitted t c f =>
      cases hpair
      refine Or.inr ⟨fun q hq hidentity => ?_, f, rfl⟩
      have hboth := hplacement.symm.trans (hdropped.2 ⟨h, Or.inr ⟨q, hq, hidentity⟩⟩)
      cases hboth
  | dropped t c =>
      cases hpair
      obtain ⟨-, htaken | hearlier⟩ := hdropped.1 hplacement
      · cases htaken
      · exact Or.inl ⟨hearlier, rfl⟩

/-- The log has one record for each contract, in order.  It says that the contract was dropped if
an earlier one has its identity, and otherwise that a file was generated; and the records of the
latter kind give the names of the files, one by one. -/
structure LogsOccurrences (pairs : List (TargetType × Contract)) (files : List GeneratedFile)
    (log : Log) : Prop where
  length_eq : log.length = pairs.length
  length_add_count : files.length + log.count .dropped = pairs.length
  record : ∀ (k : Nat) (p : TargetType × Contract), pairs[k]? = some p →
    ∃ r, log[k]? = some r ∧ r.target = p.1.displayName ∧ r.interface = some p.2.name ∧
      (r.event = .dropped ↔ ∃ q ∈ pairs.take k, pairIdentity q = pairIdentity p) ∧
      (r.event = .emitted ↔ ∀ q ∈ pairs.take k, pairIdentity q ≠ pairIdentity p)
  reports : List.Forall₂ g.ReportsFile (log.ofEvent Event.emitted.text) files

theorem logsOccurrences_place (pairs : List (TargetType × Contract)) :
    g.LogsOccurrences pairs ((g.place ⟨[], []⟩ pairs).filterMap Placement.file?)
      ((g.place ⟨[], []⟩ pairs).map g.placementRecord) := by
  have hfiles := g.forall₂_reportsFile_place ⟨[], []⟩ pairs
  have hbalance := (g.placementBalance (g.place ⟨[], []⟩ pairs)).placed_eq
  rw [g.length_place] at hbalance
  refine ⟨?_, ?_, fun k p hp => ?_, hfiles⟩
  · rw [List.length_map, g.length_place]
  · rw [← hfiles.length_eq]
    exact hbalance
  · obtain ⟨placement, hplacement, hcase⟩ := g.getElem?_place hp
    refine ⟨g.placementRecord placement, by rw [List.getElem?_map, hplacement]; rfl, ?_⟩
    rcases hcase with ⟨hearlier, rfl⟩ | ⟨hfirst, f, rfl⟩
    · refine ⟨rfl, rfl, iff_of_true rfl hearlier, iff_of_false Event.noConfusion ?_⟩
      obtain ⟨q, hq, hidentity⟩ := hearlier
      exact fun hfirst => hfirst q hq hidentity
    · refine ⟨rfl, rfl, iff_of_false Event.noConfusion ?_, iff_of_true rfl hfirst⟩
      rintro ⟨q, hq, hidentity⟩
      exact hfirst q hq hidentity

/-! ## Requests for files -/

theorem run_emit (find : String → Option Symbol) (token : Token) (plans : List Plan) :
    (g.emit plans).run find token =
      ⟨.ok (g.filesOf plans), (g.placements plans).map g.placementRecord, [], token⟩ := by
  have hlog : ∀ records : List Record,
      (logAll records).run find token = ⟨.ok (), records, [], token⟩ := by
    intro records
    induction records with
    | nil => rfl
    | cons record records ih => rw [logAll, Script.run, ih]
  unfold emit
  rw [bind_eq, run_bind, hlog]
  simp [Outcome.andThen, Script.run, filesOf]

theorem filesOf_eq (plans : List Plan) :
    g.filesOf plans =
      g.filesFor [] (firstsBy pairIdentity [] (plans.flatMap Plan.pairs)) :=
  g.filterMap_place ⟨[], []⟩ _

/--
Whatever the plans are, a request for their files is answered, and neither looks anything up nor
asks whether to go on.  There is one file for each identity among the contracts, in the order in
which the identities first occur, made from the first contract of its identity and named in its
turn, which does not always keep it apart from the files before; and there is one record for each
contract.  When more plans follow, these files come first, and they are all if the contracts that
follow have no new identities.
-/
theorem emit_implements_firsts (find : String → Option Symbol) (token : Token)
    (plans : List Plan) :
    ∃ files log firsts, (g.emit plans).run find token = ⟨.ok files, log, [], token⟩ ∧
      AreFirsts (plans.flatMap Plan.pairs) firsts ∧
      List.Forall₂ g.ImplementsPair files firsts ∧
      g.NamedInTurn files firsts ∧
      g.LogsOccurrences (plans.flatMap Plan.pairs) files log ∧
      ∀ more : List Plan, ∃ later,
        ((g.emit (plans ++ more)).run find token).result = .ok (files ++ later) ∧
        ((∀ q ∈ more.flatMap Plan.pairs,
            ∃ p ∈ plans.flatMap Plan.pairs, pairIdentity p = pairIdentity q) → later = []) := by
  refine ⟨_, _, firstsBy pairIdentity [] (plans.flatMap Plan.pairs), g.run_emit find token plans,
    areFirsts_firstsBy _, ?_, ?_, g.logsOccurrences_place _, fun more => ?_⟩
  · rw [filesOf_eq]
    exact g.forall₂_implementsPair_filesFor [] _
  · rw [filesOf_eq]
    exact g.namedInTurn_filesFor _
  · rw [run_emit, filesOf_eq, filesOf_eq, List.flatMap_append, firstsBy_append, filesFor_append]
    refine ⟨_, rfl, fun hknown => ?_⟩
    have hnone : firstsBy pairIdentity ((plans.flatMap Plan.pairs).map pairIdentity ++ [])
        (more.flatMap Plan.pairs) = [] := by
      apply firstsBy_eq_nil
      intro q hq
      obtain ⟨p, hp, hidentity⟩ := hknown q hq
      rw [List.append_nil, ← hidentity]
      exact List.mem_map_of_mem hp
    rw [hnone]
    rfl

end Generator

/-! ## Plans for one interface -/

/-- A plan for a class `Foo`, which makes one reference to the interface `N.IBar`. -/
def Plan.forIBar (namespaceName reference : String) : Plan where
  target := ⟨namespaceName, "Foo", [reference], ["N"], "class", [], []⟩
  verdicts := [.accepted ⟨reference, "N", "N.IBar", [], []⟩]

/-- The second class has to take its long name.  When the first one is asked for again in another
spelling, no file is added. -/
theorem emit_implements_forIBar :
    ∃ files log firsts,
      ((Generator.mk .byName .usual).emit [.forIBar "App" "IBar", .forIBar "Bar" "IBar"]).run
        (fun _ => none) { cancelled := true } = ⟨.ok files, log, [], { cancelled := true }⟩ ∧
      List.Forall₂ (Generator.mk .byName .usual).ImplementsPair files firsts ∧
      files.map GeneratedFile.hintName = ["Foo_IBar.g.cs", "Bar.Foo_N.IBar.g.cs"] ∧
      (∀ q ∈ [Plan.forIBar "App" "N.IBar"].flatMap Plan.pairs,
        ∃ p ∈ [Plan.forIBar "App" "IBar", .forIBar "Bar" "IBar"].flatMap Plan.pairs,
          Generator.pairIdentity p = Generator.pairIdentity q) ∧
      (((Generator.mk .byName .usual).emit
        [.forIBar "App" "IBar", .forIBar "Bar" "IBar", .forIBar "App" "N.IBar"]).run
          (fun _ => none) { cancelled := true }).result = .ok files := by
  obtain ⟨files, log, firsts, hrun, -, hfiles, -, -, hmore⟩ :=
    Generator.emit_implements_firsts (.mk .byName .usual) (fun _ => none) { cancelled := true }
      [.forIBar "App" "IBar", .forIBar "Bar" "IBar"]
  obtain ⟨later, hlater, hnone⟩ := hmore [.forIBar "App" "N.IBar"]
  have hknown : ∀ q ∈ [Plan.forIBar "App" "N.IBar"].flatMap Plan.pairs,
      ∃ p ∈ [Plan.forIBar "App" "IBar", .forIBar "Bar" "IBar"].flatMap Plan.pairs,
        Generator.pairIdentity p = Generator.pairIdentity q := by decide +kernel
  have hnames : files.map GeneratedFile.hintName = ["Foo_IBar.g.cs", "Bar.Foo_N.IBar.g.cs"] := by
    have hresult := congrArg Script.Outcome.result hrun
    rw [Generator.run_emit] at hresult
    cases hresult
    decide +kernel
  rw [hnone hknown, List.append_nil] at hlater
  exact ⟨files, log, firsts, hrun, hfiles, hnames, hknown, hlater⟩

/-- A qualified reference from a class outside of every namespace has its short name for a long
name.  If a class of that name in a namespace has made the same reference before, its file has the
name already, and both files get it: the second has its short name although an earlier file does. -/
theorem short_name_shared :
    ∃ files firsts f p,
      (((Generator.mk .byName .usual).emit [.forIBar "App" "N.IBar", .forIBar "" "N.IBar"]).run
        (fun _ => none) .idle).result = .ok files ∧
      AreFirsts ([Plan.forIBar "App" "N.IBar", .forIBar "" "N.IBar"].flatMap Plan.pairs) firsts ∧
      files[1]? = some f ∧ firsts[1]? = some p ∧
      ¬ (f.hintName = (Generator.mk .byName .usual).shortName p ↔
        (Generator.mk .byName .usual).shortName p ∉
          (files.take 1).map GeneratedFile.hintName) := by
  refine ⟨_, _, _, _, rfl, Generator.areFirsts_firstsBy _, rfl, rfl, ?_⟩
  decide +kernel

end PropertyWeaver
