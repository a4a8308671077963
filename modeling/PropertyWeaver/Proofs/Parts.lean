import PropertyWeaver.Proofs.Hosts
import PropertyWeaver.Proofs.Reading

/-!
# Types in parts

A type may be declared in several parts, and its list of interfaces may be spread over them in any
way.  Whether two references stand in one declaration or in two neighbouring ones makes no
difference to what is generated, although repetitions are found in different places: within a
declaration when it is planned, and across declarations when the files are placed.

What a declaration contributes is the list that it is `asked` for.  A split cuts that list in two
(`asked_split`), and both things that a pass depends on go along with the cut.  Whether all lists
can be read is decided from left to right (`readThrough_split`).  The acceptances are those of the
first part followed by those of the second, except that each remembers the whole list of its own
declaration, which nothing is generated from (`acceptances_split`, `filesFor_withoutReferences`).

## Main results

* `ending_generate_eq` — a pass fails as its reading does, and else depends on the acceptances.
* `result_split` — a pass comes to the same with a declaration as with its two parts.
-/

namespace PropertyWeaver

open Script

/-! ## Declarations in two parts -/

/-- The declaration is split in two.  Of what it lists, the one part lists the beginning and the
other the rest; in everything else they are like it. -/
inductive Declaration.Split (s : Settings) (d part part' : Declaration) : Discovery → Prop
  /-- The argument list of its first marker is divided. -/
  | markerArguments (before after : List Attribute) (a : Attribute)
      (xs ys : Option (List String))
      (attributes_eq : d.attributes = before ++ a :: after)
      (not_isMarker : ∀ b ∈ before, s.isMarker b.name = false)
      (isMarker : s.isMarker a.name = true)
      (arguments_eq : a.arguments.getD [] = xs.getD [] ++ ys.getD [])
      (part_eq : part = { d with attributes := before ++ { a with arguments := xs } :: after })
      (part'_eq : part' = { d with attributes := before ++ { a with arguments := ys } :: after }) :
      Split s d part part' .markerArguments
  /-- Its base list is divided. -/
  | baseList (xs ys : List BaseEntry)
      (baseList_eq : d.baseList = xs ++ ys)
      (part_eq : part = { d with baseList := xs })
      (part'_eq : part' = { d with baseList := ys }) :
      Split s d part part' .baseList

/-- The target without the references that it makes. -/
def TargetType.withoutReferences (t : TargetType) : TargetType := { t with references := [] }

/-- The parts of a declaration and the declaration give the same type. -/
theorem Declaration.Split.target_eq {s : Settings} {d part part' : Declaration}
    {discovery : Discovery} (h : d.Split s part part' discovery) (file : SourceFile) :
    TargetType.ofDeclaration part file [] = .ofDeclaration d file [] ∧
      TargetType.ofDeclaration part' file [] = .ofDeclaration d file [] := by
  cases h with
  | markerArguments before after a xs ys _ _ _ _ hpart hpart' =>
      rw [hpart, hpart']
      exact ⟨rfl, rfl⟩
  | baseList xs ys _ hpart hpart' =>
      rw [hpart, hpart']
      exact ⟨rfl, rfl⟩

/-! ## What a declaration is asked for -/

/-- The marker is the first attribute that is one. -/
theorem Declaration.marker?_of_first {s : Settings} {d : Declaration}
    {before after : List Attribute} {a : Attribute} (h : d.attributes = before ++ a :: after)
    (hbefore : ∀ b ∈ before, s.isMarker b.name = false) (ha : s.isMarker a.name = true) :
    d.marker? s = some a := by
  refine List.find?_eq_some_iff_append.2 ⟨ha, before, after, h, ?_⟩
  intro b hb
  rw [hbefore b hb]
  rfl

/-- The names in a base list are read from left to right, up to the first bad entry. -/
theorem baseReferences_append (xs ys : List BaseEntry) :
    baseReferences (xs ++ ys) = do
      let names ← baseReferences xs
      let more ← baseReferences ys
      return names ++ more := by
  induction xs with
  | nil =>
      rw [List.nil_append]
      cases baseReferences ys <;> rfl
  | cons entry xs ih =>
      rw [List.cons_append, baseReferences, baseReferences, ih]
      cases entry.reference with
      | error fault => rfl
      | ok name =>
          cases baseReferences xs with
          | error fault => rfl
          | ok names =>
              cases baseReferences ys with
              | error fault => rfl
              | ok more => exact congrArg Except.ok (List.append_assoc _ _ _).symm

namespace Generator

variable (g : Generator) {find : String → Option Symbol}

/-- The references of a declaration, and none of one that is not worth reading. -/
def asked (d : Declaration) : Except Fault (List String) :=
  if g.isCandidate d then g.references d else .ok []

theorem asked_of_markerArguments (hg : g.strategy.discovery = .markerArguments)
    {d : Declaration} {a : Attribute} (ha : d.marker? g.settings = some a) :
    g.asked d =
      .ok (if d.isInterface then [] else (a.arguments.getD []).map argumentName) := by
  have hcandidate : g.isCandidate d = !d.isInterface := by
    rw [isCandidate, hg]
    show (!d.isInterface && (d.marker? g.settings).isSome) = !d.isInterface
    rw [ha]
    exact Bool.and_true _
  have hreferences : g.references d = .ok ((a.arguments.getD []).map argumentName) := by
    rw [references, hg]
    show Except.ok (d.markerReferences g.settings) = _
    rw [Declaration.markerReferences, ha]
    rfl
  rw [asked, hcandidate, hreferences]
  cases d.isInterface <;> rfl

theorem asked_of_baseList (hg : g.strategy.discovery = .baseList) (d : Declaration) :
    g.asked d = if d.isInterface then .ok [] else baseReferences d.baseList := by
  have hcandidate : g.isCandidate d = d.isBaseListCandidate := by rw [isCandidate, hg]; rfl
  have hreferences : g.references d = baseReferences d.baseList := by rw [references, hg]; rfl
  rw [asked, hcandidate, hreferences, Declaration.isBaseListCandidate]
  cases d.isInterface with
  | true => rfl
  | false => cases d.baseList <;> rfl

/-- What is asked for in a declaration is asked for in its parts, one after the other. -/
theorem asked_split {d part part' : Declaration}
    (h : d.Split g.settings part part' g.strategy.discovery) :
    g.asked d = do
      let references ← g.asked part
      let more ← g.asked part'
      return references ++ more := by
  generalize hg : g.strategy.discovery = discovery at h
  cases h with
  | markerArguments before after a xs ys hattributes hbefore ha harguments hpart hpart' =>
      have hmarker := Declaration.marker?_of_first hattributes hbefore ha
      have hmarker₁ : part.marker? g.settings = some { a with arguments := xs } := by
        rw [hpart]
        exact Declaration.marker?_of_first rfl hbefore ha
      have hmarker₂ : part'.marker? g.settings = some { a with arguments := ys } := by
        rw [hpart']
        exact Declaration.marker?_of_first rfl hbefore ha
      have hinterface : part.isInterface = d.isInterface := by rw [hpart]; rfl
      have hinterface' : part'.isInterface = d.isInterface := by rw [hpart']; rfl
      rw [g.asked_of_markerArguments hg hmarker, g.asked_of_markerArguments hg hmarker₁,
        g.asked_of_markerArguments hg hmarker₂, harguments, hinterface, hinterface']
      cases d.isInterface with
      | true => rfl
      | false => exact congrArg Except.ok List.map_append
  | baseList xs ys hbaseList hpart hpart' =>
      have hinterface : part.isInterface = d.isInterface := by rw [hpart]; rfl
      have hinterface' : part'.isInterface = d.isInterface := by rw [hpart']; rfl
      rw [g.asked_of_baseList hg, g.asked_of_baseList hg, g.asked_of_baseList hg, hinterface,
        hinterface', hbaseList, hpart, hpart']
      cases d.isInterface with
      | true => rfl
      | false => exact baseReferences_append xs ys

/-- If the whole list can be read, both parts of it can be. -/
theorem exists_asked_parts {d part part' : Declaration}
    (h : d.Split g.settings part part' g.strategy.discovery) {references : List String}
    (hasked : g.asked d = .ok references) :
    ∃ names more, g.asked part = .ok names ∧ g.asked part' = .ok more ∧
      references = names ++ more := by
  rw [g.asked_split h] at hasked
  cases hpart : g.asked part with
  | error fault =>
      rw [hpart] at hasked
      cases hasked
  | ok names =>
      cases hpart' : g.asked part' with
      | error fault =>
          rw [hpart, hpart'] at hasked
          cases hasked
      | ok more =>
          rw [hpart, hpart'] at hasked
          cases hasked
          exact ⟨names, more, rfl, rfl, rfl⟩

/-! ## Reading everything -/

/-- Reads the lists of all declarations in order, up to the first that cannot be read. -/
def readThrough (declarations : List (SourceFile × Declaration)) : Except Fault Unit :=
  declarations.forM fun x => discard (g.asked x.2)

theorem readThrough_cons (x : SourceFile × Declaration)
    (xs : List (SourceFile × Declaration)) :
    g.readThrough (x :: xs) = discard (g.asked x.2) >>= fun _ => g.readThrough xs := rfl

theorem readThrough_split (file : SourceFile) {d part part' : Declaration}
    (h : d.Split g.settings part part' g.strategy.discovery)
    (xs ys : List (SourceFile × Declaration)) :
    g.readThrough (xs ++ (file, part) :: (file, part') :: ys) =
      g.readThrough (xs ++ (file, d) :: ys) := by
  unfold readThrough
  simp only [List.forM_eq_forM, List.forM_append, List.forM_cons, g.asked_split h]
  cases g.asked part with
  | error fault => rfl
  | ok references => cases g.asked part' <;> rfl

theorem exists_asked_of_readThrough {declarations : List (SourceFile × Declaration)}
    (h : g.readThrough declarations = .ok ()) :
    ∀ x ∈ declarations, ∃ references, g.asked x.2 = .ok references := by
  induction declarations with
  | nil => exact fun _ hx => absurd hx List.not_mem_nil
  | cons x rest ih =>
      rw [readThrough_cons] at h
      cases hasked : g.asked x.2 with
      | error fault =>
          rw [hasked] at h
          cases h
      | ok references =>
          rw [hasked] at h
          exact List.forall_mem_cons.2 ⟨⟨references, hasked⟩, ih h⟩

/-- Planning goes through, or fails, as reading does. -/
theorem map_ending_planAll (find : String → Option Symbol)
    (declarations : List (SourceFile × Declaration)) :
    ((g.planAll declarations).ending find).map (fun _ => ()) = g.readThrough declarations := by
  induction declarations with
  | nil => rfl
  | cons x rest ih =>
      obtain ⟨file, d⟩ := x
      rw [readThrough_cons, ← ih]
      dsimp only
      by_cases hc : g.isCandidate d = true
      · have hplan := g.ending_plan find d file
        have hasked : g.asked d = g.references d := if_pos hc
        rw [hasked]
        cases hr : g.references d with
        | error fault =>
            rw [hr] at hplan
            rw [g.ending_planAll_of_error hc hplan]
            rfl
        | ok references =>
            rw [hr] at hplan
            rw [g.ending_planAll_of_ok hc hplan]
            cases (g.planAll rest).ending find <;> rfl
      · have hasked : g.asked d = .ok [] := if_neg hc
        rw [g.ending_planAll_of_not_candidate hc, hasked]
        rfl

/-- A pass fails as its reading does, and else its files depend on what is implemented. -/
theorem ending_generate_eq (declarations : List (SourceFile × Declaration)) :
    (g.generate declarations).ending find =
      (g.readThrough declarations).map fun _ =>
        { strategy := g.strategy.text
          files := g.markerFile :: g.filesFor [] (g.implemented find declarations) } := by
  rw [ending_generate, ← g.map_ending_planAll find]
  cases hplans : (g.planAll declarations).ending find with
  | error fault => rfl
  | ok plans =>
      rw [← g.filesOf_of_planAll hplans]
      rfl

/-! ## Files without references -/

/-- A file says nothing of what else its type asks for. -/
theorem filesFor_withoutReferences (taken : List String) (ps : List (TargetType × Contract)) :
    g.filesFor taken (ps.map fun p => (p.1.withoutReferences, p.2)) = g.filesFor taken ps := by
  induction ps generalizing taken with
  | nil => rfl
  | cons p ps ih =>
      obtain ⟨t, c⟩ := p
      have hfile : g.fileFor taken t.withoutReferences c = g.fileFor taken t c := rfl
      simp only [List.map_cons, filesFor, hfile, ih]

/-- The acceptance without what else its type asks for. -/
def alone (a : Acceptance) : Acceptance := { a with target := a.target.withoutReferences }

theorem filesFor_implemented_congr {xs ys : List (SourceFile × Declaration)}
    (h : (g.acceptances find xs).map alone = (g.acceptances find ys).map alone) :
    g.filesFor [] (g.implemented find xs) = g.filesFor [] (g.implemented find ys) := by
  have hfirsts : ∀ as : List Acceptance,
      g.filesFor [] ((firstsBy Acceptance.identity [] as).map (Acceptance.pair g.rendering)) =
        g.filesFor [] ((firstsBy Acceptance.identity [] (as.map alone)).map
          (Acceptance.pair g.rendering)) := by
    intro as
    rw [← filesFor_withoutReferences, firstsBy_map, List.map_map, List.map_map]
    rfl
  unfold implemented
  rw [hfirsts, h, ← hfirsts]

theorem map_alone_acceptanceOf? (t : TargetType) (reference : String) :
    (g.acceptanceOf? find t reference).map alone =
      g.acceptanceOf? find t.withoutReferences reference := by
  have himports : t.withoutReferences.imports = t.imports := rfl
  rw [acceptanceOf?_eq, acceptanceOf?_eq, himports]
  cases meaning find reference t.imports with
  | error reason => rfl
  | ok symbol =>
      dsimp only
      split
      · rfl
      · rfl

/-- Of a declaration, its acceptances depend on its references, and on the type without them. -/
theorem map_alone_acceptancesIn {file : SourceFile} {d : Declaration} {references : List String}
    (h : g.asked d = .ok references) :
    (g.acceptancesIn find (file, d)).map alone =
      references.filterMap (g.acceptanceOf? find (.ofDeclaration d file [])) := by
  unfold asked at h
  unfold acceptancesIn
  dsimp only
  by_cases hc : g.isCandidate d = true
  · rw [if_pos hc] at h
    have halone : (fun reference => (g.acceptanceOf? find (.ofDeclaration d file references)
        reference).map alone) = g.acceptanceOf? find (.ofDeclaration d file []) :=
      funext fun reference => g.map_alone_acceptanceOf? _ reference
    rw [if_pos hc, h, List.map_filterMap, halone]
  · rw [if_neg hc] at h
    cases h
    rw [if_neg hc]
    rfl

/-! ## Passes over declarations in two parts -/

/-- The acceptances of a declaration are those of its one part and then those of the other. -/
theorem acceptances_split (file : SourceFile) {d part part' : Declaration}
    (h : d.Split g.settings part part' g.strategy.discovery) {references : List String}
    (hasked : g.asked d = .ok references) (xs ys : List (SourceFile × Declaration)) :
    (g.acceptances find (xs ++ (file, part) :: (file, part') :: ys)).map alone =
      (g.acceptances find (xs ++ (file, d) :: ys)).map alone := by
  obtain ⟨htarget, htarget'⟩ := h.target_eq file
  obtain ⟨names, more, hpart, hpart', rfl⟩ := g.exists_asked_parts h hasked
  unfold acceptances
  simp only [List.flatMap_append, List.flatMap_cons, List.map_append,
    g.map_alone_acceptancesIn hasked, g.map_alone_acceptancesIn hpart,
    g.map_alone_acceptancesIn hpart', htarget, htarget', List.filterMap_append,
    List.append_assoc]

/-- A pass over declarations comes to the same when one of them is split. -/
theorem ending_generate_split (file : SourceFile) {d part part' : Declaration}
    (h : d.Split g.settings part part' g.strategy.discovery)
    (xs ys : List (SourceFile × Declaration)) :
    (g.generate (xs ++ (file, part) :: (file, part') :: ys)).ending find =
      (g.generate (xs ++ (file, d) :: ys)).ending find := by
  rw [ending_generate_eq, ending_generate_eq, g.readThrough_split file h]
  cases hread : g.readThrough (xs ++ (file, d) :: ys) with
  | error fault => rfl
  | ok _ =>
      obtain ⟨references, hasked⟩ := g.exists_asked_of_readThrough hread (file, d) (by simp)
      rw [g.filesFor_implemented_congr (g.acceptances_split file h hasked xs ys)]

/-- When declarations of a file are replaced, a pass sees others in their place, and the rest as it
was; that the file is another one makes no difference to it. -/
theorem exists_map_view (earlier later : List SourceFile) (file : SourceFile)
    (ready others : List Declaration) :
    ∃ before after : List (SourceFile × Declaration),
      ∀ (declarations : List Declaration) (find : String → Option Symbol),
        (Host.declarations ⟨earlier ++ { file with
          declarations := ready ++ (declarations ++ others) } :: later, find⟩).map view =
            (before ++ (declarations.map (fun d => (file, d)) ++ after)).map view := by
  refine ⟨earlier.flatMap (fun f => f.declarations.map fun d => (f, d)) ++
      ready.map fun d => (file, d),
    others.map (fun d => (file, d)) ++
      later.flatMap fun f => f.declarations.map fun d => (f, d), ?_⟩
  intro declarations find
  unfold Host.declarations
  simp only [List.flatMap_append, List.flatMap_cons, List.map_append, List.map_map,
    List.append_assoc]
  rfl

/--
A pass comes to the same when a declaration is replaced, in its place, by two parts of it that stand
next to each other: to the same files under the same names and in the same order, or to the same
fault.  It does not matter where the list is cut, nor what is in it.
-/
theorem result_split (host : Host) (earlier later : List SourceFile) (file : SourceFile)
    (ready others : List Declaration) {d part part' : Declaration}
    (hfiles : host.files = earlier ++ file :: later)
    (hdeclarations : file.declarations = ready ++ d :: others)
    (hsplit : d.Split g.settings part part' g.strategy.discovery) :
    (g.runOn { host with files := earlier ++
      { file with declarations := ready ++ part :: part' :: others } :: later } .idle).result =
        (g.runOn host .idle).result := by
  obtain ⟨before, after, hview⟩ := exists_map_view earlier later file ready others
  -- Both programs are compared with the same list, where the file is the old one throughout.
  have hwhole : g.generate host.declarations = g.generate (before ++ (file, d) :: after) := by
    apply g.generate_congr
    rw [Host.declarations, hfiles]
    have hfile : { file with declarations := ready ++ ([d] ++ others) } = file := by
      show { file with declarations := ready ++ d :: others } = file
      rw [← hdeclarations]
    have hd := hview [d] host.find
    rw [hfile] at hd
    exact hd
  have hparts : g.generate (Host.declarations { host with files := earlier ++
      { file with declarations := ready ++ part :: part' :: others } :: later }) =
        g.generate (before ++ (file, part) :: (file, part') :: after) :=
    g.generate_congr (hview [part, part'] host.find)
  rw [runOn, runOn, hparts, hwhole, run_idle, run_idle]
  exact g.ending_generate_split file hsplit before after

end Generator

/-! ## A list cut in two -/

/-- A class that names one interface in two spellings and once more, another that does not exist,
and a third.  A class of the same name has the short file name already. -/
def SourceFile.listing : SourceFile :=
  ⟨"App.cs", ["using N;"], [
    .marked ["Bar"] "Foo" ["IBar"],
    .marked ["App"] "Foo" ["IBar", "N.IBar", "INone", "IBaz", "IBar"]]⟩

def Compilation.listing : Compilation where
  files := [.listing]
  symbols := [.emptyInterface "N" "IBar", .emptyInterface "N" "IBaz"]

/-- Repetitions fall within the first part, and into the second with the first name in the first
part; the third file keeps its name. -/
theorem result_split_listing :
    ∃ report,
      ((Generator.mk .byName .usual).runOn Compilation.listing.host .idle).result = .ok report ∧
      ((Generator.mk .byName .usual).runOn { Compilation.listing.host with
        files := [{ SourceFile.listing with declarations := [
          .marked ["Bar"] "Foo" ["IBar"],
          .marked ["App"] "Foo" ["IBar", "N.IBar"],
          .marked ["App"] "Foo" ["INone", "IBaz", "IBar"]] }] } .idle).result = .ok report ∧
      report.files.map GeneratedFile.hintName =
        ["AutoImplementAttribute.g.cs", "Foo_IBar.g.cs", "App.Foo_N.IBar.g.cs",
          "Foo_IBaz.g.cs"] := by
  obtain ⟨report, hreport, hnames⟩ : ∃ report,
      ((Generator.mk .byName .usual).runOn Compilation.listing.host .idle).result = .ok report ∧
      report.files.map GeneratedFile.hintName =
        ["AutoImplementAttribute.g.cs", "Foo_IBar.g.cs", "App.Foo_N.IBar.g.cs",
          "Foo_IBaz.g.cs"] :=
    ⟨_, rfl, by decide +kernel⟩
  have hsplit : (Declaration.marked ["App"] "Foo"
      ["IBar", "N.IBar", "INone", "IBaz", "IBar"]).Split .usual
        (.marked ["App"] "Foo" ["IBar", "N.IBar"])
        (.marked ["App"] "Foo" ["INone", "IBaz", "IBar"]) .markerArguments :=
    .markerArguments [] [] ⟨"AutoImplement", some ["IBar", "N.IBar", "INone", "IBaz", "IBar"]⟩
      (some ["IBar", "N.IBar"]) (some ["INone", "IBaz", "IBar"]) rfl
      (fun b hb => absurd hb List.not_mem_nil) (by decide +kernel) rfl rfl rfl
  have hparts := Generator.result_split (.mk .byName .usual) Compilation.listing.host [] []
    .listing [.marked ["Bar"] "Foo" ["IBar"]] [] rfl rfl hsplit
  exact ⟨report, hreport, hparts.trans hreport, hnames⟩

end PropertyWeaver
