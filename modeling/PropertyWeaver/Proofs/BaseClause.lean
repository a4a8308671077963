import PropertyWeaver.Proofs.Coverage
import PropertyWeaver.Proofs.Usings

/-!
# What a base clause means

In short form, a generated file mentions an interface by its bare name and relies on its own using
directives: those of the file that declares the interface, and one for the interface's namespace.
Read again under these, the name always means some interface of that name.  It means the interface
that was asked for exactly if no name that is tried before the metadata name of that interface is
the name of exactly one symbol that is an interface: neither the bare name, nor one behind an import
that comes before the namespace.  A name that two symbols have stands for neither and hides nothing.

The printed form makes no attempt to avoid this, so a directive copied from the interface's file can
hide the interface itself.

## Main results

* `findSome?_interfaceNamed_iff` — when a search of names comes to a given interface.
* `resolve_implementedName` — what the name in a base clause means.
-/

namespace PropertyWeaver

open Script

variable {find : String → Option Symbol}

/-! ## Programs with proper names -/

/-- The symbol has a name, and stands in no namespace or in one with a dotted name. -/
structure Symbol.WellNamed (s : Symbol) : Prop where
  name : Text.isName s.name = true
  namespaceName : s.namespaceName = "" ∨ Text.isDottedName s.namespaceName = true

instance (s : Symbol) : Decidable s.WellNamed :=
  decidable_of_iff (Text.isName s.name = true ∧
    (s.namespaceName = "" ∨ Text.isDottedName s.namespaceName = true))
    ⟨fun h => ⟨h.1, h.2⟩, fun h => ⟨h.name, h.namespaceName⟩⟩

theorem Symbol.WellNamed.isPlain_of_mem {s : Symbol} (h : s.WellNamed) {c : Char}
    (hc : c ∈ s.namespaceName.toList) : Text.isPlain c = true := by
  rcases h.namespaceName with hempty | hdotted
  · rw [hempty] at hc
    exact absurd hc List.not_mem_nil
  · exact Text.isPlain_of_mem_of_isDottedName hdotted hc

private theorem toList_dotted (path name : String) :
    (path ++ "." ++ name).toList = path.toList ++ '.' :: name.toList := by simp

/-- A bare name can only mean symbols of that name, behind whatever import. -/
theorem Symbol.WellNamed.name_eq {t : Symbol} (ht : t.WellNamed) {name : String}
    {paths : List String} (hname : Text.isName name = true)
    (h : t.metadataName ∈ candidateNames name paths) : t.name = name := by
  have hdot : '.' ∉ t.name.toList := Text.not_dot_mem_of_isNameList ht.name
  have hdot' : '.' ∉ name.toList := Text.not_dot_mem_of_isNameList hname
  unfold Symbol.metadataName at h
  rcases List.mem_cons.1 h with hbare | hpath
  · split at hbare
    · exact hbare
    · rw [← hbare, toList_dotted] at hdot'
      exact absurd (List.mem_append_right _ List.mem_cons_self) hdot'
  · obtain ⟨path, -, hpath⟩ := List.mem_map.1 hpath
    split at hpath
    · rw [← hpath, toList_dotted] at hdot
      exact absurd (List.mem_append_right _ List.mem_cons_self) hdot
    · have hlist := congrArg String.toList hpath
      rw [toList_dotted, toList_dotted] at hlist
      exact String.toList_inj.1 (Text.append_cons_inj hdot' hdot hlist).2.symm

/-! ## Searches -/

/-- A search among names comes to a symbol exactly if no name before the symbol's own is an
interface's.  Whatever is found has the name under which it is found, so a hit before is another
symbol. -/
theorem findSome?_interfaceNamed_iff
    (hfind : ∀ name s, interfaceNamed find name = some s → s.metadataName = name)
    {s : Symbol} (hs : interfaceNamed find s.metadataName = some s) {names : List String}
    (hmem : s.metadataName ∈ names) :
    names.findSome? (interfaceNamed find) = some s ↔
      ∀ name ∈ names.takeWhile (· ≠ s.metadataName), interfaceNamed find name = none := by
  induction names with
  | nil => cases hmem
  | cons name names ih =>
      by_cases hname : name = s.metadataName
      · subst hname
        simp [hs]
      · have hrest : s.metadataName ∈ names :=
          (List.mem_cons.1 hmem).resolve_left fun e => hname e.symm
        rw [List.takeWhile_cons_of_pos (by simpa using hname), List.forall_mem_cons,
          List.findSome?_cons]
        cases hfound : interfaceNamed find name with
        | none => simpa using ih hrest
        | some t =>
            constructor
            · intro heq
              cases heq
              exact absurd (hfind name _ hfound).symm hname
            · rintro ⟨hnone, -⟩
              cases hnone

namespace Compilation

theorem metadataName_of_interfaceNamed {c : Compilation} {name : String} {s : Symbol}
    (h : interfaceNamed c.lookup name = some s) : s.metadataName = name :=
  metadataName_of_lookup (interfaceNamed_eq_some_iff.1 h).1

theorem mem_symbols_of_interfaceNamed {c : Compilation} {name : String} {s : Symbol}
    (h : interfaceNamed c.lookup name = some s) : s ∈ c.symbols :=
  mem_symbols_of_lookup (interfaceNamed_eq_some_iff.1 h).1

/-- What the bare name of an interface means where the interface's metadata name is tried. -/
theorem meaning_name {c : Compilation} (hc : ∀ s ∈ c.symbols, s.WellNamed) {s : Symbol}
    (hs : interfaceNamed c.lookup s.metadataName = some s) {paths : List String}
    (hmem : s.metadataName ∈ candidateNames s.name paths) :
    ∃ t, meaning c.lookup s.name paths = .ok t ∧ t.name = s.name ∧
      (t = s ↔ ∀ name ∈ (candidateNames s.name paths).takeWhile (· ≠ s.metadataName),
        interfaceNamed c.lookup name = none) := by
  have hname : Text.isName s.name = true := (hc s (mem_symbols_of_interfaceNamed hs)).name
  obtain ⟨t, ht⟩ : ∃ t, (candidateNames s.name paths).findSome? (interfaceNamed c.lookup) =
      some t := by
    rw [← Option.isSome_iff_exists, List.findSome?_isSome_iff]
    exact ⟨s.metadataName, hmem, by rw [hs]; rfl⟩
  refine ⟨t, ?_, ?_, ?_⟩
  · unfold meaning
    rw [if_neg (Text.not_isBlankText_of_isName hname), ht]
  · obtain ⟨hit, hhit, hthit⟩ := List.exists_of_findSome?_eq_some ht
    rw [← metadataName_of_interfaceNamed hthit] at hhit
    exact (hc t (mem_symbols_of_interfaceNamed hthit)).name_eq hname hhit
  · have hfind : ∀ name s, interfaceNamed c.lookup name = some s → s.metadataName = name :=
      fun _ _ => metadataName_of_interfaceNamed
    rw [← findSome?_interfaceNamed_iff hfind hs hmem, ht, Option.some_inj]

end Compilation

/-! ## Contracts of plans -/

namespace Generator

variable (g : Generator)

theorem meaning_of_verdictOn {imports seen : List String} {reference : String}
    {contract : Contract}
    (h : (g.verdictOn find imports seen reference).contract? = some contract) :
    ∃ s, meaning find contract.name imports = .ok s ∧
      contract = .ofSymbol contract.name s (some g.rendering) := by
  unfold verdictOn at h
  cases hm : meaning find reference imports with
  | error reason =>
      rw [hm] at h
      cases h
  | ok s =>
      rw [hm] at h
      dsimp only at h
      split at h
      · cases h
      · split at h
        · cases h
        · cases h
          exact ⟨s, hm, rfl⟩

theorem meaning_of_mem_verdictsOn {imports seen references : List String} {verdict : Verdict}
    {contract : Contract} (h : verdict ∈ g.verdictsOn find imports seen references)
    (hcontract : verdict.contract? = some contract) :
    ∃ s, meaning find contract.name imports = .ok s ∧
      contract = .ofSymbol contract.name s (some g.rendering) := by
  induction references generalizing seen with
  | nil => cases h
  | cons reference references ih =>
      rcases List.mem_cons.1 h with rfl | hrest
      · exact g.meaning_of_verdictOn hcontract
      · exact ih hrest

/-- Every contract of a plan belongs to the interface that its reference means. -/
theorem meaning_of_mem_contracts {file : SourceFile} {d : Declaration} {plan : Plan}
    {contract : Contract} (hplan : (g.plan d file).ending find = .ok plan)
    (h : contract ∈ plan.contracts) :
    ∃ s, meaning find contract.name file.importPaths = .ok s ∧
      contract = .ofSymbol contract.name s (some g.rendering) := by
  rw [ending_plan] at hplan
  cases hr : g.references d with
  | error fault =>
      rw [hr] at hplan
      cases hplan
  | ok references =>
      rw [hr] at hplan
      cases hplan
      obtain ⟨verdict, hverdict, hcontract⟩ := List.mem_filterMap.1 h
      exact g.meaning_of_mem_verdictsOn hverdict hcontract

/-! ## The name in a base clause -/

/-- The metadata name of an interface is tried when its bare name is read under the directives of
its contract. -/
theorem metadataName_mem_candidateNames {s : Symbol} (hs : s.WellNamed) {reference : String}
    {emitted : SourceFile}
    (hemitted : emitted.usings =
      (Contract.ofSymbol reference s (some .display)).requiredUsings .display) :
    s.metadataName ∈ candidateNames s.name emitted.importPaths := by
  unfold Symbol.metadataName candidateNames
  split
  · exact List.mem_cons_self
  · next hne =>
    apply List.mem_cons_of_mem
    rw [List.mem_map]
    refine ⟨s.namespaceName, ?_, rfl⟩
    exact Contract.namespaceName_mem_importPaths hemitted hne fun c hc => hs.isPlain_of_mem hc

/--
The name that a base clause mentions, read under the directives that are printed above it, means an
interface of that name; and it means the interface that the reference means exactly if none of the
names that are tried before the metadata name of that interface stands for exactly one symbol that
is an interface.
-/
theorem resolve_implementedName (c : Compilation) (hc : ∀ s ∈ c.symbols, s.WellNamed)
    (hrendering : g.rendering = .display) (file : SourceFile) (d : Declaration) (plan : Plan)
    (hplan : ((g.plan d file).run c.lookup .idle).result = .ok plan)
    (contract : Contract) (hcontract : contract ∈ plan.contracts)
    (emitted : SourceFile) (hemitted : emitted.usings = contract.requiredUsings .display) :
    ∃ s t, ((resolve contract.name file.importPaths).run c.lookup .idle).result = .ok (.ok s) ∧
      contract = .ofSymbol contract.name s (some .display) ∧
      ((resolve (contract.implementedName .display) emitted.importPaths).run c.lookup
        .idle).result = .ok (.ok t) ∧
      t.isInterface = true ∧ t.name = s.name ∧
      (t = s ↔ ∀ name ∈ (candidateNames s.name emitted.importPaths).takeWhile (· ≠ s.metadataName),
        interfaceNamed c.lookup name = none) := by
  rw [run_idle] at hplan
  obtain ⟨s, hmeaning, hofSymbol⟩ := g.meaning_of_mem_contracts hplan hcontract
  rw [hrendering] at hofSymbol
  obtain ⟨found, -, hfound⟩ := exists_of_meaning hmeaning
  have hs : interfaceNamed c.lookup s.metadataName = some s := by
    rw [Compilation.metadataName_of_interfaceNamed hfound, hfound]
  have hsimple : contract.implementedName .display = s.name := by
    rw [hofSymbol]
    exact Contract.simpleName_ofSymbol contract.name s (some .display)
  have hmem : s.metadataName ∈ candidateNames s.name emitted.importPaths := by
    rw [hofSymbol] at hemitted
    exact metadataName_mem_candidateNames
      (hc s (Compilation.mem_symbols_of_interfaceNamed hs)) hemitted
  obtain ⟨t, ht, hname, hiff⟩ := Compilation.meaning_name hc hs hmem
  refine ⟨s, t, ?_, hofSymbol, ?_, isInterface_of_meaning ht, hname, hiff⟩
  · rw [run_idle, ending_resolve, hmeaning]
  · rw [run_idle, ending_resolve, hsimple, ht]

end Generator

/-! ## An interface behind a copied directive -/

/-- An interface `N.IBar` whose file imports `M`. -/
def Symbol.importing : Symbol :=
  ⟨"IBar", "N", "interface", [], [], [⟨"IBar.cs", ["using M;"], []⟩]⟩

/-- A file that imports `N`. -/
def SourceFile.importingN : SourceFile := ⟨"App.cs", ["using N;"], []⟩

/-- A file that opens as the one generated for `N.IBar` does. -/
def SourceFile.emittedForIBar : SourceFile := ⟨"Foo_IBar.g.cs", ["using M;", "using N;"], []⟩

/-- `M` holds something else, so that the copied directive does no harm. -/
def Compilation.harmless : Compilation where
  files := []
  symbols := [.importing, .emptyInterface "M" "IOther"]

/-- `M` holds an interface of the same name. -/
def Compilation.shadowed : Compilation where
  files := []
  symbols := [.importing, .emptyInterface "M" "IBar"]

theorem resolve_implementedName_harmless :
    ∃ plan contract,
      (((Generator.mk .byName .usual).plan (.marked ["App"] "Foo" ["IBar"]) .importingN).run
        Compilation.harmless.lookup .idle).result = .ok plan ∧
      contract ∈ plan.contracts ∧
      SourceFile.emittedForIBar.usings = contract.requiredUsings .display ∧
      ∃ s t, s.metadataName = "N.IBar" ∧ t = s ∧
        ((resolve (contract.implementedName .display) SourceFile.emittedForIBar.importPaths).run
          Compilation.harmless.lookup .idle).result = .ok (.ok t) := by
  have hplan : (((Generator.mk .byName .usual).plan (.marked ["App"] "Foo" ["IBar"])
      .importingN).run Compilation.harmless.lookup .idle).result =
        .ok ⟨.ofDeclaration (.marked ["App"] "Foo" ["IBar"]) .importingN ["IBar"],
          [.accepted (.ofSymbol "IBar" .importing (some .display))]⟩ := by decide +kernel
  have hcontract : Contract.ofSymbol "IBar" .importing (some .display) ∈
      [Contract.ofSymbol "IBar" .importing (some .display)] := List.mem_cons_self
  obtain ⟨s, t, hs, -, ht, -, -, hiff⟩ := Generator.resolve_implementedName (.mk .byName .usual)
    .harmless (by decide) rfl .importingN _ _ hplan _ hcontract .emittedForIBar
    (by decide +kernel)
  have himporting : s = .importing := by
    have hresult : ((resolve "IBar" SourceFile.importingN.importPaths).run
      Compilation.harmless.lookup .idle).result = .ok (.ok Symbol.importing) := by decide +kernel
    have heq := hs.symm.trans hresult
    injection heq with hok
    injection hok
  subst himporting
  refine ⟨_, _, hplan, hcontract, by decide +kernel, _, t, by decide, hiff.2 ?_, ht⟩
  decide +kernel

/-- The copied directive comes first, and `IBar` now means `M.IBar`. -/
theorem resolve_implementedName_shadowed :
    (∀ s ∈ Compilation.shadowed.symbols, s.WellNamed) ∧
    (Generator.mk .byName .usual).rendering = .display ∧
    ∃ plan, (((Generator.mk .byName .usual).plan (.marked ["App"] "Foo" ["IBar"])
        .importingN).run Compilation.shadowed.lookup .idle).result = .ok plan ∧
      plan.contracts = [.ofSymbol "IBar" .importing (some .display)] ∧
      (Contract.ofSymbol "IBar" .importing (some .display)).requiredUsings .display =
        SourceFile.emittedForIBar.usings ∧
      ((resolve "IBar" SourceFile.importingN.importPaths).run
        Compilation.shadowed.lookup .idle).result = .ok (.ok .importing) ∧
      ((resolve ((Contract.ofSymbol "IBar" .importing (some .display)).implementedName .display)
        SourceFile.emittedForIBar.importPaths).run Compilation.shadowed.lookup .idle).result =
          .ok (.ok (.emptyInterface "M" "IBar")) ∧
      Symbol.emptyInterface "M" "IBar" ≠ .importing := by
  refine ⟨by decide, rfl, _, rfl, ?_, ?_, ?_, ?_, ?_⟩
  · decide +kernel
  · decide +kernel
  · decide +kernel
  · decide +kernel
  · decide

end PropertyWeaver
