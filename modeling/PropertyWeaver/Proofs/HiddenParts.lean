import PropertyWeaver.Proofs.Hosts
import PropertyWeaver.Proofs.SideBySide

/-!
# Parts of symbols that a rendering hides

A symbol is handed over with everything that its compiler knows of it, and a rendering uses little
of that.  Methods, events, indexers and static properties have no automatic form.  Of a property's
type each rendering prints one of the two forms.  Of the files that declare an interface the short
form copies the directives of the first, and the qualified form copies nothing.

`Symbol.ShowsAs` relates two symbols that agree in the rest.  Such symbols are found under the same
names, are judged alike, and make the same contract.  So a pass cannot tell them apart: it is side
by side with itself, in the sense of `SideBySide`, with contracts that are equal.

## Main results

* `Symbol.ShowsAs.ofSymbol_eq` — the contract of a symbol is made of what the symbol shows.
* `Compilation.SymbolsCorrespond.lookup` — symbols that show the same are found in the same places.
* `run_of_symbolsCorrespond` — a pass comes to the same and logs the same, whatever is hidden.
-/

namespace PropertyWeaver

open Script

/-! ## What a rendering shows of a symbol -/

/-- The properties have the same name and setter, and their types print the same. -/
structure Property.PrintsAs (r : Rendering) (p p' : Property) : Prop where
  name_eq : p'.name = p.name
  type_eq : p'.type.text r = p.type.text r
  hasSetter_eq : p'.hasSetter = p.hasSetter

/-- The symbols agree in what the rendering shows of them. -/
structure Symbol.ShowsAs (r : Rendering) (s s' : Symbol) : Prop where
  name_eq : s'.name = s.name
  namespaceName_eq : s'.namespaceName = s.namespaceName
  kind_eq : s'.kind = s.kind
  attributes_eq : s'.attributes = s.attributes
  properties : List.Forall₂ (Property.PrintsAs r)
    (s.properties.filter Property.isAutomatic) (s'.properties.filter Property.isAutomatic)
  /-- Only the short form relies on directives. -/
  usings_eq : r = .display →
    s'.declaringFiles.head?.map SourceFile.usings = s.declaringFiles.head?.map SourceFile.usings

namespace Symbol.ShowsAs

variable {r : Rendering} {s s' : Symbol}

theorem metadataName_eq (h : s.ShowsAs r s') : s'.metadataName = s.metadataName := by
  unfold metadataName
  rw [h.namespaceName_eq, h.name_eq]

theorem isInterface_eq (h : s.ShowsAs r s') : s'.isInterface = s.isInterface := by
  unfold isInterface
  rw [h.kind_eq]

theorem map_ofProperty_eq {ps ps' : List Property} (h : List.Forall₂ (Property.PrintsAs r) ps ps') :
    ps'.map (AutoProperty.ofProperty r) = ps.map (AutoProperty.ofProperty r) := by
  induction h with
  | nil => rfl
  | cons hp _ ih =>
      rw [List.map_cons, List.map_cons, ih, AutoProperty.ofProperty, hp.name_eq, hp.type_eq,
        hp.hasSetter_eq, AutoProperty.ofProperty]

/-- Nothing of the first file but its directives is copied. -/
theorem directivesOf_eq
    (h : s'.declaringFiles.head?.map SourceFile.usings =
      s.declaringFiles.head?.map SourceFile.usings) :
    Contract.directivesOf s' = Contract.directivesOf s := by
  unfold Contract.directivesOf
  cases hs : s.declaringFiles.head? with
  | none =>
      rw [hs, Option.map_none, Option.map_eq_none_iff] at h
      rw [h]
  | some file =>
      rw [hs, Option.map_some] at h
      obtain ⟨file', hfile', husings⟩ := Option.map_eq_some_iff.1 h
      rw [hfile', Option.map_some, Option.map_some, SourceFile.usingLines, husings,
        SourceFile.usingLines]

theorem ofSymbol_eq (h : s.ShowsAs r s') (reference : String) :
    Contract.ofSymbol reference s' (some r) = Contract.ofSymbol reference s (some r) := by
  have hproperties := map_ofProperty_eq h.properties
  have hdirectives : (if some r = some Rendering.display then Contract.directivesOf s' else []) =
      if some r = some Rendering.display then Contract.directivesOf s else [] := by
    by_cases hr : r = .display
    · rw [directivesOf_eq (h.usings_eq hr)]
    · have hne : ¬ some r = some Rendering.display := fun e => hr (Option.some.inj e)
      rw [if_neg hne, if_neg hne]
  unfold Contract.ofSymbol
  rw [h.namespaceName_eq, h.metadataName_eq, hdirectives, Option.getD_some, hproperties]

theorem accepts_eq (h : s.ShowsAs r s') (g : Generator) : g.accepts s' = g.accepts s := by
  unfold Generator.accepts
  rw [h.attributes_eq]

end Symbol.ShowsAs

/-! ## Compilations of corresponding symbols -/

/-- The symbols of the compilations correspond one to one, in whatever order, and symbols that
correspond are related. -/
def Compilation.SymbolsCorrespond (R : Symbol → Symbol → Prop) (c c' : Compilation) : Prop :=
  ∃ symbols, symbols.Perm c'.symbols ∧ List.Forall₂ R c.symbols symbols

section Lookup

variable {r : Rendering} {c c' : Compilation}

/-- Symbols that show the same are found under the same names, and as often. -/
theorem Compilation.SymbolsCorrespond.lookup
    (h : Compilation.SymbolsCorrespond (Symbol.ShowsAs r) c c') (name : String) :
    Option.Rel (Symbol.ShowsAs r) (c.lookup name) (c'.lookup name) := by
  obtain ⟨symbols, hperm, hshows⟩ := h
  have hreorder : c'.lookup name = (Compilation.mk c'.files symbols).lookup name :=
    (lookup_of_perm (hperm.filter fun s => s.metadataName == name)).symm
  have hfound : List.Forall₂ (Symbol.ShowsAs r)
      (c.symbols.filter fun s => s.metadataName == name)
      (symbols.filter fun s => s.metadataName == name) := by
    refine List.rel_filter ?_ hshows
    intro s s' hs
    show (s.metadataName == name) = true ↔ (s'.metadataName == name) = true
    rw [hs.metadataName_eq]
  rw [hreorder]
  unfold Compilation.lookup
  dsimp only
  generalize (c.symbols.filter fun s => s.metadataName == name) = found at hfound
  generalize (symbols.filter fun s => s.metadataName == name) = found' at hfound
  cases hfound with
  | nil => exact .none
  | cons hs hrest =>
      cases hrest with
      | nil => exact .some hs
      | cons _ _ => exact .none

end Lookup

/-! ## Resolution and verdicts -/

section Verdicts

variable {r : Rendering} {find find' : String → Option Symbol}

theorem none_or_some_of_rel {α β : Type} {R : α → β → Prop} {x : Option α} {y : Option β}
    (h : Option.Rel R x y) :
    (x = none ∧ y = none) ∨ ∃ a b, x = some a ∧ y = some b ∧ R a b := by
  cases h with
  | none => exact Or.inl ⟨rfl, rfl⟩
  | some hab => exact Or.inr ⟨_, _, rfl, rfl, hab⟩

theorem rel_interfaceNamed (h : ∀ name, Option.Rel (Symbol.ShowsAs r) (find name) (find' name))
    (name : String) :
    Option.Rel (Symbol.ShowsAs r) (interfaceNamed find name) (interfaceNamed find' name) := by
  unfold interfaceNamed
  rcases none_or_some_of_rel (h name) with ⟨hfind, hfind'⟩ | ⟨s, s', hfind, hfind', hs⟩
  · rw [hfind, hfind']
    exact .none
  · rw [hfind, hfind']
    by_cases hi : s.isInterface = true
    · have hi' : s'.isInterface = true := hs.isInterface_eq.trans hi
      rw [Option.filter_some_pos hi, Option.filter_some_pos hi']
      exact .some hs
    · have hi' : ¬ s'.isInterface = true := by
        rw [hs.isInterface_eq]
        exact hi
      rw [Option.filter_some_neg (by simpa using hi),
        Option.filter_some_neg (by simpa using hi')]
      exact .none

/-- Both searches end at the same name. -/
theorem rel_findSome?_interfaceNamed
    (h : ∀ name, Option.Rel (Symbol.ShowsAs r) (find name) (find' name)) (names : List String) :
    Option.Rel (Symbol.ShowsAs r) (names.findSome? (interfaceNamed find))
      (names.findSome? (interfaceNamed find')) := by
  induction names with
  | nil => exact .none
  | cons name names ih =>
      rw [List.findSome?_cons, List.findSome?_cons]
      rcases none_or_some_of_rel (rel_interfaceNamed h name) with
        ⟨hname, hname'⟩ | ⟨s, s', hname, hname', hs⟩
      · rw [hname, hname']
        exact ih
      · rw [hname, hname']
        exact .some hs

/-- Whatever is found, it is judged alike. -/
theorem Generator.verdictOn_eq (g : Generator)
    (h : ∀ name, Option.Rel (Symbol.ShowsAs g.rendering) (find name) (find' name))
    (imports seen : List String) (reference : String) :
    g.verdictOn find' imports seen reference = g.verdictOn find imports seen reference := by
  unfold verdictOn meaning
  by_cases hb : Text.isBlankText reference = true
  · rw [if_pos hb, if_pos hb]
  · rw [if_neg hb, if_neg hb]
    rcases none_or_some_of_rel (rel_findSome?_interfaceNamed h (candidateNames reference imports))
      with ⟨hfound, hfound'⟩ | ⟨s, s', hfound, hfound', hs⟩
    · rw [hfound, hfound']
    · rw [hfound, hfound']
      dsimp only
      rw [hs.accepts_eq, hs.metadataName_eq, hs.ofSymbol_eq]

end Verdicts

/-! ## Passes with equal contracts -/

theorem Verdict.Match.refl (v : Verdict) : Verdict.Match Eq v v := by
  cases v with
  | accepted contract => exact .accepted rfl
  | skipped reference reason => exact .skipped reference reason

theorem Verdict.Match.eq {v v' : Verdict} (h : Verdict.Match Eq v v') : v = v' := by
  cases h with
  | accepted hc => rw [hc]
  | skipped reference reason => rfl

theorem Plan.Match.eq {p p' : Plan} (h : Plan.Match Eq p p') : p = p' := by
  obtain ⟨target, verdicts⟩ := p
  obtain ⟨target', verdicts'⟩ := p'
  obtain ⟨htarget, hverdicts⟩ := h
  have hequal : List.Forall₂ Eq verdicts verdicts' := hverdicts.imp fun _ _ hv => hv.eq
  rw [List.forall₂_eq_eq_eq] at hequal
  cases htarget
  cases hequal
  rfl

namespace SideBySide

variable {g : Generator} {find find' : String → Option Symbol}

/-- Generators that judge alike with equal contracts are side by side. -/
theorem of_verdictOn_eq
    (h : ∀ imports seen reference,
      g.verdictOn find' imports seen reference = g.verdictOn find imports seen reference) :
    SideBySide Eq g g find find' where
  isCandidate_eq := fun _ => rfl
  references_eq := fun _ => rfl
  fileSuffix_eq := rfl
  outline := by
    rintro c _ rfl
    exact ⟨rfl, rfl, rfl⟩
  verdict := by
    intro imports seen reference
    rw [h]
    exact .refl _

theorem planAll_eq (h : SideBySide Eq g g find find')
    (declarations : List (SourceFile × Declaration)) :
    (g.planAll declarations).ending find' = (g.planAll declarations).ending find := by
  rcases (h.ending_planAll declarations).error_or_ok with
    ⟨fault, hplans, hplans'⟩ | ⟨plans, plans', hplans, hplans', hmatch⟩
  · rw [hplans, hplans']
  · have hequal : List.Forall₂ Eq plans plans' := hmatch.imp fun _ _ hp => hp.eq
    rw [List.forall₂_eq_eq_eq] at hequal
    rw [hplans, hplans', hequal]

/-- The passes end alike. -/
theorem generate_eq (h : SideBySide Eq g g find find')
    (declarations : List (SourceFile × Declaration)) :
    (g.generate declarations).ending find' = (g.generate declarations).ending find := by
  rw [g.ending_generate, g.ending_generate, h.planAll_eq]

/-- The passes log alike.  A pass is side by side with itself, too, so that the name of the strategy
stands in its records already. -/
theorem records_eq (h : SideBySide Eq g g find find')
    (declarations : List (SourceFile × Declaration)) :
    Trace.records ((g.generate declarations).trace find') =
      Trace.records ((g.generate declarations).trace find) := by
  have hself : SideBySide Eq g g find find := of_verdictOn_eq fun _ _ _ => rfl
  exact (h.records_generate declarations).trans (hself.records_generate declarations).symm

end SideBySide

/--
What a rendering hides has no influence.  Two compilations of the same files, whose symbols
correspond one to one so that corresponding symbols show the same in the generator's rendering, make
the same report or the same fault, and the same log.
-/
theorem Generator.run_of_symbolsCorrespond (g : Generator) {c c' : Compilation}
    (hfiles : c'.files = c.files)
    (hsymbols : Compilation.SymbolsCorrespond (Symbol.ShowsAs g.rendering) c c') :
    (g.run c' .idle).result = (g.run c .idle).result ∧
      (g.run c' .idle).log = (g.run c .idle).log := by
  have hdeclarations : c'.declarations = c.declarations := by
    rw [Compilation.declarations, hfiles, Compilation.declarations]
  have hpasses : SideBySide Eq g g c.lookup c'.lookup :=
    .of_verdictOn_eq (g.verdictOn_eq hsymbols.lookup)
  unfold run
  rw [hdeclarations, run_idle, run_idle]
  exact ⟨hpasses.generate_eq _, hpasses.records_eq _⟩

/-! ## An interface seen in two ways -/

/-- An interface with one property, whose type prints in two ways.  It has a method, too, and is
declared in one file. -/
def Symbol.clock : Symbol where
  name := "IBar"
  namespaceName := "N"
  kind := "interface"
  members := [.method "Reset",
    .property ⟨"Length", ⟨"TimeSpan", "global::System.TimeSpan"⟩, true, false, false⟩]
  attributes := []
  declaringFiles := [⟨"IBar.cs", ["using System;"], []⟩]

/-- What the short form cannot tell from it: the qualified type is another one, an indexer takes the
place of the method, and the first file has another path and more in it. -/
def Symbol.clockInShort : Symbol :=
  { Symbol.clock with
    members := [.property ⟨"this[]", .keyword "int", false, true, false⟩,
      .property ⟨"Length", ⟨"TimeSpan", "global::Own.TimeSpan"⟩, true, false, false⟩]
    declaringFiles := [⟨"Clock.cs", ["using System;"], [.marked [] "Foo" ["IBar"]]⟩,
      ⟨"Clock.Part.cs", ["using Own;"], []⟩] }

/-- What the qualified form cannot tell from it: the short type is another one, there is a static
property, and no file declares the interface. -/
def Symbol.clockInFull : Symbol :=
  { Symbol.clock with
    members := [.property ⟨"Length", ⟨"Span", "global::System.TimeSpan"⟩, true, false, false⟩,
      .property ⟨"Zero", .keyword "int", false, false, true⟩]
    declaringFiles := [] }

/-- The type in two parts, with these symbols. -/
def Compilation.partialTypeWith (symbols : List Symbol) : Compilation :=
  { Compilation.partialType with symbols := symbols }

/-- Each rendering generates the same from an interface as from the one that it cannot tell from it,
wherever these stand among the symbols. -/
theorem run_of_clocks :
    Compilation.SymbolsCorrespond (Symbol.ShowsAs .display)
      (.partialTypeWith [.clock, .emptyInterface "N" "INone"])
      (.partialTypeWith [.emptyInterface "N" "INone", .clockInShort]) ∧
    Compilation.SymbolsCorrespond (Symbol.ShowsAs .qualified)
      (.partialTypeWith [.clock, .emptyInterface "N" "INone"])
      (.partialTypeWith [.emptyInterface "N" "INone", .clockInFull]) ∧
    ((Generator.mk .byName .usual).run
        (.partialTypeWith [.emptyInterface "N" "INone", .clockInShort]) .idle).result =
      ((Generator.mk .byName .usual).run
        (.partialTypeWith [.clock, .emptyInterface "N" "INone"]) .idle).result ∧
    ((Generator.mk .byNameQualified .usual).run
        (.partialTypeWith [.emptyInterface "N" "INone", .clockInFull]) .idle).result =
      ((Generator.mk .byNameQualified .usual).run
        (.partialTypeWith [.clock, .emptyInterface "N" "INone"]) .idle).result ∧
    ∃ report, ((Generator.mk .byName .usual).run
        (.partialTypeWith [.clock, .emptyInterface "N" "INone"]) .idle).result = .ok report ∧
      report.files.map GeneratedFile.hintName =
        ["AutoImplementAttribute.g.cs", "Foo_IBar.g.cs", "Foo_INone.g.cs"] := by
  have hempty : ∀ r, (Symbol.emptyInterface "N" "INone").ShowsAs r (.emptyInterface "N" "INone") :=
    fun r => ⟨rfl, rfl, rfl, rfl, List.Forall₂.nil, fun _ => rfl⟩
  have hshort : Symbol.clock.ShowsAs .display .clockInShort :=
    ⟨rfl, rfl, rfl, rfl, List.Forall₂.cons ⟨rfl, rfl, rfl⟩ List.Forall₂.nil, fun _ => rfl⟩
  have hfull : Symbol.clock.ShowsAs .qualified .clockInFull :=
    ⟨rfl, rfl, rfl, rfl, List.Forall₂.cons ⟨rfl, rfl, rfl⟩ List.Forall₂.nil, nofun⟩
  have hdisplay : Compilation.SymbolsCorrespond (Symbol.ShowsAs .display)
      (.partialTypeWith [.clock, .emptyInterface "N" "INone"])
      (.partialTypeWith [.emptyInterface "N" "INone", .clockInShort]) :=
    ⟨_, List.Perm.swap _ _ _, .cons hshort (.cons (hempty _) .nil)⟩
  have hqualified : Compilation.SymbolsCorrespond (Symbol.ShowsAs .qualified)
      (.partialTypeWith [.clock, .emptyInterface "N" "INone"])
      (.partialTypeWith [.emptyInterface "N" "INone", .clockInFull]) :=
    ⟨_, List.Perm.swap _ _ _, .cons hfull (.cons (hempty _) .nil)⟩
  have hfiles : ∀ symbols symbols', (Compilation.partialTypeWith symbols').files =
      (Compilation.partialTypeWith symbols).files := fun _ _ => rfl
  obtain ⟨hresult, -⟩ :=
    Generator.run_of_symbolsCorrespond (.mk .byName .usual) (hfiles _ _) hdisplay
  obtain ⟨hresult', -⟩ :=
    Generator.run_of_symbolsCorrespond (.mk .byNameQualified .usual) (hfiles _ _) hqualified
  exact ⟨hdisplay, hqualified, hresult, hresult', _, rfl, by decide +kernel⟩

end PropertyWeaver
