import PropertyWeaver.Proofs.Hosts
import PropertyWeaver.Proofs.SideBySide

/-!
# What the rendering decides

A rendering decides how types print.  The strategies that read marker arguments differ only in the
rendering that they start from, so two of them are the same generator under different renderings, as
are two generators of any one strategy whose settings differ in nothing else.

How types print has a place in a generated file: the using directives, the base clause, and the type
of each property.  These three are the `Wording` of the file.  Everything else in the text is laid
out around the wording, by `Layout.worded`, and the rest of the file does not depend on it at all.

The identities of a pass and the names of its files are made of metadata names and of references,
and no rendering touches these.  So the two passes are side by side, in the sense of `SideBySide`,
with contracts that agree in everything but types and directives.

## Main results

* `Layout.source_eq_worded` — a text depends on the rendering through its wording.
* `SameButRendering.sideBySide` — passes that differ in the rendering run side by side.
* `runOn_sameButRendering` — so they fail alike, log alike and generate the same files, the wording
  of the texts apart.
-/

namespace PropertyWeaver

open Script

/-! ## Strategies -/

/-- The strategies that read marker arguments are told apart by their names and renderings only. -/
theorem Strategy.of_ne_inherited {s : Strategy} (h : s ≠ .inherited) :
    s.discovery = .markerArguments ∧ s.markerTarget = .type ∧ s.restatesInterface = true := by
  cases s with
  | byName => exact ⟨rfl, rfl, rfl⟩
  | byNameQualified => exact ⟨rfl, rfl, rfl⟩
  | inherited => exact absurd rfl h

/-! ## Wording -/

/-- What a property is apart from its type: its name, and whether it can be set. -/
def AutoProperty.slot (p : AutoProperty) : String × Bool := (p.name, p.hasSetter)

/-- The properties of a contract apart from their types. -/
def Contract.slots (c : Contract) : List (String × Bool) := c.properties.map AutoProperty.slot

/-- The parts of a text in which types print. -/
structure Wording where
  /-- The using directives. -/
  usings : List String
  /-- The interface as a base clause mentions it. -/
  base : String
  /-- The types of the properties, in order. -/
  types : List String

/-- How a contract is worded in a rendering. -/
def Contract.wording (c : Contract) (r : Rendering) : Wording where
  usings := c.requiredUsings r
  base := c.implementedName r
  types := c.properties.map AutoProperty.type

/-- The properties that fill the slots with the types. -/
def Wording.fill (w : Wording) (slots : List (String × Bool)) : List AutoProperty :=
  List.zipWith (fun type slot => ⟨type, slot.1, slot.2⟩) w.types slots

theorem Contract.fill_wording (c : Contract) (r : Rendering) :
    (c.wording r).fill c.slots = c.properties := by
  unfold Wording.fill Contract.slots Contract.wording
  dsimp only
  induction c.properties with
  | nil => rfl
  | cons p properties ih =>
      rw [List.map_cons, List.map_cons, List.zipWith_cons_cons, ih]
      rfl

/-- The text for a type, laid out around a wording. -/
def Layout.worded (s : Settings) (t : TargetType) (restates : Bool) (slots : List (String × Bool))
    (w : Wording) : String :=
  let depth := t.containers.length
  let header := "partial " ++ t.keyword ++ " " ++ t.name ++ parameterList t.typeParameters ++
    if restates then " : " ++ w.base else ""
  join (headerLines s ++ paragraph w.usings ++ paragraph (namespaceLines t.namespaceName) ++
    openings 0 t.containers ++ body depth header s.visibility.text (w.fill slots) ++
      closings depth)

/-- A text depends on the rendering through its wording. -/
theorem Layout.source_eq_worded (s : Settings) (t : TargetType) (c : Contract) (r : Rendering)
    (restates : Bool) :
    source s t c r restates = worded s t restates c.slots (c.wording r) := by
  unfold source lines worded
  rw [c.fill_wording]
  rfl

/-! ## Contracts and files up to their wording -/

/-- The contracts are of one interface, and differ at most in types and in directives. -/
structure Contract.SameButTypes (c c' : Contract) : Prop where
  name_eq : c'.name = c.name
  namespaceName_eq : c'.namespaceName = c.namespaceName
  metadataName_eq : c'.metadataName = c.metadataName
  slots_eq : c'.slots = c.slots

namespace Contract

theorem SameButTypes.sameOutline {c c' : Contract} (h : c.SameButTypes c') : c.SameOutline c' where
  name_eq := h.name_eq
  metadataName_eq := h.metadataName_eq
  length_properties := by
    have hlength := congrArg List.length h.slots_eq
    rw [slots, slots, List.length_map, List.length_map] at hlength
    exact hlength

/-- An interface asks for the same properties in every rendering. -/
theorem ofSymbol_sameButTypes (reference : String) (symbol : Symbol) (r r' : Option Rendering) :
    (ofSymbol reference symbol r).SameButTypes (ofSymbol reference symbol r') where
  name_eq := rfl
  namespaceName_eq := rfl
  metadataName_eq := rfl
  slots_eq := by
    simp only [slots, ofSymbol, List.map_map]
    rfl

end Contract

namespace Generator

variable {g g' : Generator}

/-- The files agree in everything but their texts, and these differ at most in the wording of
contracts of one interface. -/
structure SameButWording (g g' : Generator) (f f' : GeneratedFile) : Prop where
  hintName_eq : f'.hintName = f.hintName
  targetName_eq : f'.targetName = f.targetName
  targetNamespace_eq : f'.targetNamespace = f.targetNamespace
  interfaceName_eq : f'.interfaceName = f.interfaceName
  kind_eq : f'.kind = f.kind
  sources : ∃ (t : TargetType) (c c' : Contract), c.SameButTypes c' ∧
    f.source = Layout.worded g.settings t g.strategy.restatesInterface c.slots
      (c.wording g.rendering) ∧
    f'.source = Layout.worded g.settings t g.strategy.restatesInterface c.slots
      (c'.wording g'.rendering)

/-! ## Generators up to their rendering -/

/-- Both generators read base lists, or both read marker arguments, and their settings differ at
most in the rendering. -/
structure SameButRendering (g g' : Generator) : Prop where
  inherited_iff : g'.strategy = .inherited ↔ g.strategy = .inherited
  settings_eq : ∃ rendering, g'.settings = { g.settings with rendering := rendering }

namespace SameButRendering

theorem strategy_eq (h : g.SameButRendering g') :
    g'.strategy.discovery = g.strategy.discovery ∧
      g'.strategy.markerTarget = g.strategy.markerTarget ∧
      g'.strategy.restatesInterface = g.strategy.restatesInterface := by
  by_cases hs : g.strategy = .inherited
  · rw [h.inherited_iff.2 hs, hs]
    exact ⟨rfl, rfl, rfl⟩
  · have hs' : g'.strategy ≠ .inherited := fun heq => hs (h.inherited_iff.1 heq)
    obtain ⟨hdiscovery, htarget, hrestates⟩ := Strategy.of_ne_inherited hs
    obtain ⟨hdiscovery', htarget', hrestates'⟩ := Strategy.of_ne_inherited hs'
    exact ⟨hdiscovery'.trans hdiscovery.symm, htarget'.trans htarget.symm,
      hrestates'.trans hrestates.symm⟩

theorem isCandidate_eq (h : g.SameButRendering g') (d : Declaration) :
    g'.isCandidate d = g.isCandidate d := by
  obtain ⟨rendering, hsettings⟩ := h.settings_eq
  unfold isCandidate
  rw [h.strategy_eq.1, hsettings]
  cases g.strategy.discovery <;> rfl

theorem references_eq (h : g.SameButRendering g') (d : Declaration) :
    g'.references d = g.references d := by
  obtain ⟨rendering, hsettings⟩ := h.settings_eq
  unfold references
  rw [h.strategy_eq.1, hsettings]
  cases g.strategy.discovery <;> rfl

theorem accepts_eq (h : g.SameButRendering g') (symbol : Symbol) :
    g'.accepts symbol = g.accepts symbol := by
  obtain ⟨rendering, hsettings⟩ := h.settings_eq
  unfold accepts
  rw [h.strategy_eq.1, hsettings]
  cases g.strategy.discovery <;> rfl

theorem markerFile_eq (h : g.SameButRendering g') : g'.markerFile = g.markerFile := by
  obtain ⟨rendering, hsettings⟩ := h.settings_eq
  unfold markerFile
  rw [h.strategy_eq.2.1, hsettings]
  rfl

/-- What a reference means is judged without printing anything. -/
theorem verdictOn (h : g.SameButRendering g') (find : String → Option Symbol)
    (imports seen : List String) (reference : String) :
    Verdict.Match Contract.SameButTypes (g.verdictOn find imports seen reference)
      (g'.verdictOn find imports seen reference) := by
  unfold Generator.verdictOn
  cases meaning find reference imports with
  | error reason => exact .skipped reference reason
  | ok symbol =>
      dsimp only
      rw [h.accepts_eq]
      split
      · exact .skipped reference .notMarked
      · split
        · exact .skipped reference .duplicate
        · exact .accepted (Contract.ofSymbol_sameButTypes reference symbol _ _)

/-- Passes that differ in the rendering run side by side. -/
theorem sideBySide (h : g.SameButRendering g') (find : String → Option Symbol) :
    SideBySide Contract.SameButTypes g g' find find where
  isCandidate_eq := h.isCandidate_eq
  references_eq := h.references_eq
  fileSuffix_eq := by
    obtain ⟨rendering, hsettings⟩ := h.settings_eq
    rw [hsettings]
  outline := fun _ _ hc => hc.sameOutline
  verdict := h.verdictOn find

end SameButRendering

/-! ## Files -/

theorem SameButRendering.sameButWording (h : g.SameButRendering g')
    (find : String → Option Symbol) {f f' : GeneratedFile}
    (hf : FileMatch Contract.SameButTypes g g' f f') : g.SameButWording g' f f' := by
  obtain ⟨taken, t, c, c', hc, rfl, rfl⟩ := hf
  obtain ⟨rendering, hsettings⟩ := h.settings_eq
  -- The names are settled by the ledger that both passes keep; the rest is made of the contracts.
  have hhint := (h.sideBySide find).hintName_fileFor taken t hc
  rw [g.fileFor_eq, g'.fileFor_eq, hhint]
  refine ⟨rfl, rfl, rfl, hc.name_eq, rfl, t, c, c', hc, ?_, ?_⟩
  · exact Layout.source_eq_worded _ _ _ _ _
  · refine (Layout.source_eq_worded _ _ _ _ _).trans ?_
    rw [h.strategy_eq.2.2, hsettings, hc.slots_eq]
    rfl

/-! ## Passes -/

/--
Two passes that differ in the rendering come to the same fault or both return.  They log the same,
the strategy apart.  If they return, their plans are for the same types and skip the same
references, with contracts that differ at most in types and directives; and their files agree one by
one, the marker attribute's file completely and the others up to the wording of their texts.
-/
theorem runOn_sameButRendering (h : g.SameButRendering g') (host : Host) :
    (g'.runOn host .idle).log = (g.runOn host .idle).log.map (Record.under g'.strategy) ∧
      ResultMatch (List.Forall₂ (Plan.Match Contract.SameButTypes))
        ((g.planAll host.declarations).run host.find .idle).result
        ((g'.planAll host.declarations).run host.find .idle).result ∧
      ResultMatch
        (fun report report' => ∃ files files', report.files = g.markerFile :: files ∧
          report'.files = g.markerFile :: files' ∧
          List.Forall₂ (g.SameButWording g') files files')
        (g.runOn host .idle).result (g'.runOn host .idle).result := by
  have hpasses := h.sideBySide host.find
  unfold runOn
  rw [run_idle, run_idle, run_idle, run_idle]
  refine ⟨hpasses.records_generate _, hpasses.ending_planAll _, ?_⟩
  rcases (hpasses.ending_generate host.declarations).error_or_ok with
    ⟨fault, hleft, hright⟩ |
    ⟨report, report', hleft, hright, files, files', hfiles, hfiles', hmatch⟩
  · rw [hleft, hright]
    exact .error fault
  · rw [hleft, hright]
    refine .ok ⟨files, files', hfiles, ?_, ?_⟩
    · rw [hfiles', h.markerFile_eq]
    · exact hmatch.imp fun _ _ hf => h.sameButWording host.find hf

end Generator

/-- An interface with a property of a type that prints in two ways. -/
def Symbol.timed : Symbol where
  name := "IBar"
  namespaceName := "N"
  kind := "interface"
  members := [.property ⟨"Length", ⟨"TimeSpan", "global::System.TimeSpan"⟩, true, false, false⟩]
  attributes := []
  declaringFiles := [⟨"IBar.cs", ["using System;"], []⟩]

/-- The host of the type in two parts, with that interface. -/
def Host.timed : Host :=
  Compilation.host { Compilation.partialType with symbols := [.timed] }

/-- The two strategies that read marker arguments, by their own renderings: the texts differ, and
nothing else does. -/
theorem runOn_timed :
    (Generator.mk .byName .usual).SameButRendering (.mk .byNameQualified .usual) ∧
    ∃ report report' files files',
      ((Generator.mk .byName .usual).runOn .timed .idle).result = .ok report ∧
      ((Generator.mk .byNameQualified .usual).runOn .timed .idle).result = .ok report' ∧
      report.files = (Generator.mk .byName .usual).markerFile :: files ∧
      report'.files = (Generator.mk .byName .usual).markerFile :: files' ∧
      List.Forall₂ ((Generator.mk .byName .usual).SameButWording (.mk .byNameQualified .usual))
        files files' ∧
      report.files.map GeneratedFile.source ≠ report'.files.map GeneratedFile.source := by
  have hsame : (Generator.mk .byName .usual).SameButRendering (.mk .byNameQualified .usual) :=
    ⟨by decide, none, rfl⟩
  obtain ⟨report, report', hreport, hreport', hsources⟩ : ∃ report report',
      ((Generator.mk .byName .usual).runOn .timed .idle).result = .ok report ∧
      ((Generator.mk .byNameQualified .usual).runOn .timed .idle).result = .ok report' ∧
      report.files.map GeneratedFile.source ≠ report'.files.map GeneratedFile.source :=
    ⟨_, _, rfl, rfl, by decide +kernel⟩
  obtain ⟨-, -, hresults⟩ := Generator.runOn_sameButRendering hsame .timed
  rw [hreport, hreport'] at hresults
  cases hresults with
  | ok hmatch =>
      obtain ⟨files, files', hfiles, hfiles', hwording⟩ := hmatch
      exact ⟨hsame, report, report', files, files', hreport, hreport', hfiles, hfiles', hwording,
        hsources⟩

end PropertyWeaver
