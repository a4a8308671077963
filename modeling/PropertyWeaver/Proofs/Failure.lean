import PropertyWeaver.Proofs.FirstOccurrence
import PropertyWeaver.Proofs.Hosts
import PropertyWeaver.Proofs.Reading

/-!
# When a pass fails

Nothing that a pass does can fail but the reading of a base list, where a host may report an entry
under a form that does not exist.  Marker arguments are texts, and every text can be read; so under
a strategy that reads marker arguments a pass always returns.

A pass over base lists fails exactly if some declaration has such an entry and is no interface.  It
fails at the first of them, before it resolves anything for that declaration and before it generates
anything at all.  Its log is therefore what a pass logs of its readings that has only the
declarations before.

## Main results

* `readable_iff_not_isMalformed` — which declarations can be read.
* `exists_firstUnknown` — a program with a malformed declaration has a first entry of unknown form.
* `exists_firstUnknown_of_runOn`, `exists_entry_of_plan` — nothing else stops what nobody cancels.
* `fails_iff_isMalformed` — when a pass fails, with what, and what it leaves in the log.
-/

namespace PropertyWeaver

open Script

/-! ## Entries of unknown form -/

/-- No form that exists has the name that the entry is reported under. -/
def BaseEntry.IsUnknown (e : BaseEntry) : Prop := ∀ form : BaseForm, form.text ≠ e.form

theorem BaseForm.mem_all (form : BaseForm) : form ∈ all := by
  cases form <;> decide

theorem BaseForm.ofText?_eq_none_iff {s : String} :
    ofText? s = none ↔ ∀ form : BaseForm, form.text ≠ s := by
  unfold ofText?
  rw [List.find?_eq_none]
  constructor
  · intro h form
    simpa using h form form.mem_all
  · intro h form _
    simpa using h form

namespace BaseEntry

theorem reference_of_isUnknown {e : BaseEntry} (h : e.IsUnknown) :
    e.reference = .error (.unknownBaseForm e.form e.text) := by
  unfold reference
  rw [BaseForm.ofText?_eq_none_iff.2 h]

theorem exists_reference {e : BaseEntry} (h : ¬ e.IsUnknown) :
    ∃ name, e.reference = .ok name := by
  unfold reference
  cases hform : BaseForm.ofText? e.form with
  | none => exact absurd (BaseForm.ofText?_eq_none_iff.1 hform) h
  | some form => exact ⟨_, rfl⟩

end BaseEntry

/-- A base list of known entries can be read. -/
theorem exists_baseReferences {entries : List BaseEntry} (h : ∀ e ∈ entries, ¬ e.IsUnknown) :
    ∃ names, baseReferences entries = .ok names := by
  induction entries with
  | nil => exact ⟨[], rfl⟩
  | cons entry entries ih =>
      obtain ⟨hentry, hentries⟩ := List.forall_mem_cons.1 h
      obtain ⟨name, hname⟩ := BaseEntry.exists_reference hentry
      obtain ⟨names, hnames⟩ := ih hentries
      rw [baseReferences, hname, hnames]
      exact ⟨_, rfl⟩

/-- The first unknown entry of a base list is its fault. -/
theorem baseReferences_of_isUnknown {known : List BaseEntry} {entry : BaseEntry}
    (hknown : ∀ e ∈ known, ¬ e.IsUnknown) (hentry : entry.IsUnknown) (rest : List BaseEntry) :
    baseReferences (known ++ entry :: rest) =
      .error (.unknownBaseForm entry.form entry.text) := by
  induction known with
  | nil => rw [List.nil_append, baseReferences, BaseEntry.reference_of_isUnknown hentry]
  | cons e known ih =>
      obtain ⟨he, hrest⟩ := List.forall_mem_cons.1 hknown
      obtain ⟨name, hname⟩ := BaseEntry.exists_reference he
      rw [List.cons_append, baseReferences, hname, ih hrest]

/-- The fault of a base list is one of its entries. -/
theorem exists_entry_of_baseReferences {entries : List BaseEntry} {fault : Fault}
    (h : baseReferences entries = .error fault) :
    ∃ e ∈ entries, fault = .unknownBaseForm e.form e.text := by
  by_cases hunknown : ∃ e ∈ entries, e.IsUnknown
  · obtain ⟨entry, known, rest, hlist, hentry, hknown⟩ := exists_isFirst hunknown
    rw [hlist, baseReferences_of_isUnknown hknown hentry] at h
    cases h
    refine ⟨entry, ?_, rfl⟩
    rw [hlist]
    exact List.mem_append_right _ List.mem_cons_self
  · obtain ⟨names, hnames⟩ := exists_baseReferences fun e he hu => hunknown ⟨e, he, hu⟩
    rw [hnames] at h
    cases h

/-! ## Malformed declarations -/

/-- The declaration is no interface and has an entry of unknown form in its base list. -/
def Declaration.IsMalformed (d : Declaration) : Prop :=
  d.isInterface = false ∧ ∃ e ∈ d.baseList, e.IsUnknown

/-- A malformed declaration has a first entry that is to blame. -/
theorem Declaration.IsMalformed.exists_first_entry {d : Declaration} (h : d.IsMalformed) :
    ∃ known entry rest, d.baseList = known ++ entry :: rest ∧ entry.IsUnknown ∧
      ∀ e ∈ known, ¬ e.IsUnknown :=
  let ⟨entry, known, rest, hfirst⟩ := exists_isFirst h.2
  ⟨known, entry, rest, hfirst⟩

namespace Generator

variable (g : Generator) {find : String → Option Symbol}

/-- A pass over base lists can read a declaration exactly if it is not malformed. -/
theorem readable_iff_not_isMalformed (hg : g.strategy = .inherited)
    {x : SourceFile × Declaration} : g.Readable find x ↔ ¬ x.2.IsMalformed := by
  have hcandidate : g.isCandidate x.2 = x.2.isBaseListCandidate := by rw [isCandidate, hg]; rfl
  have hreferences : g.references x.2 = baseReferences x.2.baseList := by rw [references, hg]; rfl
  rw [readable_iff, hcandidate, hreferences, Declaration.isBaseListCandidate_iff]
  constructor
  · intro hread hmalformed
    obtain ⟨known, entry, rest, hlist, hentry, hknown⟩ := hmalformed.exists_first_entry
    have hne : x.2.baseList ≠ [] := by simp [hlist]
    obtain ⟨references, hok⟩ := hread ⟨hmalformed.1, hne⟩
    rw [hlist, baseReferences_of_isUnknown hknown hentry] at hok
    cases hok
  · rintro hsound ⟨hinterface, -⟩
    apply exists_baseReferences
    intro e he hunknown
    exact hsound ⟨hinterface, e, he, hunknown⟩

end Generator

/-! ## The first entry of unknown form -/

/-- The place of the first entry of unknown form in the base lists of a program, interfaces apart:
first by file, then by declaration, then by entry. -/
structure FirstUnknown (files : List SourceFile) where
  earlier : List SourceFile
  file : SourceFile
  later : List SourceFile
  files_eq : files = earlier ++ file :: later
  /-- The declarations of the file before the one with the entry. -/
  ready : List Declaration
  declaration : Declaration
  others : List Declaration
  declarations_eq : file.declarations = ready ++ declaration :: others
  /-- The entries of the declaration before the one of unknown form. -/
  known : List BaseEntry
  entry : BaseEntry
  rest : List BaseEntry
  baseList_eq : declaration.baseList = known ++ entry :: rest
  not_isInterface : declaration.isInterface = false
  isUnknown : entry.IsUnknown
  earlier_sound : ∀ f ∈ earlier, ∀ d ∈ f.declarations, ¬ d.IsMalformed
  ready_sound : ∀ d ∈ ready, ¬ d.IsMalformed
  known_sound : ∀ e ∈ known, ¬ e.IsUnknown

/-- A program with a malformed declaration has a first entry of unknown form. -/
theorem exists_firstUnknown {files : List SourceFile}
    (h : ∃ file ∈ files, ∃ d ∈ file.declarations, d.IsMalformed) :
    Nonempty (FirstUnknown files) := by
  obtain ⟨file, earlier, later, hfiles, hfile, hearlier⟩ := exists_isFirst h
  obtain ⟨d, ready, others, hdeclarations, hd, hready⟩ := exists_isFirst hfile
  obtain ⟨known, entry, rest, hlist, hentry, hknown⟩ := hd.exists_first_entry
  refine ⟨⟨earlier, file, later, hfiles, ready, d, others, hdeclarations, known, entry, rest,
    hlist, hd.1, hentry, ?_, hready, hknown⟩⟩
  intro f hf other hother hmalformed
  exact hearlier f hf ⟨other, hother, hmalformed⟩

namespace FirstUnknown

variable {files : List SourceFile} (first : FirstUnknown files)

/-- The files up to the declaration with the entry, and without it. -/
def before : List SourceFile :=
  first.earlier ++ [{ first.file with declarations := first.ready }]

/-- The declarations that a pass reads before it comes to the entry. -/
def readyDeclarations : List (SourceFile × Declaration) :=
  first.earlier.flatMap (fun file => file.declarations.map fun d => (file, d)) ++
    first.ready.map fun d => (first.file, d)

theorem isMalformed : first.declaration.IsMalformed := by
  refine ⟨first.not_isInterface, first.entry, ?_, first.isUnknown⟩
  rw [first.baseList_eq]
  exact List.mem_append_right _ List.mem_cons_self

theorem not_isMalformed_of_mem {x : SourceFile × Declaration}
    (hx : x ∈ first.readyDeclarations) : ¬ x.2.IsMalformed := by
  rcases List.mem_append.1 hx with hearlier | hready
  · obtain ⟨f, hf, hin⟩ := List.mem_flatMap.1 hearlier
    obtain ⟨d, hd, rfl⟩ := List.mem_map.1 hin
    exact first.earlier_sound f hf d hd
  · obtain ⟨d, hd, rfl⟩ := List.mem_map.1 hready
    exact first.ready_sound d hd

theorem before_sound : ∀ file ∈ first.before, ∀ d ∈ file.declarations, ¬ d.IsMalformed := by
  intro file hfile
  rcases List.mem_append.1 hfile with hearlier | hcut
  · exact first.earlier_sound file hearlier
  · rw [List.mem_singleton.1 hcut]
    exact first.ready_sound

/-- The declarations behind the one with the entry. -/
def remaining : List (SourceFile × Declaration) :=
  first.others.map (fun d => (first.file, d)) ++
    first.later.flatMap fun file => file.declarations.map fun d => (file, d)

theorem declarations_split (find : String → Option Symbol) :
    Host.declarations ⟨files, find⟩ =
      first.readyDeclarations ++ (first.file, first.declaration) :: first.remaining := by
  have hfiles : Host.declarations ⟨files, find⟩ =
      (first.earlier ++ first.file :: first.later).flatMap fun file =>
        file.declarations.map fun d => (file, d) := by
    rw [← first.files_eq]
    rfl
  rw [hfiles, List.flatMap_append, List.flatMap_cons, first.declarations_eq, List.map_append,
    List.map_cons, readyDeclarations, remaining, List.append_assoc, List.append_assoc,
    List.cons_append]

/-- The declarations before the entry look the same to a pass whether the rest of their file is
there or not. -/
theorem map_view_before (find : String → Option Symbol) :
    (Host.declarations ⟨first.before, find⟩).map Generator.view =
      first.readyDeclarations.map Generator.view := by
  unfold Host.declarations before readyDeclarations
  simp only [List.flatMap_append, List.flatMap_cons, List.flatMap_nil, List.append_nil,
    List.map_append, List.map_map]
  rfl

end FirstUnknown

/-! ## Passes that fail -/

namespace Generator

variable (g : Generator)

/-- A pass over base lists returns if no declaration is malformed. -/
theorem exists_report_of_sound (hg : g.strategy = .inherited) {host : Host}
    (h : ∀ file ∈ host.files, ∀ d ∈ file.declarations, ¬ d.IsMalformed) :
    ∃ report, (g.runOn host .idle).result = .ok report := by
  have hread : ∀ x ∈ host.declarations, g.Readable host.find x := by
    intro x hx
    obtain ⟨hfile, hd⟩ := Host.mem_declarations.1 hx
    exact (g.readable_iff_not_isMalformed hg).2 (h x.1 hfile x.2 hd)
  rw [runOn, run_idle]
  exact g.exists_report_iff.2 hread

/-- All declarations before the entry can be read. -/
theorem readable_of_mem_readyDeclarations (hg : g.strategy = .inherited)
    (find : String → Option Symbol) {files : List SourceFile} (first : FirstUnknown files) :
    ∀ x ∈ first.readyDeclarations, g.Readable find x := by
  intro x hx
  exact (g.readable_iff_not_isMalformed hg).2 (first.not_isMalformed_of_mem hx)

/-- The declaration with the entry is worth reading, and cannot be read. -/
theorem ending_plan_of_firstUnknown (hg : g.strategy = .inherited)
    (find : String → Option Symbol) {files : List SourceFile} (first : FirstUnknown files) :
    g.isCandidate first.declaration = true ∧
      (g.plan first.declaration first.file).ending find =
        .error (.unknownBaseForm first.entry.form first.entry.text) := by
  constructor
  · have hne : first.declaration.baseList ≠ [] := by simp [first.baseList_eq]
    rw [isCandidate, hg]
    exact Declaration.isBaseListCandidate_iff.2 ⟨first.not_isInterface, hne⟩
  · have hreferences : g.references first.declaration =
        .error (.unknownBaseForm first.entry.form first.entry.text) := by
      rw [references, hg]
      show baseReferences first.declaration.baseList = _
      rw [first.baseList_eq]
      exact baseReferences_of_isUnknown first.known_sound first.isUnknown first.rest
    rw [ending_plan, hreferences]

/-- What a pass comes to that meets an entry of unknown form, and what it has logged by then. -/
theorem runOn_of_firstUnknown (hg : g.strategy = .inherited) {host : Host}
    (first : FirstUnknown host.files) :
    (g.runOn host .idle).result =
        .error (.unknownBaseForm first.entry.form first.entry.text) ∧
      (g.runOn host .idle).log =
        first.readyDeclarations.flatMap (g.readingRecords host.find) := by
  have hready := g.readable_of_mem_readyDeclarations hg host.find first
  obtain ⟨plans, hplans⟩ := g.exists_plans_iff.2 hready
  obtain ⟨hcandidate, hplan⟩ := g.ending_plan_of_firstUnknown hg host.find first
  have hstop := g.ending_planAll_of_error hcandidate hplan first.remaining
  have hunreadable : ¬ g.Readable host.find (first.file, first.declaration) :=
    fun h => (g.readable_iff_not_isMalformed hg).1 h first.isMalformed
  -- The pass splits at the declaration with the entry: it reads what is before, and stops there.
  have hending : (g.planAll host.declarations).ending host.find =
      .error (.unknownBaseForm first.entry.form first.entry.text) := by
    rw [first.declarations_split host.find, planAll_append, ending_bind_of_ok hplans,
      ending_bind_of_error hstop]
  have hlog : Trace.records ((g.planAll host.declarations).trace host.find) =
      first.readyDeclarations.flatMap (g.readingRecords host.find) := by
    rw [first.declarations_split host.find, planAll_append, trace_bind_of_ok hplans,
      trace_bind_of_error hstop, Trace.records_append, g.records_trace_planAll hready,
      g.trace_planAll_of_not_readable hunreadable, records_reading,
      g.readingRecords_of_not_readable hunreadable, List.append_nil]
  rw [runOn, run_idle, ending_generate, hending, g.trace_generate_of_error hending, hlog]
  exact ⟨rfl, rfl⟩

/-- A pass that has only the declarations before the entry logs the same readings. -/
theorem filter_log_before (hg : g.strategy = .inherited) {host : Host}
    (first : FirstUnknown host.files) :
    (g.runOn { host with files := first.before } .idle).log.filter Record.isReading =
      first.readyDeclarations.flatMap (g.readingRecords host.find) := by
  have hready := g.readable_of_mem_readyDeclarations hg host.find first
  obtain ⟨plans, hplans⟩ := g.exists_plans_iff.2 hready
  rw [runOn, g.generate_congr (first.map_view_before host.find), run_idle]
  exact g.filter_isReading_of_ok hplans

theorem exists_fault_iff (hg : g.strategy = .inherited) {host : Host} :
    (∃ fault, (g.runOn host .idle).result = .error fault) ↔
      ∃ file ∈ host.files, ∃ d ∈ file.declarations, d.IsMalformed := by
  constructor
  · rintro ⟨fault, hfault⟩
    by_contra hnone
    have hsound : ∀ file ∈ host.files, ∀ d ∈ file.declarations, ¬ d.IsMalformed := by
      intro file hfile d hd hmalformed
      exact hnone ⟨file, hfile, d, hd, hmalformed⟩
    obtain ⟨report, hreport⟩ := g.exists_report_of_sound hg hsound
    rw [hfault] at hreport
    cases hreport
  · intro hmalformed
    obtain ⟨first⟩ := exists_firstUnknown hmalformed
    exact ⟨_, (g.runOn_of_firstUnknown hg first).1⟩

/-! ## The only fault

Whatever a pass fails with when nobody cancels, or the planning for a declaration, it is an entry of
unknown form.  No script comes to a cancellation by itself.
-/

theorem discovery_of_ne_inherited (hg : g.strategy ≠ .inherited) :
    g.strategy.discovery = .markerArguments := by
  cases hs : g.strategy with
  | byName => rfl
  | byNameQualified => rfl
  | inherited => exact absurd hs hg

theorem exists_firstUnknown_of_runOn {host : Host} {fault : Fault}
    (h : (g.runOn host .idle).result = .error fault) :
    ∃ first : FirstUnknown host.files,
      fault = .unknownBaseForm first.entry.form first.entry.text := by
  by_cases hg : g.strategy = .inherited
  · obtain ⟨first⟩ := exists_firstUnknown ((g.exists_fault_iff hg).1 ⟨fault, h⟩)
    rw [(g.runOn_of_firstUnknown hg first).1] at h
    cases h
    exact ⟨first, rfl⟩
  · obtain ⟨report, hreport⟩ := g.exists_report_of_markerArguments
      (g.discovery_of_ne_inherited hg) host.find host.declarations
    rw [runOn, hreport] at h
    cases h

theorem exists_entry_of_plan {find : String → Option Symbol} {d : Declaration} {file : SourceFile}
    {fault : Fault} (h : (g.plan d file).ending find = .error fault) :
    ∃ e ∈ d.baseList, fault = .unknownBaseForm e.form e.text := by
  have hreferences : g.references d = .error fault := by
    rw [ending_plan] at h
    cases hr : g.references d with
    | ok references =>
        rw [hr] at h
        cases h
    | error other =>
        rw [hr] at h
        cases h
        rfl
  rw [references] at hreferences
  cases hd : g.strategy.discovery with
  | markerArguments =>
      rw [hd] at hreferences
      cases hreferences
  | baseList =>
      rw [hd] at hreferences
      exact exists_entry_of_baseReferences hreferences

theorem ending_generate_ne_cancelled (host : Host) (operation : String) :
    (g.generate host.declarations).ending host.find ≠ .error (.cancelled operation) := by
  intro h
  have hresult : (g.runOn host .idle).result = .error (.cancelled operation) := by
    rw [runOn, run_idle, h]
  obtain ⟨first, hfault⟩ := g.exists_firstUnknown_of_runOn hresult
  cases hfault

theorem ending_plan_ne_cancelled (find : String → Option Symbol) (d : Declaration)
    (file : SourceFile) (operation : String) :
    (g.plan d file).ending find ≠ .error (.cancelled operation) := by
  intro h
  obtain ⟨e, -, hfault⟩ := g.exists_entry_of_plan h
  cases hfault

/-! ## When it comes to that -/

/--
A pass over marker arguments returns.  A pass over base lists fails exactly if a declaration is
malformed.  It fails with the form and the text of the first entry of unknown form, which it reports
as the host's fault; and it leaves the readings that it logs when it has only the declarations
before.
-/
theorem fails_iff_isMalformed (host : Host) :
    (g.strategy = .byName ∨ g.strategy = .byNameQualified →
      ∃ report, (g.runOn host .idle).result = .ok report) ∧
    (g.strategy = .inherited →
      ((∃ fault, (g.runOn host .idle).result = .error fault) ↔
        ∃ file ∈ host.files, ∃ d ∈ file.declarations, d.IsMalformed) ∧
      ∀ fault, (g.runOn host .idle).result = .error fault →
        ∃ first : FirstUnknown host.files,
          fault = .unknownBaseForm first.entry.form first.entry.text ∧
          (∃ diagnostic, fault.diagnostic? = some diagnostic ∧
            diagnostic.category = .hostContract ∧
            diagnostic.context = [("kind", first.entry.form), ("text", first.entry.text)]) ∧
          (∃ report, (g.runOn { host with files := first.before } .idle).result = .ok report) ∧
          (g.runOn host .idle).log =
            (g.runOn { host with files := first.before } .idle).log.filter Record.isReading) := by
  constructor
  · intro hg
    have hmarker : g.strategy.discovery = .markerArguments := by
      rcases hg with hg | hg
      · rw [hg]
        rfl
      · rw [hg]
        rfl
    exact g.exists_report_of_markerArguments hmarker host.find host.declarations
  · intro hg
    refine ⟨g.exists_fault_iff hg, ?_⟩
    intro fault hfault
    obtain ⟨first, heq⟩ := g.exists_firstUnknown_of_runOn hfault
    obtain ⟨-, hlog⟩ := g.runOn_of_firstUnknown hg first
    refine ⟨first, heq, ?_, g.exists_report_of_sound hg first.before_sound, ?_⟩
    · rw [heq]
      exact ⟨_, rfl, rfl, rfl⟩
    · rw [hlog, g.filter_log_before hg first]

end Generator

/-! ## A function pointer in a base list -/

/-- A class of the namespace `App` with a base list. -/
def Declaration.based (name : String) (baseList : List BaseEntry) : Declaration :=
  ⟨name, "class", ["App"], [], [], [], baseList⟩

/-- An entry that is a plain name. -/
def BaseEntry.named (text : String) : BaseEntry := ⟨text, "identifier"⟩

/-- A class that can be read, and one with an entry that cannot. -/
def Compilation.functionPointer : Compilation where
  files := [⟨"App.cs", ["using N;"], [
    .based "Foo" [.named "IBar", .named "INone"],
    .based "Baz" [.named "IBar", ⟨"delegate*<int>", "function_pointer"⟩]]⟩]
  symbols := [{ Symbol.emptyInterface "N" "IBar" with attributes := ["AutoImplement"] }]

/-- The class before the entry is read, with a reference that is skipped; then the pass fails. -/
theorem fails_functionPointer :
    (∃ report, ((Generator.mk .byName .usual).runOn
      Compilation.functionPointer.host .idle).result = .ok report) ∧
    ∃ first : FirstUnknown Compilation.functionPointer.host.files,
      ((Generator.mk .inherited .usual).runOn Compilation.functionPointer.host .idle).result =
        .error (.unknownBaseForm first.entry.form first.entry.text) ∧
      first.entry.form = "function_pointer" ∧
      ((Generator.mk .inherited .usual).runOn Compilation.functionPointer.host .idle).log =
        ((Generator.mk .inherited .usual).runOn { Compilation.functionPointer.host with
          files := first.before } .idle).log.filter Record.isReading ∧
      ((Generator.mk .inherited .usual).runOn Compilation.functionPointer.host .idle).log.map
        Record.event = [.candidate, .skipped] := by
  obtain ⟨hmarker, -⟩ :=
    Generator.fails_iff_isMalformed (.mk .byName .usual) Compilation.functionPointer.host
  obtain ⟨-, hbase⟩ :=
    Generator.fails_iff_isMalformed (.mk .inherited .usual) Compilation.functionPointer.host
  have hresult : ((Generator.mk .inherited .usual).runOn
      Compilation.functionPointer.host .idle).result =
        .error (.unknownBaseForm "function_pointer" "delegate*<int>") := by decide +kernel
  obtain ⟨first, hfirst, -, -, hlog⟩ := (hbase rfl).2 _ hresult
  have hform : "function_pointer" = first.entry.form := by
    injection hfirst
  refine ⟨hmarker (Or.inl rfl), first, ?_, hform.symm, hlog, ?_⟩
  · rw [hresult, hfirst]
  · decide +kernel

end PropertyWeaver
