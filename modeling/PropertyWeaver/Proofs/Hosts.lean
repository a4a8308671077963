import PropertyWeaver.Proofs.Coverage

/-!
# What a pass learns of its host

A host shows a pass the files of a program and answers its lookups.  The symbols of the program are
known to a pass by these answers only.  Two hosts that show the same files and answer alike
whatever is looked up in a pass over one of them are therefore the same to that pass, whatever else
they may know.

Which names a pass looks up depends on the answers that it has had so far, so nothing can be said of
the other host's lookups beforehand.  `Script.run_congr` follows both runs request by request; they
stay together because the names that count are those of one run.

A list of symbols answers a lookup from the symbols of that name alone.  Their order does not
matter, and neither do symbols of names that are never looked up.

## Main results

* `run_congr` — a script depends on the answers to what it looks up.
* `lookup_of_perm_append` — an answer depends on the symbols of the name, in whatever order.
* `run_determined_by_answers` — so does a pass, under any token.
-/

namespace PropertyWeaver

/-! ## Hosts -/

/-- A program as its host shows it: the files in order, and an answer to every lookup. -/
structure Host where
  files : List SourceFile
  find : String → Option Symbol

/-- The declarations of every file, in order, each with its file. -/
def Host.declarations (host : Host) : List (SourceFile × Declaration) :=
  host.files.flatMap fun file => file.declarations.map fun d => (file, d)

theorem Host.mem_declarations {host : Host} {x : SourceFile × Declaration} :
    x ∈ host.declarations ↔ x.1 ∈ host.files ∧ x.2 ∈ x.1.declarations := by
  obtain ⟨file, d⟩ := x
  unfold Host.declarations
  rw [List.mem_flatMap]
  constructor
  · rintro ⟨f, hf, hin⟩
    obtain ⟨d', hd', heq⟩ := List.mem_map.1 hin
    cases heq
    exact ⟨hf, hd'⟩
  · rintro ⟨hf, hd⟩
    exact ⟨file, hf, List.mem_map.2 ⟨d, hd, rfl⟩⟩

theorem Host.declarations_append (files added : List SourceFile)
    (find : String → Option Symbol) :
    Host.declarations ⟨files ++ added, find⟩ =
      Host.declarations ⟨files, find⟩ ++ Host.declarations ⟨added, find⟩ :=
  List.flatMap_append

/-- The host that answers from a list of symbols. -/
def Compilation.host (c : Compilation) : Host := ⟨c.files, c.lookup⟩

/-- A pass over the program that a host shows, under a token. -/
def Generator.runOn (g : Generator) (host : Host) (token : Token) : Script.Outcome Report :=
  (g.generate host.declarations).run host.find token

theorem Generator.runOn_host (g : Generator) (c : Compilation) (token : Token) :
    g.runOn c.host token = g.run c token := rfl

/-! ## Answers along a run -/

/-- A run depends on no other answers than those to what it looks up.  The induction is on the
script, and the names looked up are those of the one run throughout. -/
theorem Script.run_congr {α : Type} {find find' : String → Option Symbol} {s : Script α}
    {token : Token} (h : ∀ name ∈ (s.run find token).probes, find' name = find name) :
    s.run find' token = s.run find token := by
  induction s generalizing token with
  | done value => rfl
  | fail fault => rfl
  | observe stage next ih =>
      by_cases hc : token.observed.cancelled = true
      · rw [run_observe_of_cancelled hc, run_observe_of_cancelled hc]
      · rw [run_observe_of_not_cancelled hc] at h
        rw [run_observe_of_not_cancelled hc, run_observe_of_not_cancelled hc]
        exact ih h
  | lookup name next ih =>
      have hname : find' name = find name := h name List.mem_cons_self
      have hrest : (next (find name)).run find' token.lookedUp =
          (next (find name)).run find token.lookedUp := by
        apply ih
        intro other hother
        exact h other (List.mem_cons_of_mem _ hother)
      simp only [run, hname, hrest]
  | log record next ih =>
      have hrest : next.run find' token = next.run find token := ih h
      simp only [run, hrest]

/-! ## Answers from lists of symbols -/

namespace Compilation

/-- Two lists answer a lookup alike if they have the same symbols of that name. -/
theorem lookup_of_perm {c c' : Compilation} {name : String}
    (h : (c'.symbols.filter fun s => s.metadataName == name).Perm
      (c.symbols.filter fun s => s.metadataName == name)) :
    c'.lookup name = c.lookup name := by
  ext symbol
  rw [lookup_eq_some_iff, lookup_eq_some_iff]
  constructor
  · intro hc
    rw [hc] at h
    exact (List.singleton_perm.1 h).symm
  · intro hc
    rw [hc] at h
    exact List.perm_singleton.1 h

/-- Neither the order of the symbols nor added symbols of other names change an answer. -/
theorem lookup_of_perm_append {c : Compilation} {symbols added : List Symbol}
    (hperm : symbols.Perm (c.symbols ++ added)) {name : String}
    (hadded : ∀ s ∈ added, s.metadataName ≠ name) :
    ({ c with symbols := symbols } : Compilation).lookup name = c.lookup name := by
  have hnone : (added.filter fun s => s.metadataName == name) = [] := by
    rw [List.filter_eq_nil_iff]
    intro s hs
    simpa using hadded s hs
  have hfilter := hperm.filter fun s => s.metadataName == name
  rw [List.filter_append, hnone, List.append_nil] at hfilter
  exact lookup_of_perm hfilter

end Compilation

/-! ## Passes -/

namespace Generator

variable (g : Generator)

/--
A pass shows the same over two hosts, the names it looks up included, if they show the same files
and give the same answers to what is looked up in the pass over one of them.  So it does over two
lists of symbols, if one of them is the other in a different order, with symbols added of names that
are not looked up.
-/
theorem run_determined_by_answers (token : Token) :
    (∀ host host' : Host, host'.files = host.files →
      (∀ name ∈ (g.runOn host token).probes, host'.find name = host.find name) →
        g.runOn host' token = g.runOn host token) ∧
      ∀ (c : Compilation) (symbols added : List Symbol), symbols.Perm (c.symbols ++ added) →
        (∀ s ∈ added, s.metadataName ∉ (g.run c token).probes) →
          g.run { c with symbols := symbols } token = g.run c token := by
  constructor
  · intro host host' hfiles hanswers
    have hdeclarations : host'.declarations = host.declarations := by
      rw [Host.declarations, hfiles, Host.declarations]
    rw [runOn, hdeclarations]
    exact Script.run_congr hanswers
  · intro c symbols added hperm hadded
    apply Script.run_congr
    intro name hname
    apply Compilation.lookup_of_perm_append hperm
    intro s hs heq
    exact hadded s hs (heq ▸ hname)

end Generator

/-- The host of the type in two parts, with an interface that nobody asks for. -/
def Host.generous : Host where
  files := Compilation.partialType.files
  find := fun name =>
    if name = "N.IUnasked" then some (.emptyInterface "N" "IUnasked")
    else Compilation.partialType.lookup name

/-- Neither host nor list gives anything away by what it is not asked for. -/
theorem run_generous :
    (∀ name ∈ ((Generator.mk .byName .usual).runOn Compilation.partialType.host .idle).probes,
      Host.generous.find name = Compilation.partialType.host.find name) ∧
    (Generator.mk .byName .usual).runOn .generous .idle =
      (Generator.mk .byName .usual).runOn Compilation.partialType.host .idle ∧
    (Generator.mk .byName .usual).run
        { Compilation.partialType with
          symbols := [.emptyInterface "N" "IUnasked", .emptyInterface "N" "IBar"] } .idle =
      (Generator.mk .byName .usual).run .partialType .idle := by
  obtain ⟨hhosts, hsymbols⟩ := Generator.run_determined_by_answers (.mk .byName .usual) .idle
  have hprobes : ((Generator.mk .byName .usual).run .partialType .idle).probes =
      ["IBar", "N.IBar", "INone", "N.INone", "N.IBar"] := by decide +kernel
  have hanswers : ∀ name ∈
      ((Generator.mk .byName .usual).runOn Compilation.partialType.host .idle).probes,
        Host.generous.find name = Compilation.partialType.host.find name := by
    intro name hname
    rw [Generator.runOn_host, hprobes] at hname
    have hasked : name ≠ "N.IUnasked" := by
      rintro rfl
      exact absurd hname (by decide)
    exact if_neg hasked
  refine ⟨hanswers, hhosts _ _ rfl hanswers, ?_⟩
  refine hsymbols _ _ [.emptyInterface "N" "IUnasked"] (List.Perm.swap _ _ _) ?_
  intro s hs
  rw [List.mem_singleton.1 hs, hprobes]
  decide

end PropertyWeaver
