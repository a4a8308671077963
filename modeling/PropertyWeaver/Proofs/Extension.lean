import PropertyWeaver.Proofs.Hosts
import PropertyWeaver.Proofs.Reading

/-!
# Programs that grow

A program grows at its end: files are added behind those that it has.  What a pass made of it
before, it makes again, in the same order and under the same names; what is made of the added files
comes after that.

Two things are carried from file to file while a pass generates, the identities that are implemented
and the names that are taken.  Both grow with what has been generated and know nothing of what is to
come.  So the acceptances of the added files cannot keep an earlier one from being the first of its
identity (`implemented_append`), and their files cannot take a name from an earlier one
(`filesFor_append`).

## Main results

* `files_isPrefix_of_append` — the files of a program are the first files of any program that it
  grows into.
-/

namespace PropertyWeaver

open Script

namespace Generator

variable (g : Generator) {find : String → Option Symbol}

theorem acceptances_append (xs ys : List (SourceFile × Declaration)) :
    g.acceptances find (xs ++ ys) = g.acceptances find xs ++ g.acceptances find ys :=
  List.flatMap_append

/-- Of the added declarations, those contracts are implemented that the others do not ask for. -/
theorem implemented_append (xs ys : List (SourceFile × Declaration)) :
    g.implemented find (xs ++ ys) =
      g.implemented find xs ++
        (firstsBy Acceptance.identity ((g.acceptances find xs).map Acceptance.identity)
          (g.acceptances find ys)).map (Acceptance.pair g.rendering) := by
  unfold implemented
  rw [acceptances_append, firstsBy_append, List.append_nil, List.map_append]

/-- The files for added contracts find the names of the others taken, and do not change them. -/
theorem filesFor_append (taken : List String) (ps qs : List (TargetType × Contract)) :
    g.filesFor taken (ps ++ qs) =
      g.filesFor taken ps ++
        g.filesFor (((g.filesFor taken ps).map GeneratedFile.hintName).reverse ++ taken) qs := by
  induction ps generalizing taken with
  | nil => rfl
  | cons p ps ih =>
      obtain ⟨target, contract⟩ := p
      have hrest := ih ((g.fileFor taken target contract).hintName :: taken)
      simp only [List.cons_append, filesFor, hrest, List.map_cons, List.reverse_cons,
        List.append_assoc, List.nil_append]

/-- A pass that returns over a program has returned over the part of it that came first. -/
theorem exists_report_of_append {host : Host} {added : List SourceFile} {later : Report}
    (h : (g.runOn { host with files := host.files ++ added } .idle).result = .ok later) :
    ∃ earlier, (g.runOn host .idle).result = .ok earlier := by
  rw [runOn, run_idle, Host.declarations_append] at h
  have hread := g.exists_report_iff.1 ⟨later, h⟩
  rw [List.forall_mem_append] at hread
  rw [runOn, run_idle]
  exact g.exists_report_iff.2 hread.1

/--
When files are added behind those of a program, and a pass over the grown program returns, then the
pass over the program as it was has returned, and its files are the first ones: none of them is
changed, renamed, moved or removed.
-/
theorem files_isPrefix_of_append (host : Host) (added : List SourceFile) (later : Report)
    (h : (g.runOn { host with files := host.files ++ added } .idle).result = .ok later) :
    ∃ earlier, (g.runOn host .idle).result = .ok earlier ∧ earlier.files <+: later.files := by
  obtain ⟨earlier, hearlier⟩ := g.exists_report_of_append h
  refine ⟨earlier, hearlier, ?_⟩
  have hfiles := g.files_of_generate hearlier
  have hlater := g.files_of_generate h
  rw [Host.declarations_append, implemented_append, filesFor_append] at hlater
  rw [hfiles, hlater, ← List.cons_append]
  exact List.prefix_append _ _

end Generator

/-- A file with another class `Foo` that names the same interface. -/
def SourceFile.namesake : SourceFile := ⟨"Bar.cs", ["using N;"], [.marked ["Bar"] "Foo" ["IBar"]]⟩

/-- The short name stays with the class that was there first. -/
theorem files_isPrefix_namesake :
    ∃ earlier later,
      ((Generator.mk .byName .usual).runOn Compilation.partialType.host .idle).result =
        .ok earlier ∧
      ((Generator.mk .byName .usual).runOn { Compilation.partialType.host with
        files := Compilation.partialType.files ++ [.namesake] } .idle).result = .ok later ∧
      earlier.files <+: later.files ∧
      later.files.map GeneratedFile.hintName =
        ["AutoImplementAttribute.g.cs", "Foo_IBar.g.cs", "Bar.Foo_N.IBar.g.cs"] := by
  obtain ⟨later, hlater, hnames⟩ : ∃ later,
      ((Generator.mk .byName .usual).runOn { Compilation.partialType.host with
        files := Compilation.partialType.files ++ [.namesake] } .idle).result = .ok later ∧
      later.files.map GeneratedFile.hintName =
        ["AutoImplementAttribute.g.cs", "Foo_IBar.g.cs", "Bar.Foo_N.IBar.g.cs"] :=
    ⟨_, rfl, by decide +kernel⟩
  obtain ⟨earlier, hearlier, hprefix⟩ := Generator.files_isPrefix_of_append (.mk .byName .usual)
    Compilation.partialType.host [.namesake] later hlater
  exact ⟨earlier, later, hearlier, hlater, hprefix, hnames⟩

end PropertyWeaver
