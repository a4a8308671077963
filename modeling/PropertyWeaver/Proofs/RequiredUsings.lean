import PropertyWeaver.Proofs.CopiedUsings
import PropertyWeaver.Proofs.Undisturbed

/-!
# What a generated file opens with

Where types print in short form, a generated file repeats the directives of the leading file that
declares the interface, and adds one for the interface's own namespace.  Repetitions are removed
twice: when the directives are read, and again once those that hold for the whole program are left
out.  The second time there is nothing left to remove, since leaving lines out and removing
repetitions commute (`copiedUsings_ofSymbol`).

That the lines are distinct, and that none of them holds for the whole program, is so for every
contract, whatever its directives are.  Which lines they are is known for the contracts of symbols.

## Main results

* `nodup_requiredUsings` — no line is asked for twice.
* `mem_requiredUsings_iff` — what is asked for, line by line.
* `requiredUsings_project` — the lines for a projection, and what they import.
-/

namespace PropertyWeaver

/-- The directives of the leading file that declares the symbol, as using lines, blank ones aside.
Those that are written twice are listed twice. -/
def Symbol.leadingUsings (s : Symbol) : List String :=
  (s.declaringFiles.head?.map fun file => (file.usings.map usingLine).filter (· != "")).getD []

namespace Contract

/-- The line holds for the whole program. -/
def isGlobalUsing (line : String) : Bool := Text.beginsWith globalUsingStart line

theorem isGlobalUsing_iff {line : String} :
    isGlobalUsing line = true ↔ ∃ rest, line = globalUsingStart ++ rest := by
  constructor
  · exact Text.exists_append_of_beginsWith
  · rintro ⟨rest, rfl⟩
    exact Text.beginsWith_append globalUsingStart rest

/-- A directive that imports a namespace holds for its file only. -/
theorem isGlobalUsing_usingOf (namespaceName : String) :
    isGlobalUsing (usingOf namespaceName) = false := by
  have hlist : (usingOf namespaceName).toList =
      'u' :: 's' :: 'i' :: 'n' :: 'g' :: ' ' :: (namespaceName ++ ";").toList := by
    simp [usingOf]
  rw [isGlobalUsing, Text.beginsWith, hlist]
  rfl

/-! ## The lines of any contract -/

theorem mem_copiedUsings_iff {c : Contract} {line : String} :
    line ∈ c.copiedUsings ↔ line ∈ c.importDirectives ∧ isGlobalUsing line = false := by
  rw [copiedUsings, List.mem_eraseDups, List.mem_filter, Bool.not_eq_true', isGlobalUsing]

/-- The directive of the interface's own namespace, where it has to be added. -/
def ownUsings (c : Contract) : List String :=
  if c.namespaceName = "" ∨ usingOf c.namespaceName ∈ c.importDirectives then []
  else [usingOf c.namespaceName]

theorem requiredUsings_eq_append (c : Contract) :
    c.requiredUsings .display = c.copiedUsings ++ c.ownUsings := by
  have hcopied :
      (c.namespaceName = "" || c.copiedUsings.contains (usingOf c.namespaceName)) = true ↔
        c.namespaceName = "" ∨ usingOf c.namespaceName ∈ c.importDirectives := by
    rw [Bool.or_eq_true, decide_eq_true_iff, List.contains_iff_mem, mem_copiedUsings_iff,
      isGlobalUsing_usingOf, eq_self, and_true]
  rw [requiredUsings, ownUsings]
  simp only [hcopied]
  split
  · exact (List.append_nil _).symm
  · rfl

/-- No line is asked for twice. -/
theorem nodup_requiredUsings (c : Contract) : (c.requiredUsings .display).Nodup := by
  have hcopied : c.copiedUsings.Nodup := nodup_eraseDups _
  rw [requiredUsings_eq_append, ownUsings]
  split
  · rwa [List.append_nil]
  · next hown =>
    refine List.nodup_append.2 ⟨hcopied, List.pairwise_singleton _ _, ?_⟩
    rintro line hline _ hadded rfl
    rw [List.mem_singleton.1 hadded] at hline
    exact hown (Or.inr (mem_copiedUsings_iff.1 hline).1)

/-- The copied lines are asked for, the line of the interface's own namespace, and nothing else. -/
theorem mem_requiredUsings_iff {c : Contract} {line : String} :
    line ∈ c.requiredUsings .display ↔
      line ∈ c.importDirectives ∧ isGlobalUsing line = false ∨
        c.namespaceName ≠ "" ∧ line = usingOf c.namespaceName := by
  constructor
  · intro hline
    rw [requiredUsings_eq_append, List.mem_append, mem_copiedUsings_iff] at hline
    refine hline.imp_right fun hown => ?_
    rw [ownUsings] at hown
    split at hown
    · cases hown
    · next hadded => exact ⟨fun hempty => hadded (Or.inl hempty), List.mem_singleton.1 hown⟩
  · rintro (hcopied | ⟨hne, rfl⟩)
    · rw [requiredUsings_eq_append]
      exact List.mem_append_left _ (mem_copiedUsings_iff.2 hcopied)
    · exact using_mem_requiredUsings hne

theorem not_isGlobalUsing_of_mem {c : Contract} {line : String}
    (h : line ∈ c.requiredUsings .display) : isGlobalUsing line = false := by
  rcases mem_requiredUsings_iff.1 h with ⟨-, hfile⟩ | ⟨-, rfl⟩
  · exact hfile
  · exact isGlobalUsing_usingOf _

/-! ## The lines of a projection -/

theorem directivesOf_eq (symbol : Symbol) :
    directivesOf symbol = symbol.leadingUsings.eraseDups := by
  rw [directivesOf, Symbol.leadingUsings]
  cases symbol.declaringFiles.head? with
  | none => rfl
  | some file => rfl

/-- Repetitions are removed before lines are left out and once more after it, to the same effect as
once. -/
theorem copiedUsings_ofSymbol (reference : String) (symbol : Symbol) :
    (ofSymbol reference symbol (some .display)).copiedUsings =
      (symbol.leadingUsings.filter fun line => !isGlobalUsing line).eraseDups := by
  show ((directivesOf symbol).filter fun line => !isGlobalUsing line).eraseDups = _
  rw [directivesOf_eq, eraseDups_filter, eraseDups_of_nodup (nodup_eraseDups _), eraseDups_filter]

theorem requiredUsings_ofSymbol (reference : String) (symbol : Symbol) :
    (ofSymbol reference symbol (some .display)).requiredUsings .display =
      (symbol.leadingUsings.filter fun line => !isGlobalUsing line).eraseDups ++
        if symbol.namespaceName = "" ∨ usingOf symbol.namespaceName ∈ symbol.leadingUsings then []
        else [usingOf symbol.namespaceName] := by
  have hdirectives : (ofSymbol reference symbol (some .display)).importDirectives =
      symbol.leadingUsings.eraseDups := directivesOf_eq symbol
  have hnamespace : (ofSymbol reference symbol (some .display)).namespaceName =
      symbol.namespaceName := rfl
  rw [requiredUsings_eq_append, copiedUsings_ofSymbol, ownUsings, hdirectives, hnamespace]
  simp only [List.mem_eraseDups]

/--
A projection in short form asks for the using lines of the leading file that declares its symbol, in
order and each once, except for those that hold for the whole program.  Behind them it asks for the
directive of the interface's own namespace, unless the namespace is empty or the directive is there
already.  So it asks for no line twice, for no line that holds for the whole program, and for
nothing that is neither copied nor the interface's own.  If the namespace is a dotted name, a file
with these directives imports it.
-/
theorem requiredUsings_project (reference : String) (symbol : Symbol)
    (find : String → Option Symbol) :
    ∃ c, ((project reference symbol (some .display)).run find .idle).result = .ok c ∧
      (∀ token c', ((project reference symbol (some .display)).run find token).result = .ok c' →
        c' = c) ∧
      (c.requiredUsings .display).Nodup ∧
      (∀ line ∈ c.requiredUsings .display, ¬ ∃ rest, line = "global using " ++ rest) ∧
      c.requiredUsings .display =
        (symbol.leadingUsings.filter fun line => !isGlobalUsing line).eraseDups ++
          (if symbol.namespaceName = "" ∨ usingOf symbol.namespaceName ∈ symbol.leadingUsings
            then [] else [usingOf symbol.namespaceName]) ∧
      (∀ line, line ∈ c.requiredUsings .display ↔
        (line ∈ symbol.leadingUsings ∧ ¬ ∃ rest, line = "global using " ++ rest) ∨
          symbol.namespaceName ≠ "" ∧ line = "using " ++ symbol.namespaceName ++ ";") ∧
      (Text.isDottedName symbol.namespaceName = true → ∀ file : SourceFile,
        file.usings = c.requiredUsings .display → symbol.namespaceName ∈ file.importPaths) := by
  have hglobal : ∀ line, isGlobalUsing line = false ↔ ¬ ∃ rest, line = "global using " ++ rest := by
    intro line
    rw [← Bool.not_eq_true, isGlobalUsing_iff]
    rfl
  refine ⟨ofSymbol reference symbol (some .display), ?_, ?_, nodup_requiredUsings _, ?_,
    requiredUsings_ofSymbol reference symbol, ?_, ?_⟩
  · rw [Script.run_idle, ending_project]
  · intro token c' hrun
    have hending := Script.ending_of_run_ok hrun
    rw [ending_project] at hending
    exact (Except.ok.inj hending).symm
  · intro line hline
    exact (hglobal line).1 (not_isGlobalUsing_of_mem hline)
  · intro line
    have hdirectives : (ofSymbol reference symbol (some .display)).importDirectives =
        symbol.leadingUsings.eraseDups := directivesOf_eq symbol
    rw [mem_requiredUsings_iff, hdirectives, List.mem_eraseDups, hglobal]
    rfl
  · intro hdotted file hfile
    have hne : symbol.namespaceName ≠ "" := by
      intro hempty
      rw [hempty] at hdotted
      exact absurd hdotted (by decide)
    exact namespaceName_mem_importPaths hfile hne fun _ hc =>
      Text.isPlain_of_mem_of_isDottedName hdotted hc

end Contract

/-- An interface that is declared in an untidy file, which imports its namespace for the whole
program only. -/
def Symbol.untidilyDeclared : Symbol where
  name := "IBar"
  namespaceName := "A.B"
  kind := "interface"
  members := []
  attributes := []
  declaringFiles := [{ SourceFile.untidy with
    usings := SourceFile.untidy.usings ++ ["global  using A.B", "using\tSystem"] }, .untidy]

theorem requiredUsings_untidilyDeclared :
    ∃ c, ((Contract.project "IBar" .untidilyDeclared (some .display)).run (fun _ => none)
        .idle).result = .ok c ∧
      c.requiredUsings .display = ["using System;", "using System;;", "using System ;",
        "using Json = System.Text.Json ;", ";", "using A.B;"] ∧
      "A.B" ∈ SourceFile.importPaths ⟨"Foo_IBar.g.cs", c.requiredUsings .display, []⟩ := by
  obtain ⟨c, hc, -, -, -, hlines, -, himports⟩ :=
    Contract.requiredUsings_project "IBar" .untidilyDeclared fun _ => none
  refine ⟨c, hc, ?_, himports (by decide +kernel) _ rfl⟩
  rw [hlines]
  decide +kernel

end PropertyWeaver
