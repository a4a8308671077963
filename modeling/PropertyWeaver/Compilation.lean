import PropertyWeaver.Symbol

/-!
# Compilations

A compilation is a view of a whole program: its source files and the symbols they declare. A name
that several symbols share is ambiguous, and looking it up finds nothing.

## Main results

* `lookup_eq_some_iff`: what is found is the only symbol of its name.
-/

namespace PropertyWeaver

/-- A program: its files in the host's order, and its symbols. -/
structure Compilation where
  files : List SourceFile
  symbols : List Symbol
  deriving DecidableEq

namespace Compilation

/-- The declarations of every file, in order, each with its file. -/
def declarations (c : Compilation) : List (SourceFile × Declaration) :=
  c.files.flatMap fun file => file.declarations.map fun d => (file, d)

/-- The one symbol of that metadata name, if there is exactly one. -/
def lookup (c : Compilation) (name : String) : Option Symbol :=
  match c.symbols.filter fun symbol => symbol.metadataName == name with
  | [symbol] => some symbol
  | _ => none

/-- The same symbols in other files. -/
def withFiles (c : Compilation) (files : List SourceFile) : Compilation := { c with files := files }

theorem lookup_eq_some_iff {c : Compilation} {name : String} {symbol : Symbol} :
    c.lookup name = some symbol ↔
      c.symbols.filter (fun s => s.metadataName == name) = [symbol] := by
  unfold lookup
  split
  · next s h => simp [h]
  · next h =>
    constructor
    · intro e; cases e
    · exact fun e => absurd e (h symbol)

private theorem mem_filter_of_lookup {c : Compilation} {name : String} {symbol : Symbol}
    (h : c.lookup name = some symbol) :
    symbol ∈ c.symbols.filter fun s => s.metadataName == name := by
  rw [lookup_eq_some_iff.1 h]
  exact List.mem_singleton.2 rfl

theorem mem_symbols_of_lookup {c : Compilation} {name : String} {symbol : Symbol}
    (h : c.lookup name = some symbol) : symbol ∈ c.symbols :=
  (List.mem_filter.1 (mem_filter_of_lookup h)).1

theorem metadataName_of_lookup {c : Compilation} {name : String} {symbol : Symbol}
    (h : c.lookup name = some symbol) : symbol.metadataName = name := by
  simpa using (List.mem_filter.1 (mem_filter_of_lookup h)).2

@[simp] theorem lookup_withFiles (c : Compilation) (files : List SourceFile) (name : String) :
    (c.withFiles files).lookup name = c.lookup name := rfl

end Compilation

end PropertyWeaver
