import PropertyWeaver.Script
import PropertyWeaver.Text.Blank

/-!
# Resolution of references

A reference is the name of an interface as somebody wrote it. It is resolved as a compiler would:
first as it stands, then behind each import path of its file, and the first name that belongs to an
interface wins. Names of other types, and names that are ambiguous, do not end the search.

## Main results

* `run_probe`: without a host that cancels, a search is a search of the list of names.
-/

namespace PropertyWeaver

/-- Why a reference gives nothing. -/
inductive SkipReason where
  /-- The reference is blank. -/
  | empty
  /-- No name it could mean is an interface's. -/
  | unresolved
  /-- The interface does not carry the marker that the strategy asks for. -/
  | notMarked
  /-- An earlier reference of the declaration means the same interface. -/
  | duplicate
  deriving DecidableEq

/-- The name of a reason. -/
def SkipReason.text : SkipReason → String
  | empty => "empty"
  | unresolved => "unresolved"
  | notMarked => "not_marked"
  | duplicate => "duplicate"

/-- The names a reference could mean, in the order in which they are tried. -/
def candidateNames (reference : String) (imports : List String) : List String :=
  reference :: imports.map fun path => path ++ "." ++ reference

/-- The first of the names that is an interface's. -/
def probe : List String → Script (Option Symbol)
  | [] => .done none
  | name :: names => do
    Script.checkpoint .resolve
    match ← Script.symbolNamed name with
    | some symbol => if symbol.isInterface then return some symbol else probe names
    | none => probe names

/-- The interface a reference means, or why there is none. A blank reference is not looked up. -/
def resolve (reference : String) (imports : List String) : Script (Except SkipReason Symbol) := do
  if Text.isBlankText reference then return .error .empty
  else
    match ← probe (candidateNames reference imports) with
    | some symbol => return .ok symbol
    | none => return .error .unresolved

/-! ## Searching without a host -/

/-- The interface of that name. -/
def interfaceNamed (find : String → Option Symbol) (name : String) : Option Symbol :=
  (find name).filter Symbol.isInterface

/-- The names tried, up to the first that is an interface's. -/
def tried (find : String → Option Symbol) : List String → List String
  | [] => []
  | name :: names =>
    if (interfaceNamed find name).isSome then [name] else name :: tried find names

theorem run_probe (find : String → Option Symbol) (names : List String) :
    (probe names).run find .idle =
      ⟨.ok (names.findSome? (interfaceNamed find)), [], tried find names, .idle⟩ := by
  induction names with
  | nil => rfl
  | cons name names ih =>
    simp only [probe, Script.bind_eq, Script.pure_eq, Script.bind_checkpoint,
      Script.bind_symbolNamed, Script.run_observe_idle, Script.run_lookup_idle, tried,
      List.findSome?_cons]
    cases h : find name with
    | none => simp [interfaceNamed, h, ih]
    | some symbol =>
      by_cases hs : symbol.isInterface = true
      · simp [interfaceNamed, h, hs, Option.filter, Script.run]
      · simp [interfaceNamed, h, hs, Option.filter, ih]

end PropertyWeaver
