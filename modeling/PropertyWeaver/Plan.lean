import PropertyWeaver.Contract
import PropertyWeaver.Generator
import PropertyWeaver.Resolution
import PropertyWeaver.TargetType

/-!
# Plans

A plan says what is to be generated for one declaration: a verdict on each of its references, in
order. A reference is either accepted, with the contract of the interface it means, or skipped for
a reason; two references of a declaration never get contracts of the same interface.

## Main results

* `length_contracts_add_length_misses`: every verdict is one or the other.
-/

namespace PropertyWeaver

/-- What becomes of a reference. -/
inductive Verdict where
  | accepted (contract : Contract)
  | skipped (reference : String) (reason : SkipReason)
  deriving DecidableEq

namespace Verdict

/-- The contract of an accepted reference. -/
def contract? : Verdict → Option Contract
  | accepted contract => some contract
  | skipped _ _ => none

/-- A skipped reference and its reason. -/
def miss? : Verdict → Option (String × SkipReason)
  | accepted _ => none
  | skipped reference reason => some (reference, reason)

/-- The metadata names that have been accepted after this verdict. -/
def accumulate (seen : List String) : Verdict → List String
  | accepted contract => contract.metadataName :: seen
  | skipped _ _ => seen

end Verdict

/-- What is to be generated for a declaration. -/
structure Plan where
  target : TargetType
  verdicts : List Verdict
  deriving DecidableEq

namespace Plan

/-- The contracts of the accepted references, in order. -/
def contracts (p : Plan) : List Contract := p.verdicts.filterMap Verdict.contract?

/-- The skipped references with their reasons, in order. -/
def misses (p : Plan) : List (String × SkipReason) := p.verdicts.filterMap Verdict.miss?

theorem length_contracts_add_length_misses (p : Plan) :
    p.contracts.length + p.misses.length = p.verdicts.length := by
  obtain ⟨target, verdicts⟩ := p
  simp only [contracts, misses]
  induction verdicts with
  | nil => rfl
  | cons verdict verdicts ih =>
    cases verdict <;> simp only [List.filterMap_cons, Verdict.contract?, Verdict.miss?,
      List.length_cons] <;> omega

end Plan

namespace Generator

/-- The verdict on a reference that means `symbol`, when the interfaces in `seen` are taken. -/
def judgeFound (g : Generator) (seen : List String) (reference : String) (symbol : Symbol) :
    Script Verdict := do
  if !g.accepts symbol then return .skipped reference .notMarked
  else if symbol.metadataName ∈ seen then return .skipped reference .duplicate
  else return .accepted (← Contract.project reference symbol (some g.rendering))

/-- The verdict on a reference, when the interfaces in `seen` are taken. -/
def judge (g : Generator) (imports seen : List String) (reference : String) :
    Script Verdict := do
  Script.checkpoint .transform
  match ← resolve reference imports with
  | .error reason => return .skipped reference reason
  | .ok symbol => g.judgeFound seen reference symbol

/-- The verdicts on the references, when the interfaces in `seen` are taken before the first. -/
def judgeAll (g : Generator) (imports : List String) :
    List String → List String → Script (List Verdict)
  | _, [] => return []
  | seen, reference :: references => do
    let verdict ← g.judge imports seen reference
    let verdicts ← g.judgeAll imports (verdict.accumulate seen) references
    return verdict :: verdicts

/-- The plan for a declaration of a file. -/
def plan (g : Generator) (d : Declaration) (file : SourceFile) : Script Plan := do
  Script.checkpoint .transform
  let references ← Script.ofExcept (g.references d)
  let target := TargetType.ofDeclaration d file references
  let verdicts ← g.judgeAll target.imports [] references
  return ⟨target, verdicts⟩

end Generator

end PropertyWeaver
