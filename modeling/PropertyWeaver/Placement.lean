import PropertyWeaver.Layout
import PropertyWeaver.Plan

/-!
# Placement of files

The contracts of all plans are placed one after the other. A contract whose interface is already
implemented for the same type is dropped, as happens when a type is declared in several parts. A
file gets the short name made of the two simple names, unless an earlier file has it; then it gets
the long name made of the two metadata names.

## Main results

* `length_place`: every contract is placed or dropped.
-/

namespace PropertyWeaver

/-- What is taken when a contract comes to be placed. -/
structure Ledger where
  /-- The metadata names of target and interface of every placed file. -/
  identities : List (String × String)
  /-- The names of the placed files. -/
  names : List String

/-- What becomes of a contract. -/
inductive Placement where
  | emitted (target : TargetType) (contract : Contract) (file : GeneratedFile)
  | dropped (target : TargetType) (contract : Contract)

namespace Placement

/-- The file of a placed contract. -/
def file? : Placement → Option GeneratedFile
  | emitted _ _ file => some file
  | dropped _ _ => none

end Placement

namespace Generator

/-- The file for a contract, when the names in `taken` belong to earlier files. -/
def fileFor (g : Generator) (taken : List String) (target : TargetType) (contract : Contract) :
    GeneratedFile :=
  let file := GeneratedFile.implementing g.settings target contract g.rendering
    g.strategy.restatesInterface
  if file.hintName ∈ taken then
    { file with
      hintName :=
        FileName.hint target.metadataName contract.metadataName g.settings.fileSuffix }
  else file

/-- What becomes of the contracts, each given with its target, when some places are taken. -/
def place (g : Generator) : Ledger → List (TargetType × Contract) → List Placement
  | _, [] => []
  | ledger, (target, contract) :: rest =>
    let identity := (target.metadataName, contract.metadataName)
    if identity ∈ ledger.identities then .dropped target contract :: g.place ledger rest
    else
      let file := g.fileFor ledger.names target contract
      .emitted target contract file ::
        g.place ⟨identity :: ledger.identities, file.hintName :: ledger.names⟩ rest

theorem length_place (g : Generator) (ledger : Ledger) (pairs : List (TargetType × Contract)) :
    (g.place ledger pairs).length = pairs.length := by
  induction pairs generalizing ledger with
  | nil => rfl
  | cons pair pairs ih =>
    obtain ⟨target, contract⟩ := pair
    simp only [place]
    split <;> simp [ih]

/-- What the log says of a placement. -/
def placementRecord (g : Generator) : Placement → Record
  | .emitted target contract file =>
    { event := .emitted
      operation := "execute"
      strategy := g.strategy.text
      target := target.displayName
      interface := some contract.name
      message := "Emitted generated unit."
      extra := some [("hint_name", .text file.hintName),
        ("properties", .int contract.properties.length)] }
  | .dropped target contract =>
    { event := .dropped
      operation := "execute"
      strategy := g.strategy.text
      target := target.displayName
      interface := some contract.name
      message := "Dropped duplicate unit for a type declared in several parts."
      extra := some [("interface", .text contract.metadataName)] }

/-- What becomes of the contracts of the plans, when nothing is taken. -/
def placements (g : Generator) (plans : List Plan) : List Placement :=
  g.place ⟨[], []⟩ (plans.flatMap fun plan => plan.contracts.map fun contract =>
    (plan.target, contract))

/-- The files for the plans, with a record of each placement. -/
def emit (g : Generator) (plans : List Plan) : Script (List GeneratedFile) := do
  let placements := g.placements plans
  Script.logAll (placements.map g.placementRecord)
  return placements.filterMap Placement.file?

end Generator

end PropertyWeaver
