import PropertyWeaver.MarkerFile
import PropertyWeaver.Placement
import PropertyWeaver.Report

/-!
# A pass

A pass over a program reads every declaration in order, plans those that are worth it, and then
generates the marker attribute's file and one file for each contract. Every plan is logged as soon
as it is made: one record for the declaration, and one for each reference that is skipped.

Everything is planned before anything is generated, so a pass that is stopped while planning has
logged the plans made until then and generated nothing.
-/

namespace PropertyWeaver

namespace Generator

/-- What the log says of a plan for a declaration of the file at `path`. -/
def candidateRecord (g : Generator) (path : String) (plan : Plan) : Record where
  event := .candidate
  operation := "transform"
  strategy := g.strategy.text
  target := plan.target.displayName
  interface := none
  message := "Discovered generation candidate."
  extra := some [("path", .text path), ("references", .texts plan.target.references),
    ("resolved", .texts (plan.contracts.map Contract.metadataName))]

/-- What the log says of a skipped reference. -/
def missRecord (g : Generator) (target : TargetType) (miss : String × SkipReason) : Record where
  event := .skipped
  operation := "transform"
  strategy := g.strategy.text
  target := target.displayName
  interface := some miss.1
  message := "Skipped interface reference."
  extra := some [("reason", .text miss.2.text)]

/-- What the log says of a plan and its skipped references. -/
def planRecords (g : Generator) (path : String) (plan : Plan) : List Record :=
  g.candidateRecord path plan :: plan.misses.map (g.missRecord plan.target)

/-- The plans for the declarations that are worth reading, each logged when it is made. -/
def planAll (g : Generator) : List (SourceFile × Declaration) → Script (List Plan)
  | [] => return []
  | (file, d) :: rest => do
    Script.checkpoint .discover
    if g.isCandidate d then
      let plan ← g.plan d file
      Script.logAll (g.planRecords file.path plan)
      let plans ← g.planAll rest
      return plan :: plans
    else g.planAll rest

/-- The file that declares the marker attribute. -/
def markerFile (g : Generator) : GeneratedFile :=
  .marker g.settings g.strategy.markerTarget

/-- A pass over declarations, each given with its file. -/
def generate (g : Generator) (declarations : List (SourceFile × Declaration)) : Script Report := do
  let plans ← g.planAll declarations
  let files ← g.emit plans
  return { strategy := g.strategy.text, files := g.markerFile :: files }

/-- A pass over a program, under a token. -/
def run (g : Generator) (c : Compilation) (token : Token) : Script.Outcome Report :=
  (g.generate c.declarations).run c.lookup token

end Generator

end PropertyWeaver
