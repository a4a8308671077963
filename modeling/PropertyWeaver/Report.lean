import PropertyWeaver.GeneratedFile
import PropertyWeaver.OrderedMap
import PropertyWeaver.Value.Cbor
import PropertyWeaver.Value.Json

/-!
# Reports

A report is the result of a pass: the strategy and the generated files. It is published without the
files' texts, which their hashes stand for, as JSON for people and as canonical CBOR for hashing.
-/

namespace PropertyWeaver

/-- The result of a pass. -/
structure Report where
  strategy : String
  files : List GeneratedFile
  schemaVersion : Int := 1
  deriving DecidableEq

/-- What a report says of a file. -/
def GeneratedFile.toValue (f : GeneratedFile) : Value :=
  .object [("hint_name", .text f.hintName), ("kind", .text f.kind), ("target", .text f.targetName),
    ("namespace", .text f.targetNamespace), ("interface", .text f.interfaceName),
    ("sha256", .text f.sha256)]

namespace Report

/-- What is published. -/
def toValue (r : Report) : Value :=
  .object [("schema_version", .int r.schemaVersion), ("strategy", .text r.strategy),
    ("units", .list (r.files.map GeneratedFile.toValue))]

/-- The report as an indented JSON document. -/
def toJson (r : Report) : String := Json.document .indented r.toValue

/-- The report in canonical CBOR. -/
def toCbor (r : Report) : List UInt8 := Cbor.document r.toValue

/-- The hash of the canonical form. -/
def digest (r : Report) : String := Sha256.hexDigest r.toCbor

/-- The texts by file name; of several files of one name the last one's text counts. -/
def sources (r : Report) : OrderedMap String String :=
  OrderedMap.ofList (r.files.map fun f => (f.hintName, f.source))

/-- The files that implement interfaces. -/
def implementations (r : Report) : List GeneratedFile :=
  r.files.filter GeneratedFile.isImplementation

/-- The first file of that name. -/
def file? (r : Report) (name : String) : Option GeneratedFile :=
  r.files.find? fun f => f.hintName == name

end Report

end PropertyWeaver
