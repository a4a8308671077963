import PropertyWeaver.Proofs.CborReader
import PropertyWeaver.Proofs.JsonReader
import PropertyWeaver.Report

/-!
# The two encodings of a report

A report is published as JSON and as CBOR.  Readers of either format, which know nothing of reports,
give back an object; looking its fields up by name gives the summary of the report: the strategy,
the schema version, and six texts for every file, in order.  So neither encoding loses anything of
the summary or adds anything to it, and two reports are told apart by one encoding exactly if they
are told apart by the other.

## Main results

* `Report.Summary.ofValue?_arrange` — the summary is found in the published object, whatever the
  order of its keys is.
* `Report.encodings_agree` — what the encodings hold, and when they are equal.
-/

namespace PropertyWeaver

/-! ## Summaries -/

/-- What a report says of a file. -/
structure Report.Entry where
  hintName : String
  kind : String
  targetName : String
  targetNamespace : String
  interfaceName : String
  sha256 : String
  deriving DecidableEq

/-- What a report says. -/
structure Report.Summary where
  strategy : String
  schemaVersion : Int
  entries : List Report.Entry
  deriving DecidableEq

/-- What a report says of this file. -/
def GeneratedFile.entry (f : GeneratedFile) : Report.Entry where
  hintName := f.hintName
  kind := f.kind
  targetName := f.targetName
  targetNamespace := f.targetNamespace
  interfaceName := f.interfaceName
  sha256 := f.sha256

namespace Report

/-- What this report says. -/
def summary (r : Report) : Summary where
  strategy := r.strategy
  schemaVersion := r.schemaVersion
  entries := r.files.map GeneratedFile.entry

/-! ## Summaries of objects -/

/-- The entry that an object gives by its fields. -/
def Entry.ofValue? (v : Value) : Option Entry := do
  let hintName ← (v.at? "hint_name").bind Value.text?
  let kind ← (v.at? "kind").bind Value.text?
  let targetName ← (v.at? "target").bind Value.text?
  let targetNamespace ← (v.at? "namespace").bind Value.text?
  let interfaceName ← (v.at? "interface").bind Value.text?
  let sha256 ← (v.at? "sha256").bind Value.text?
  return { hintName, kind, targetName, targetNamespace, interfaceName, sha256 }

/-- The summary that an object gives by its fields. -/
def Summary.ofValue? (v : Value) : Option Summary := do
  let strategy ← (v.at? "strategy").bind Value.text?
  let schemaVersion ← (v.at? "schema_version").bind Value.int?
  let units ← (v.at? "units").bind Value.items?
  let entries ← units.mapM Entry.ofValue?
  return { strategy, schemaVersion, entries }

theorem Entry.ofValue?_arrange (before : String → String → Bool) (f : GeneratedFile) :
    Entry.ofValue? (f.toValue.arrange before) = some f.entry := by
  have hkeys : f.toValue.KeysDistinct := by
    show ["hint_name", "kind", "target", "namespace", "interface", "sha256"].Nodup
    decide
  simp only [Entry.ofValue?, Value.at?_arrange before hkeys, Option.bind_map, Function.comp_def,
    Value.text?_arrange]
  rfl

/-- The summary is found in the published object in whatever order its keys come. -/
theorem Summary.ofValue?_arrange (before : String → String → Bool) (r : Report) :
    Summary.ofValue? (r.toValue.arrange before) = some r.summary := by
  have hkeys : r.toValue.KeysDistinct := by
    show ["schema_version", "strategy", "units"].Nodup
    decide
  have hentries : ((r.files.map GeneratedFile.toValue).map (Value.arrange before)).mapM
      Entry.ofValue? = some (r.files.map GeneratedFile.entry) := by
    rw [List.map_map, List.mapM_map]
    simp only [Function.comp_def, Entry.ofValue?_arrange]
    exact List.mapM_pure
  have hunits : (r.toValue.at? "units").bind
      (fun v => v.items?.map (List.map (Value.arrange before))) =
      some ((r.files.map GeneratedFile.toValue).map (Value.arrange before)) := rfl
  simp only [Summary.ofValue?, Value.at?_arrange before hkeys, Option.bind_map, Function.comp_def,
    Value.text?_arrange, Value.int?_arrange, Value.items?_arrange, hunits, Option.bind_eq_bind,
    Option.bind_some, hentries]
  rfl

/-- The object that is published of an entry. -/
def Entry.toValue (e : Entry) : Value :=
  .object [("hint_name", .text e.hintName), ("kind", .text e.kind), ("target", .text e.targetName),
    ("namespace", .text e.targetNamespace), ("interface", .text e.interfaceName),
    ("sha256", .text e.sha256)]

/-- Nothing is published that the summary does not hold. -/
theorem toValue_eq_of_summary {r r' : Report} (h : r.summary = r'.summary) :
    r.toValue = r'.toValue := by
  have hunits : ∀ q : Report, q.files.map GeneratedFile.toValue =
      q.summary.entries.map Entry.toValue := by
    intro q
    rw [summary, List.map_map]
    rfl
  have hstrategy : r.strategy = r'.strategy := congrArg Summary.strategy h
  have hversion : r.schemaVersion = r'.schemaVersion := congrArg Summary.schemaVersion h
  rw [toValue, toValue, hunits, hunits, h, hstrategy, hversion]

/-! ## Encodings -/

theorem read_toJson (r : Report) : Json.read r.toJson = some (r.toValue.arrange Json.keyBefore) :=
  Json.read_document r.toValue

theorem read_toCbor {r : Report} (h : r.toCbor.length < 2 ^ 64) :
    Cbor.read r.toCbor = some (r.toValue.arrange Cbor.keyBefore) :=
  Cbor.read_document h

theorem summary_of_toJson (r : Report) :
    (Json.read r.toJson).bind Summary.ofValue? = some r.summary := by
  rw [read_toJson]
  exact Summary.ofValue?_arrange Json.keyBefore r

theorem summary_of_toCbor {r : Report} (h : r.toCbor.length < 2 ^ 64) :
    (Cbor.read r.toCbor).bind Summary.ofValue? = some r.summary := by
  rw [read_toCbor h]
  exact Summary.ofValue?_arrange Cbor.keyBefore r

theorem toJson_eq_iff (r r' : Report) : r.toJson = r'.toJson ↔ r.summary = r'.summary := by
  constructor
  · intro h
    have hsummary := summary_of_toJson r
    rw [h, summary_of_toJson r'] at hsummary
    exact (Option.some.inj hsummary).symm
  · intro h
    rw [toJson, toJson, toValue_eq_of_summary h]

/-- An encoding of the same bytes has the same number of them, so one bound is enough for both. -/
theorem toCbor_eq_iff {r : Report} (h : r.toCbor.length < 2 ^ 64) (r' : Report) :
    r.toCbor = r'.toCbor ↔ r.summary = r'.summary := by
  constructor
  · intro heq
    have h' : r'.toCbor.length < 2 ^ 64 := by
      rw [← heq]
      exact h
    have hsummary := summary_of_toCbor h
    rw [heq, summary_of_toCbor h'] at hsummary
    exact (Option.some.inj hsummary).symm
  · intro hsummary
    rw [toCbor, toCbor, toValue_eq_of_summary hsummary]

/-- Both encodings of a report are read back as the published object, each with its own order of
keys, and the object's fields give the summary.  Two reports have the same JSON text exactly if they
have the same summary, and the same bytes of CBOR exactly if they have the same JSON text.  A
length takes eight bytes at most, hence the bound; no byte string of a host is as long as that. -/
theorem encodings_agree (r : Report) :
    Json.read r.toJson = some (r.toValue.arrange Json.keyBefore) ∧
      (Json.read r.toJson).bind Summary.ofValue? = some r.summary ∧
      (∀ r' : Report, r.toJson = r'.toJson ↔ r.summary = r'.summary) ∧
      (r.toCbor.length < 2 ^ 64 →
        Cbor.read r.toCbor = some (r.toValue.arrange Cbor.keyBefore) ∧
          (Cbor.read r.toCbor).bind Summary.ofValue? = some r.summary ∧
          ∀ r' : Report, r.toCbor = r'.toCbor ↔ r.toJson = r'.toJson) := by
  refine ⟨read_toJson r, summary_of_toJson r, toJson_eq_iff r, fun h => ?_⟩
  refine ⟨read_toCbor h, summary_of_toCbor h, fun r' => ?_⟩
  rw [toCbor_eq_iff h, toJson_eq_iff]

end Report

/-! ## A report with awkward contents -/

/-- A report with a version beyond 64 bits, and with texts that take escapes and several bytes. -/
def Report.awkward : Report where
  strategy := "by \"name\"\n"
  files := [
    { hintName := "Foo_\u00e9\x00.g.cs"
      source := ""
      targetName := "😀"
      targetNamespace := "A\\B\x7f"
      interfaceName := ""
      kind := "implementation" }]
  schemaVersion := -0x10000000000000001

theorem Report.encodings_agree_awkward :
    Report.awkward.toCbor.length < 2 ^ 64 ∧
      (Cbor.read Report.awkward.toCbor).bind Summary.ofValue? = some Report.awkward.summary := by
  have hlength : Report.awkward.toCbor.length < 2 ^ 64 := by decide +kernel
  exact ⟨hlength, ((Report.encodings_agree Report.awkward).2.2.2 hlength).2.1⟩

end PropertyWeaver
