import PropertyWeaver.Log
import PropertyWeaver.Proofs.AcceptedSettings
import PropertyWeaver.Proofs.JsonReader

/-!
# The log as a file

A log is written as a text of lines, one for each record.  Whatever texts a record has, its line is
written in printable ASCII (`printable_write`): everything else in a text is escaped, line breaks of
every kind among it.  So the only line feeds of the file are those after its lines, and it falls
into the lines that it is made of.

Reading a line as JSON gives the object of its record with the fields of all objects in it arranged.
`Value.Alike` is equality up to this order, and nothing else is changed (`Value.alike_arrange`).
`Record.ofValue?` looks the fields of a record up in such an object, by their names, and so every
line gives its record back, with the fields of its further objects in some order.

The records that are written are those of the known events that were asked for, in order
(`Log.after_eq_filterMap`).

## Main results

* `Json.printable_write` — one line of JSON is printable.
* `Record.ofValue?_arrange` — a record is found in its object, whatever the order of its keys is.
* `Log.splitOn_jsonLines` — the file falls into its lines.
* `Log.jsonLines_readable` — the file is printable, and read line by line it gives the records.
-/

namespace PropertyWeaver

/-! ## Printable text -/

namespace Json

/-- The character is a printable one of ASCII. -/
def Printable (c : Char) : Prop := 0x20 ≤ c.toNat ∧ c.toNat ≤ 0x7E

instance (c : Char) : Decidable (Printable c) :=
  inferInstanceAs (Decidable (0x20 ≤ c.toNat ∧ c.toNat ≤ 0x7E))

theorem printable_of_all {cs : List Char} (h : (cs.all fun c => decide (Printable c)) = true) :
    ∀ c ∈ cs, Printable c := by
  simpa only [List.all_eq_true, decide_eq_true_eq] using h

theorem printable_hexDigits (width n : Nat) : ∀ c ∈ Text.hexDigits width n, Printable c := by
  have hdigit : ∀ m < 16, Printable (Nat.digitChar m) := by decide
  induction width generalizing n with
  | zero => exact List.forall_mem_nil _
  | succ width ih =>
      rw [Text.hexDigits, List.forall_mem_append, List.forall_mem_singleton]
      exact ⟨ih (n / 16), hdigit (n % 16) (Nat.mod_lt n (by decide))⟩

theorem printable_escapeUnit (n : Nat) : ∀ c ∈ escapeUnit n, Printable c := by
  rw [escapeUnit, List.forall_mem_cons, List.forall_mem_cons]
  exact ⟨by decide, by decide, printable_hexDigits 4 n⟩

/-- Whatever a character is, it is written in printable ones. -/
theorem printable_escape (c : Char) : ∀ d ∈ escape c, Printable d := by
  unfold escape
  iterate 7
    split
    · exact printable_of_all (by decide)
  split
  · next hprintable =>
      rw [List.forall_mem_singleton]
      exact hprintable
  split
  · exact printable_escapeUnit c.toNat
  · rw [escapePair, List.forall_mem_append]
    exact ⟨printable_escapeUnit _, printable_escapeUnit _⟩

theorem printable_quoted (s : String) : ∀ c ∈ quoted s, Printable c := by
  rw [quoted, List.cons_append, List.forall_mem_cons, List.forall_mem_append,
    List.forall_mem_singleton]
  refine ⟨by decide, fun c hc => ?_, by decide⟩
  obtain ⟨d, -, hd⟩ := List.mem_flatMap.1 hc
  exact printable_escape d c hd

-- a line separator, a delete character, and a character with two code units
example : quoted "\u2028\x7f😀" = "\"\\u2028\\u007f\\ud83d\\ude00\"".toList := by decide +kernel

theorem printable_toDigits (n : Nat) : ∀ c ∈ Nat.toDigits 10 n, Printable c := by
  intro c hc
  have hdigit : c.isDigit = true := Nat.isDigit_of_mem_toDigits (by decide) (by decide) hc
  have hzero : '0'.toNat = 0x30 := rfl
  have hnine : '9'.toNat = 0x39 := rfl
  rw [Char.isDigit_iff_toNat, hzero, hnine] at hdigit
  unfold Printable
  omega

theorem printable_decimal (n : Int) : ∀ c ∈ decimal n, Printable c := by
  cases n with
  | ofNat n => exact printable_toDigits n
  | negSucc n =>
      rw [decimal, List.forall_mem_cons]
      exact ⟨by decide, printable_toDigits (n + 1)⟩

/-- On one line, nothing is put around items that is not printable. -/
theorem printable_enclosed {α : Type} {print : α → List Char} {close : Char} (depth : Nat)
    {items : List α} (hclose : Printable close)
    (hitems : ∀ item ∈ items, ∀ c ∈ print item, Printable c) :
    ∀ c ∈ enclosed .line depth print close items, Printable c := by
  have hseparator : ∀ c ∈ [',', ' '], Printable c := printable_of_all (by decide)
  cases items with
  | nil =>
      rw [enclosed, List.forall_mem_singleton]
      exact hclose
  | cons item items =>
      obtain ⟨hitem, hrest⟩ := List.forall_mem_cons.1 hitems
      simp only [enclosed, listed, List.forall_mem_append, List.forall_mem_singleton]
      refine ⟨List.forall_mem_nil _, ⟨hitem, fun c hc => ?_⟩, List.forall_mem_nil _, hclose⟩
      obtain ⟨x, hx, hc⟩ := List.mem_flatMap.1 hc
      exact List.forall_mem_append.2 ⟨hseparator, hrest x hx⟩ c hc

/-- One line of JSON is printable. -/
theorem printable_write (depth : Nat) (v : Value) : ∀ c ∈ write .line depth v, Printable c := by
  induction v using Value.induction generalizing depth with
  | null =>
      have hnull : ∀ c ∈ ['n', 'u', 'l', 'l'], Printable c := printable_of_all (by decide)
      exact hnull
  | bool b =>
      have hfalse : ∀ c ∈ ['f', 'a', 'l', 's', 'e'], Printable c := printable_of_all (by decide)
      have htrue : ∀ c ∈ ['t', 'r', 'u', 'e'], Printable c := printable_of_all (by decide)
      cases b with
      | false => exact hfalse
      | true => exact htrue
  | int n => exact printable_decimal n
  | text s => exact printable_quoted s
  | list items ih =>
      rw [write_list, List.forall_mem_cons]
      exact ⟨by decide, printable_enclosed depth (by decide) fun item hitem => ih item hitem _⟩
  | object fields ih =>
      have hfield : ∀ field ∈ fields, ∀ c ∈ writeField .line (depth + 1) field, Printable c := by
        intro field hfield
        rw [writeField, List.forall_mem_append, List.forall_mem_append]
        exact ⟨⟨printable_quoted _, printable_of_all (by decide)⟩, ih field hfield _⟩
      rw [write_object, List.forall_mem_cons]
      exact ⟨by decide, printable_enclosed depth (by decide) hfield⟩

end Json

/-! ## Records of objects -/

namespace Record

/-- The event that an object is about, if it is known and has the level that the object gives. -/
def eventOfValue? (v : Value) : Option Event :=
  (((v.at? "event").bind Value.text?).bind Event.ofText?).filter fun event =>
    (v.at? "level").bind Value.text? = some event.level

/-- The further fields that an object gives, if it gives any; they have to make an object, too. -/
def extraOfValue? (v : Value) : Option (Option (List (String × Value))) :=
  match v.at? "extra" with
  | none => some none
  | some extra => extra.fields?.map some

/-- The record that an object gives by its fields. -/
def ofValue? (v : Value) : Option Record := do
  let event ← eventOfValue? v
  let operation ← (v.at? "operation").bind Value.text?
  let strategy ← (v.at? "strategy").bind Value.text?
  let target ← (v.at? "target").bind Value.text?
  let interface ← (v.at? "interface").bind Value.textOrNull?
  let message ← (v.at? "message").bind Value.text?
  let extra ← extraOfValue? v
  return { event, operation, strategy, target, interface, message, extra }

/-- The record with the fields of its further objects arranged. -/
def arrange (before : String → String → Bool) (r : Record) : Record :=
  { r with extra := r.extra.map fun fields =>
      Value.sortFields before (Value.arrangeFields before fields) }

/-- The records are equal up to the order of the fields of objects. -/
structure Alike (r r' : Record) : Prop where
  rest_eq : r' = { r with extra := r'.extra }
  extra : Option.Rel (fun fields fields' => (Value.object fields).Alike (.object fields'))
    r.extra r'.extra

theorem keysDistinct_toValue (r : Record) : r.toValue.KeysDistinct := by
  obtain ⟨event, operation, strategy, target, interface, message, extra⟩ := r
  cases extra with
  | none =>
      show ["event", "level", "operation", "strategy", "target", "interface", "message"].Nodup
      decide
  | some fields =>
      show ["event", "level", "operation", "strategy", "target", "interface", "message",
        "extra"].Nodup
      decide

theorem eventOfValue?_arrange (before : String → String → Bool) (r : Record) :
    eventOfValue? (r.toValue.arrange before) = some r.event := by
  have hevent : ((r.toValue.at? "event").bind Value.text?).bind Event.ofText? = some r.event :=
    Event.ofText?_text r.event
  have hlevel : (r.toValue.at? "level").bind Value.text? = some r.event.level := rfl
  simp only [eventOfValue?, Value.at?_arrange before r.keysDistinct_toValue, Option.bind_map,
    Function.comp_def, Value.text?_arrange, hevent, hlevel]
  exact Option.filter_some_pos (decide_eq_true rfl)

theorem extraOfValue?_arrange (before : String → String → Bool) (r : Record) :
    extraOfValue? (r.toValue.arrange before) = some (r.arrange before).extra := by
  obtain ⟨event, operation, strategy, target, interface, message, extra⟩ := r
  rw [extraOfValue?, Value.at?_arrange before (keysDistinct_toValue _)]
  cases extra <;> rfl

/-- A record is found in its object in whatever order the keys come. -/
theorem ofValue?_arrange (before : String → String → Bool) (r : Record) :
    ofValue? (r.toValue.arrange before) = some (r.arrange before) := by
  have hinterface : (r.toValue.at? "interface").bind Value.textOrNull? = some r.interface := by
    show (Value.textOrNull r.interface).textOrNull? = _
    cases r.interface <;> rfl
  simp only [ofValue?, Value.at?_arrange before r.keysDistinct_toValue, Option.bind_map,
    Function.comp_def, Value.text?_arrange, Value.textOrNull?_arrange, eventOfValue?_arrange,
    extraOfValue?_arrange, hinterface, Option.bind_eq_bind, Option.bind_some]
  rfl

theorem alike_arrange (before : String → String → Bool) (r : Record) :
    r.Alike (r.arrange before) := by
  refine ⟨rfl, ?_⟩
  rw [arrange]
  cases r.extra with
  | none => exact .none
  | some fields => exact .some ((Value.object fields).alike_arrange before)

end Record

/-! ## What is logged -/

namespace Log

/-- The record that a step adds, if it adds one. -/
def Step.record? : Step → Option Record
  | .add event operation strategy target interface message extra =>
    (Event.ofText? event).map fun known =>
      ⟨known, operation, strategy, target, interface, message, extra⟩
  | _ => none

/-- The log after steps on an empty one. -/
def after (steps : List Step) : Log := steps.foldl (fun log s => (log.step s).1) []

theorem step_fst (log : Log) (s : Step) : (log.step s).1 = log ++ s.record?.toList := by
  cases s with
  | add event operation strategy target interface message extra =>
      simp only [step, Step.record?]
      cases Event.ofText? event with
      | none => exact (List.append_nil log).symm
      | some known => rfl
  | skipReasons =>
      simp only [step]
      split <;> exact (List.append_nil log).symm
  | _ => exact (List.append_nil log).symm

/-- A log has the records of the known events that it was asked to add, in order. -/
theorem after_eq_filterMap (steps : List Step) : after steps = steps.filterMap Step.record? := by
  suffices h : ∀ log : Log, steps.foldl (fun log s => (log.step s).1) log =
      log ++ steps.filterMap Step.record? from h []
  induction steps with
  | nil => exact fun log => (List.append_nil log).symm
  | cons s steps ih =>
      intro log
      rw [List.foldl_cons, ih, step_fst, List.append_assoc, List.filterMap_cons]
      cases s.record? <;> rfl

/-! ## Lines -/

end Log

/-- The line of a record, without the line feed after it. -/
def Record.line (r : Record) : String :=
  String.ofList (Json.write .line 0 (r.toValue.arrange Json.keyBefore))

namespace Record

theorem printable_line (r : Record) : ∀ c ∈ r.line.toList, Json.Printable c := by
  rw [line, String.toList_ofList]
  exact Json.printable_write 0 _

theorem onOneLine_line (r : Record) : Text.OnOneLine r.line := fun hfeed =>
  absurd (r.printable_line _ hfeed) (by decide)

/-- The line of a record is read as its object. -/
theorem read_line (r : Record) : Json.read r.line = some (r.toValue.arrange Json.keyBefore) := by
  have hread := Json.read_write_append Json.Layout.spaced_line (r.toValue.arrange Json.keyBefore)
    (List.forall_mem_nil _)
  rwa [List.append_nil] at hread

end Record

namespace Log

theorem jsonLines_eq_join (log : Log) : log.jsonLines = Layout.join (log.map Record.line) := by
  rw [jsonLines, Layout.join_eq, List.map_map]
  refine congrArg String.join (List.map_congr_left fun r _ => ?_)
  rw [Json.document, String.ofList_append]
  rfl

theorem jsonLines_cons (r : Record) (log : Log) :
    jsonLines (r :: log) = r.line ++ "\n" ++ jsonLines log := by
  rw [jsonLines_eq_join, jsonLines_eq_join, List.map_cons, Layout.join_cons]

theorem printable_jsonLines (log : Log) :
    ∀ c ∈ log.jsonLines.toList, c = '\n' ∨ Json.Printable c := by
  induction log with
  | nil => exact List.forall_mem_nil _
  | cons r log ih =>
      rw [jsonLines_cons, String.toList_append, String.toList_append, List.forall_mem_append,
        List.forall_mem_append]
      exact ⟨⟨fun c hc => Or.inr (r.printable_line c hc),
        List.forall_mem_singleton.2 (Or.inl rfl)⟩, ih⟩

/-- There are no other line feeds than those after the lines. -/
theorem count_jsonLines (log : Log) : log.jsonLines.toList.count '\n' = log.length := by
  induction log with
  | nil => rfl
  | cons r log ih =>
      have hline : r.line.toList.count '\n' = 0 := List.count_eq_zero.2 r.onOneLine_line
      have hfeed : "\n".toList.count '\n' = 1 := by decide
      rw [jsonLines_cons, String.toList_append, String.toList_append, List.count_append,
        List.count_append, hline, hfeed, ih, List.length_cons]
      omega

/-- The file falls into the lines that it is made of. -/
theorem splitOn_jsonLines (log : Log) :
    log.jsonLines.toList.splitOn '\n' = (log.map Record.line ++ [""]).map String.toList := by
  rw [jsonLines_eq_join, Layout.splitOn_join_iff]
  intro line hline
  obtain ⟨r, -, rfl⟩ := List.mem_map.1 hline
  exact r.onOneLine_line

/-- Whatever is logged, the file of the log has nothing in it but printable characters and one line
feed for each record, after its line.  The lines are JSON, and what is read of them are the objects
of the records in order, up to the order of fields.  In each object the fields of its record are
found by their names: event and level, operation, strategy, target, interface, message, and what
else it was made with. -/
theorem jsonLines_readable (steps : List Step) :
    (∀ c ∈ (after steps).jsonLines.toList, c = '\n' ∨ Json.Printable c) ∧
    (after steps).jsonLines.toList.count '\n' = (steps.filterMap Step.record?).length ∧
    ∃ lines, (after steps).jsonLines.toList.splitOn '\n' = (lines ++ [""]).map String.toList ∧
      List.Forall₂
        (fun r line => ∃ v r', Json.read line = some v ∧ r.toValue.Alike v ∧
          Record.ofValue? v = some r' ∧ r.Alike r')
        (steps.filterMap Step.record?) lines := by
  rw [after_eq_filterMap]
  generalize steps.filterMap Step.record? = log
  refine ⟨printable_jsonLines log, count_jsonLines log, _, splitOn_jsonLines log, ?_⟩
  rw [List.forall₂_map_right_iff, List.forall₂_same]
  exact fun r _ => ⟨_, _, r.read_line, r.toValue.alike_arrange Json.keyBefore,
    r.ofValue?_arrange Json.keyBefore, r.alike_arrange Json.keyBefore⟩

end Log

end PropertyWeaver
