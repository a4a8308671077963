import PropertyWeaver.Fault
import PropertyWeaver.OrderedMap
import PropertyWeaver.Value.Json

/-!
# The log of a generator

A log is the list of its records, oldest first. Each record describes one event of a pass; its
level follows from the event. The log only grows, and the queries on it read it.

## Main results

* `isPrefix_step`: a step never changes or removes a record.
-/

namespace PropertyWeaver

/-- What a record is about. -/
inductive Event where
  /-- A declaration was read and its references resolved. -/
  | candidate
  /-- A reference of a declaration gives nothing. -/
  | skipped
  /-- A file was generated. -/
  | emitted
  /-- A file was not generated again. -/
  | dropped
  deriving DecidableEq

namespace Event

/-- Every event. -/
def all : List Event := [candidate, skipped, emitted, dropped]

/-- The name of an event. -/
def text : Event → String
  | candidate => "candidate"
  | skipped => "skipped"
  | emitted => "emitted"
  | dropped => "dropped"

/-- The event of that name. -/
def ofText? (s : String) : Option Event := all.find? fun event => event.text == s

@[simp] theorem ofText?_text (e : Event) : ofText? e.text = some e := by
  cases e <;> decide

/-- How much attention an event deserves. -/
def level : Event → String
  | candidate => "info"
  | skipped => "debug"
  | emitted => "info"
  | dropped => "warning"

end Event

/-- One record of a log. -/
structure Record where
  event : Event
  operation : String
  strategy : String
  target : String
  interface : Option String
  message : String
  /-- Further fields, if the record was made with any. -/
  extra : Option (List (String × Value))

namespace Record

/-- The record as a structured value; further fields appear only if the record has them. -/
def toValue (r : Record) : Value :=
  .object <|
    [("event", .text r.event.text), ("level", .text r.event.level),
      ("operation", .text r.operation), ("strategy", .text r.strategy),
      ("target", .text r.target), ("interface", .textOrNull r.interface),
      ("message", .text r.message)] ++
    (r.extra.map fun fields => ("extra", .object fields)).toList

/-- Why a skipped record's reference was skipped. -/
def reason (r : Record) : Except Fault Value :=
  match r.extra with
  | none => .error (.missing "extra")
  | some fields =>
    match Value.field? "reason" fields with
    | none => .error (.missing "reason")
    | some reason => .ok reason

end Record

/-- The records of a generator, oldest first. -/
abbrev Log := List Record

namespace Log

/-! ## Queries -/

/-- The records about one target. -/
def forTarget (log : Log) (target : String) : List Record :=
  log.filter fun record => record.target == target

/-- The records of one event, given by name. -/
def ofEvent (log : Log) (event : String) : List Record :=
  log.filter fun record => record.event.text == event

/-- The interface and reason of each skipped record, or the fault of the first without a reason. -/
def reasons : List Record → Except Fault (List (Option String × Value))
  | [] => .ok []
  | record :: records =>
    match record.reason with
    | .error fault => .error fault
    | .ok reason =>
      match reasons records with
      | .error fault => .error fault
      | .ok rest => .ok ((record.interface, reason) :: rest)

/-- Why each reference was skipped; of several reasons for one reference the last one counts. -/
def skipReasons (log : Log) : Except Fault (OrderedMap (Option String) Value) :=
  match reasons (log.ofEvent Event.skipped.text) with
  | .error fault => .error fault
  | .ok pairs => .ok (OrderedMap.ofList pairs)

/-- The log as a file: one line of JSON for each record. -/
def jsonLines (log : Log) : String :=
  String.join (log.map fun record => Json.document .line record.toValue)

/-! ## Steps -/

/-- What a host can ask of a log. -/
inductive Step where
  /-- Add a record about the event of that name. -/
  | add (event operation strategy target : String) (interface : Option String) (message : String)
      (extra : Option (List (String × Value)))
  | records
  | forTarget (target : String)
  | ofEvent (event : String)
  | skipReasons
  | jsonLines

/-- What a log answers. -/
inductive Answer where
  | record (r : Record)
  | records (rs : List Record)
  | reasons (entries : OrderedMap (Option String) Value)
  | text (s : String)
  | fault (f : Fault)

/-- The log after a step, and its answer. An event of an unknown name adds nothing. -/
def step (log : Log) : Step → Log × Answer
  | .add event operation strategy target interface message extra =>
    match Event.ofText? event with
    | none => (log, .fault (.missing event))
    | some known =>
      let record : Record := ⟨known, operation, strategy, target, interface, message, extra⟩
      (log ++ [record], .record record)
  | .records => (log, .records log)
  | .forTarget target => (log, .records (log.forTarget target))
  | .ofEvent event => (log, .records (log.ofEvent event))
  | .skipReasons =>
    match log.skipReasons with
    | .ok entries => (log, .reasons entries)
    | .error fault => (log, .fault fault)
  | .jsonLines => (log, .text log.jsonLines)

/-- A step keeps the records that are there, in their places. -/
theorem isPrefix_step (log : Log) (s : Step) : log <+: (log.step s).1 := by
  cases s with
  | add event operation strategy target interface message extra =>
    simp only [step]
    split
    · exact List.prefix_refl log
    · exact List.prefix_append log _
  | skipReasons =>
    simp only [step]
    split <;> exact List.prefix_refl log
  | records => exact List.prefix_refl log
  | forTarget target => exact List.prefix_refl log
  | ofEvent event => exact List.prefix_refl log
  | jsonLines => exact List.prefix_refl log

end Log

end PropertyWeaver
