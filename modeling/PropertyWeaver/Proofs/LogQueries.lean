import PropertyWeaver.Proofs.Accounting
import PropertyWeaver.Proofs.History
import PropertyWeaver.Proofs.LogLines

/-!
# Queries on the log

A log that has been asked for anything, in any order, has the records of the known events and
nothing else.  The queries for the four events take it apart: each record is found by the one query
for its own event.

Why references were skipped is read from the skipped records alone.  It cannot be read if one of
them does not say so, and then the first of these decides what is missing (`Record.Lacks`).
Otherwise the reasons are put into a map one after the other, so a reference stands where it was
skipped first, with the reason for which it was skipped last (`keys_ofList`,
`lookup_ofList_append_cons`).

No pass leaves a skipped record without a reason: a pass that is stopped has logged the beginning of
what it would have logged, and all that is logged comes from a plan or a placement.  So the reasons
can be read after any passes, and after any requests to a session.

## Main results

* `perm_flatMap_ofEvent` — the queries for the four events take a log apart.
* `skipReasons_of_isFirst`, `skipReasons_of_explained` — both outcomes of reading the reasons.
* `Log.queries` — what the queries on any log answer.
* `explained_runOn` — every pass explains what it skips.
* `Session.explained_steps` — so does every session.
* `queries_over_history` — the queries on a log, whatever has happened to it.
-/

namespace PropertyWeaver

open Script

/-! ## Parts of a list -/

/-- Elements can be listed by their keys, one key after the other. -/
theorem perm_flatMap_filter {α κ : Type} [DecidableEq κ] {key : α → κ} {ks : List κ}
    (hks : ks.Nodup) {as : List α} (h : ∀ a ∈ as, key a ∈ ks) :
    (ks.flatMap fun k => as.filter fun a => key a == k).Perm as := by
  induction ks generalizing as with
  | nil =>
      have hnil : as = [] := List.eq_nil_iff_forall_not_mem.2 fun a ha => by cases h a ha
      rw [hnil]
      rfl
  | cons k ks ih =>
      obtain ⟨hk, hks⟩ := List.nodup_cons.1 hks
      have hrest : ∀ a ∈ as.filter (fun a => !(key a == k)), key a ∈ ks := by
        intro a ha
        obtain ⟨hmem, hne⟩ := List.mem_filter.1 ha
        exact (List.mem_cons.1 (h a hmem)).resolve_left (by simpa using hne)
      -- The parts of the other keys are those of the elements without this key.
      have hparts : (ks.flatMap fun k' => as.filter fun a => key a == k') =
          ks.flatMap fun k' => (as.filter fun a => !(key a == k)).filter fun a => key a == k' := by
        refine List.flatMap_congr fun k' hk' => ?_
        rw [List.filter_filter]
        refine List.filter_congr fun a _ => ?_
        by_cases ha : key a = k'
        · have hne : key a ≠ k := fun e => hk (e.symm.trans ha ▸ hk')
          simp [ha, ha ▸ hne]
        · simp [ha]
      rw [List.flatMap_cons, hparts]
      exact ((ih hks hrest).append_left _).trans (List.filter_append_perm _ _)

namespace OrderedMap

/-- The keys of a map are those of the pairs that it is made of, in order of first occurrence. -/
theorem keys_ofList {κ ν : Type} [DecidableEq κ] (pairs : List (κ × ν)) :
    keys (ofList pairs) = (keys pairs).eraseDups := by
  suffices h : ∀ m : OrderedMap κ ν,
      keys (pairs.foldl (fun m pair => put pair.1 pair.2 m) m) =
        keys m ++ firstsBy id (keys m) (keys pairs) by
    rw [ofList, h, ← firstsBy_id_nil]
    rfl
  induction pairs with
  | nil => exact fun m => (List.append_nil _).symm
  | cons pair pairs ih =>
      intro m
      have hkeys : keys (pair :: pairs) = pair.1 :: keys pairs := rfl
      rw [List.foldl_cons, ih, keys_put, hkeys]
      by_cases hmem : pair.1 ∈ keys m
      · have hold : id pair.1 ∈ keys m := hmem
        rw [if_pos hmem, firstsBy_of_mem hold]
      · have hnew : id pair.1 ∉ keys m := hmem
        -- A new key is put at the end, and seen at the front; only what is seen matters.
        have hseen : ∀ k, k ∈ keys m ++ [pair.1] ↔ k ∈ pair.1 :: keys m := by
          intro k
          rw [List.mem_append, List.mem_singleton, List.mem_cons, or_comm]
        rw [if_neg hmem, firstsBy_of_not_mem hnew, firstsBy_congr hseen, List.append_assoc]
        rfl

end OrderedMap

namespace Record

/-! ## Records with a reason -/

/-- What is not there when the reason of a record is looked up. -/
inductive Lacks (r : Record) : String → Prop
  | extra (h : r.extra = none) : r.Lacks "extra"
  | reason (fields : List (String × Value)) (h : r.extra = some fields)
      (hreason : Value.field? "reason" fields = none) : r.Lacks "reason"

/-- The record skips a reference, and does not say why. -/
def Unexplained (r : Record) : Prop := r.event = .skipped ∧ ∃ name, r.Lacks name

theorem reason_of_lacks {r : Record} {name : String} (h : r.Lacks name) :
    r.reason = .error (.missing name) := by
  cases h with
  | extra h => simp only [Record.reason, h]
  | reason fields h hreason => simp only [Record.reason, h, hreason]

theorem reason_of_field? {r : Record} {reason : Value} (h : r.field? "reason" = some reason) :
    r.reason = .ok reason := by
  obtain ⟨fields, hfields, hreason⟩ := Option.bind_eq_some_iff.1 h
  simp only [Record.reason, hfields, hreason]

/-- A record lacks something exactly if it has no reason. -/
theorem exists_lacks_iff {r : Record} : (∃ name, r.Lacks name) ↔ r.field? "reason" = none := by
  constructor
  · rintro ⟨name, hextra | ⟨fields, hfields, hreason⟩⟩
    · rw [field?, hextra, Option.bind_none]
    · rw [field?, hfields, Option.bind_some, hreason]
  · intro hnone
    cases hextra : r.extra with
    | none => exact ⟨_, .extra hextra⟩
    | some fields =>
        rw [field?, hextra, Option.bind_some] at hnone
        exact ⟨_, .reason fields hextra hnone⟩

theorem exists_field?_of_not_unexplained {r : Record} (hevent : r.event = .skipped)
    (h : ¬ r.Unexplained) : ∃ reason, r.field? "reason" = some reason := by
  rw [← Option.ne_none_iff_exists']
  exact fun hnone => h ⟨hevent, exists_lacks_iff.2 hnone⟩

/-- The interface of a record and its reason, if it has one. -/
def explanation? (r : Record) : Option (Option String × Value) :=
  (r.field? "reason").map fun reason => (r.interface, reason)

theorem explanation?_of_field? {r : Record} {reason : Value}
    (h : r.field? "reason" = some reason) : r.explanation? = some (r.interface, reason) := by
  rw [explanation?, h]
  rfl

end Record

namespace Log

/-! ## The four events -/

theorem mem_ofEvent_iff {log : Log} {e : Event} {r : Record} :
    r ∈ log.ofEvent e.text ↔ r ∈ log ∧ r.event = e := by
  rw [ofEvent, List.mem_filter, beq_iff_eq, Event.text_inj]

/-- The queries for the four events take a log apart. -/
theorem perm_flatMap_ofEvent (log : Log) :
    (Event.all.flatMap fun e => log.ofEvent e.text).Perm log := by
  have hnodup : Event.all.Nodup := by decide
  have hall : ∀ r ∈ log, r.event ∈ Event.all := by
    intro r _
    cases r.event <;> decide
  have hquery : (fun e : Event => log.ofEvent e.text) =
      fun e => log.filter fun r => r.event == e := by
    funext e
    refine List.filter_congr fun r _ => ?_
    rw [Bool.eq_iff_iff, beq_iff_eq, beq_iff_eq, Event.text_inj]
  rw [hquery]
  exact perm_flatMap_filter hnodup hall

/-! ## Reasons -/

/-- Every record that skips a reference says why. -/
def Explained (log : Log) : Prop := ∀ r ∈ log, ¬ r.Unexplained

theorem Explained.exists_reason {log : Log} (h : log.Explained) :
    ∀ r ∈ log.ofEvent Event.skipped.text, ∃ reason, r.field? "reason" = some reason := by
  intro r hr
  obtain ⟨hmem, hevent⟩ := mem_ofEvent_iff.1 hr
  exact Record.exists_field?_of_not_unexplained hevent (h r hmem)

theorem reasons_of_isFirst {records : List Record} {r : Record} {name : String}
    (h : IsFirst (fun b => ∃ name, b.Lacks name) records r) (hr : r.Lacks name) :
    reasons records = .error (.missing name) := by
  induction records with
  | nil => exact absurd h.mem.1 List.not_mem_nil
  | cons b records ih =>
      rcases isFirst_cons.1 h with ⟨rfl, -⟩ | ⟨hb, hrest⟩
      · rw [reasons, Record.reason_of_lacks hr]
      · have hreason : b.field? "reason" ≠ none := fun hnone => hb (Record.exists_lacks_iff.2 hnone)
        obtain ⟨reason, hreason⟩ := Option.ne_none_iff_exists'.1 hreason
        rw [reasons, Record.reason_of_field? hreason, ih hrest]

theorem reasons_of_forall {records : List Record}
    (h : ∀ r ∈ records, ∃ reason, r.field? "reason" = some reason) :
    reasons records = .ok (records.filterMap Record.explanation?) := by
  induction records with
  | nil => rfl
  | cons r records ih =>
      obtain ⟨⟨reason, hr⟩, hrest⟩ := List.forall_mem_cons.1 h
      rw [reasons, Record.reason_of_field? hr, ih hrest,
        List.filterMap_cons_some (Record.explanation?_of_field? hr)]

theorem keys_explanations {records : List Record}
    (h : ∀ r ∈ records, ∃ reason, r.field? "reason" = some reason) :
    OrderedMap.keys (records.filterMap Record.explanation?) = records.map Record.interface := by
  induction records with
  | nil => rfl
  | cons r records ih =>
      obtain ⟨⟨reason, hr⟩, hrest⟩ := List.forall_mem_cons.1 h
      rw [List.filterMap_cons_some (Record.explanation?_of_field? hr), List.map_cons, ← ih hrest]
      rfl

/-- The first record that skips a reference without saying why decides what is missing. -/
theorem skipReasons_of_isFirst {log : Log} {r : Record} {name : String}
    (h : IsFirst Record.Unexplained log r) (hr : r.Lacks name) :
    log.skipReasons = .error (.missing name) := by
  have hunexplained : (fun b : Record => (b.event.text == Event.skipped.text) = true ∧
      ∃ name, b.Lacks name) = Record.Unexplained := by
    funext b
    rw [beq_iff_eq, Event.text_inj, Record.Unexplained]
  have hfirst : IsFirst (fun b => ∃ name, b.Lacks name) (log.ofEvent Event.skipped.text) r := by
    rw [ofEvent, isFirst_filter, hunexplained]
    exact h
  rw [skipReasons, reasons_of_isFirst hfirst hr]

/-- If every skipped record says why, the reasons are put into a map one after the other. -/
theorem skipReasons_of_explained {log : Log} (h : log.Explained) :
    log.skipReasons = .ok (OrderedMap.ofList
      ((log.ofEvent Event.skipped.text).filterMap Record.explanation?)) := by
  rw [skipReasons, reasons_of_forall h.exists_reason]

theorem skipReasons_eq_error_iff {log : Log} {fault : Fault} :
    log.skipReasons = .error fault ↔
      ∃ r name, IsFirst Record.Unexplained log r ∧ r.Lacks name ∧ fault = .missing name := by
  constructor
  · intro hfault
    have hsome : ∃ r ∈ log, r.Unexplained := by
      by_contra hnone
      rw [skipReasons_of_explained fun r hr hun => hnone ⟨r, hr, hun⟩] at hfault
      cases hfault
    obtain ⟨r, hfirst⟩ := exists_isFirst hsome
    obtain ⟨-, name, hname⟩ := hfirst.mem.2
    rw [skipReasons_of_isFirst hfirst hname] at hfault
    exact ⟨r, name, hfirst, hname, (Except.error.inj hfault).symm⟩
  · rintro ⟨r, name, hfirst, hname, rfl⟩
    exact skipReasons_of_isFirst hfirst hname

theorem exists_skipReasons_iff {log : Log} :
    (∃ entries, log.skipReasons = .ok entries) ↔ log.Explained := by
  constructor
  · rintro ⟨entries, hentries⟩ r hr hun
    obtain ⟨first, hfirst⟩ := exists_isFirst ⟨r, hr, hun⟩
    obtain ⟨-, name, hname⟩ := hfirst.mem.2
    rw [skipReasons_of_isFirst hfirst hname] at hentries
    cases hentries
  · exact fun h => ⟨_, skipReasons_of_explained h⟩

/-- The two ways of comparing what records are about are the same. -/
theorem instBEq_interface : (Option.instBEq : BEq (Option String)) = instBEqOfDecidableEq :=
  lawful_beq_subsingleton _ _

/-- A reference is found with the reason for which it was skipped last. -/
theorem lookup_explanations {log : Log} (h : log.Explained) {i : Option String} {r : Record}
    (hlast : IsLast (fun b => b.event = .skipped ∧ b.interface = i) log r) :
    ∃ reason, r.field? "reason" = some reason ∧
      (OrderedMap.ofList ((log.ofEvent Event.skipped.text).filterMap
        Record.explanation?)).lookup i = some reason := by
  obtain ⟨before, after, rfl, ⟨hevent, rfl⟩, hafter⟩ := hlast
  have hmem : r ∈ before ++ r :: after := List.mem_append_right before List.mem_cons_self
  obtain ⟨reason, hreason⟩ := Record.exists_field?_of_not_unexplained hevent (h r hmem)
  have hskipped : (r.event.text == Event.skipped.text) = true := by
    rw [hevent]
    rfl
  have hsplit : ofEvent (before ++ r :: after) Event.skipped.text =
      ofEvent before Event.skipped.text ++ r :: ofEvent after Event.skipped.text := by
    rw [ofEvent_append]
    exact congrArg (ofEvent before _ ++ ·) (List.filter_cons_of_pos hskipped)
  -- What is skipped after the last record of the interface has other keys.
  have hkeys : r.interface ∉ OrderedMap.keys
      ((ofEvent after Event.skipped.text).filterMap Record.explanation?) := by
    have hexplained : Explained after :=
      fun b hb => h b (List.mem_append_right before (List.mem_cons_of_mem r hb))
    rw [keys_explanations hexplained.exists_reason, List.mem_map]
    rintro ⟨b, hb, hinterface⟩
    obtain ⟨hbmem, hbevent⟩ := mem_ofEvent_iff.1 hb
    exact hafter b hbmem ⟨hbevent, hinterface⟩
  refine ⟨reason, hreason, ?_⟩
  rw [hsplit, List.filterMap_append,
    List.filterMap_cons_some (Record.explanation?_of_field? hreason), instBEq_interface]
  exact OrderedMap.lookup_ofList_append_cons reason _ hkeys

/-- What the queries on a log answer. -/
structure Queries (log : Log) : Prop where
  /-- The queries for the four events take the log apart. -/
  perm : (Event.all.flatMap fun e => log.ofEvent e.text).Perm log
  /-- Each query keeps the order of the log. -/
  sublist : ∀ e : Event, (log.ofEvent e.text).Sublist log
  /-- A record is found by the query for its own event. -/
  mem_iff : ∀ (e : Event) (r : Record), r ∈ log.ofEvent e.text ↔ r ∈ log ∧ r.event = e
  /-- The event fixes the level. -/
  level : ∀ (e : Event), ∀ r ∈ log.ofEvent e.text,
    r.toValue.at? "event" = some (.text e.text) ∧ r.toValue.at? "level" = some (.text e.level)
  /-- The reasons cannot be read exactly if a skipped record has none. -/
  fails_iff : (∃ fault, log.skipReasons = .error fault) ↔
    ∃ r ∈ log, r.event = .skipped ∧ ∃ name, r.Lacks name
  /-- The first of these records decides what is missing. -/
  fault_iff : ∀ fault, log.skipReasons = .error fault ↔
    ∃ r name, IsFirst (fun b => b.event = .skipped ∧ ∃ name, b.Lacks name) log r ∧
      r.Lacks name ∧ fault = .missing name
  /-- Otherwise what was skipped is mapped, in order of first occurrence. -/
  keys_eq : ∀ entries, log.skipReasons = .ok entries →
    entries.keys = ((log.ofEvent "skipped").map Record.interface).eraseDups
  /-- It is mapped to the reason for which it was skipped last. -/
  lookup_eq : ∀ entries, log.skipReasons = .ok entries → ∀ i ∈ entries.keys, ∃ r reason,
    IsLast (fun b => b.event = .skipped ∧ b.interface = i) log r ∧
      r.field? "reason" = some reason ∧ entries.lookup i = some reason

theorem queries (log : Log) : log.Queries where
  perm := log.perm_flatMap_ofEvent
  sublist := fun _ => List.filter_sublist
  mem_iff := fun _ _ => mem_ofEvent_iff
  level := by
    intro e r hr
    obtain ⟨-, rfl⟩ := mem_ofEvent_iff.1 hr
    exact ⟨rfl, rfl⟩
  fails_iff := by
    constructor
    · rintro ⟨fault, hfault⟩
      obtain ⟨r, name, hfirst, -, -⟩ := skipReasons_eq_error_iff.1 hfault
      exact ⟨r, hfirst.mem⟩
    · rintro ⟨r, hr, hun⟩
      obtain ⟨first, hfirst⟩ := exists_isFirst (p := Record.Unexplained) ⟨r, hr, hun⟩
      obtain ⟨-, name, hname⟩ := hfirst.mem.2
      exact ⟨_, skipReasons_of_isFirst hfirst hname⟩
  fault_iff := fun _ => skipReasons_eq_error_iff
  keys_eq := by
    intro entries hentries
    have hexplained := exists_skipReasons_iff.1 ⟨entries, hentries⟩
    rw [skipReasons_of_explained hexplained] at hentries
    cases hentries
    rw [OrderedMap.keys_ofList, keys_explanations hexplained.exists_reason, instBEq_interface]
    rfl
  lookup_eq := by
    intro entries hentries i hi
    have hexplained := exists_skipReasons_iff.1 ⟨entries, hentries⟩
    rw [skipReasons_of_explained hexplained] at hentries
    cases hentries
    rw [OrderedMap.mem_keys_ofList, keys_explanations hexplained.exists_reason, List.mem_map] at hi
    obtain ⟨b, hb, hinterface⟩ := hi
    obtain ⟨hmem, hevent⟩ := mem_ofEvent_iff.1 hb
    have hsome : ∃ b ∈ log, b.event = .skipped ∧ b.interface = i := ⟨b, hmem, hevent, hinterface⟩
    obtain ⟨r, hlast⟩ := exists_isLast hsome
    obtain ⟨reason, hreason, hlookup⟩ := lookup_explanations hexplained hlast
    exact ⟨r, reason, hlast, hreason, hlookup⟩

theorem explained_nil : Explained [] := List.forall_mem_nil _

theorem explained_append {log added : Log} :
    Explained (log ++ added) ↔ log.Explained ∧ added.Explained := by
  rw [Explained, List.forall_mem_append]
  rfl

theorem explained_of_forall_ne {log : Log} (h : ∀ r ∈ log, r.event ≠ .skipped) :
    log.Explained := fun r hr hun => h r hr hun.1

end Log

/-! ## What passes log -/

namespace Generator

variable (g : Generator) {find : String → Option Symbol}

/-- Whatever reading a program comes to, it logs what is logged of some of the declarations. -/
theorem mem_records_trace_planAll {declarations : List (SourceFile × Declaration)} {r : Record}
    (h : r ∈ Trace.records ((g.planAll declarations).trace find)) :
    ∃ x ∈ declarations, r ∈ g.readingRecords find x := by
  induction declarations with
  | nil => cases h
  | cons x rest ih =>
      by_cases hread : g.Readable find x
      · rw [g.trace_planAll_of_readable hread, Trace.records_append, records_reading,
          List.mem_append] at h
        rcases h with hx | hrest
        · exact ⟨x, List.mem_cons_self, hx⟩
        · obtain ⟨y, hy, hr⟩ := ih hrest
          exact ⟨y, List.mem_cons_of_mem x hy, hr⟩
      · rw [g.trace_planAll_of_not_readable hread, records_reading] at h
        exact ⟨x, List.mem_cons_self, h⟩

/-- A reference that is skipped is logged with its reason. -/
theorem explained_readingRecords (x : SourceFile × Declaration) :
    Log.Explained (g.readingRecords find x) := by
  have hmiss : ∀ target miss, ¬ (g.missRecord target miss).Unexplained := by
    rintro target miss ⟨-, hlacks⟩
    rw [Record.exists_lacks_iff] at hlacks
    cases hlacks
  unfold readingRecords
  split
  · split
    · next plan _ =>
      rw [planRecords, Log.Explained, List.forall_mem_cons]
      refine ⟨fun hcandidate => Event.noConfusion hcandidate.1, ?_⟩
      intro r hr
      obtain ⟨miss, -, rfl⟩ := List.mem_map.1 hr
      exact hmiss _ miss
    · exact Log.explained_nil
  · exact Log.explained_nil

theorem explained_placementRecords (placements : List Placement) :
    Log.Explained (placements.map g.placementRecord) := by
  refine Log.explained_of_forall_ne fun r hr => ?_
  obtain ⟨placement, -, rfl⟩ := List.mem_map.1 hr
  rcases g.event_placementRecord placement with hevent | hevent
  · rw [hevent]
    decide
  · rw [hevent]
    decide

theorem explained_trace_generate (declarations : List (SourceFile × Declaration)) :
    Log.Explained (Trace.records ((g.generate declarations).trace find)) := by
  have hreading : Log.Explained (Trace.records ((g.planAll declarations).trace find)) := by
    intro r hr
    obtain ⟨x, -, hx⟩ := g.mem_records_trace_planAll hr
    exact g.explained_readingRecords x r hx
  cases hplans : (g.planAll declarations).ending find with
  | error fault => rwa [g.trace_generate_of_error hplans]
  | ok plans =>
      rw [g.trace_generate_of_ok hplans, Trace.records_append, Trace.records_ofRecords,
        Log.explained_append]
      exact ⟨hreading, g.explained_placementRecords _⟩

/-- Every pass explains what it skips, whatever its token does and wherever it stops. -/
theorem explained_runOn (host : Host) (token : Token) : (g.runOn host token).log.Explained := by
  intro r hr
  have hbegins : (g.runOn host token).log <+:
      Trace.records ((g.generate host.declarations).trace host.find) := isPrefix_log_run _ token
  exact g.explained_trace_generate host.declarations r (hbegins.subset hr)

end Generator

/-- A pass of a generator over the program that a host shows, under a token. -/
structure Pass where
  generator : Generator
  host : Host
  token : Token

/-- What is logged by passes, one after the other, whether they return or not. -/
def Log.ofPasses (passes : List Pass) : Log :=
  passes.flatMap fun pass => (pass.generator.runOn pass.host pass.token).log

theorem Log.explained_ofPasses (passes : List Pass) : (Log.ofPasses passes).Explained := by
  induction passes with
  | nil => exact explained_nil
  | cons pass passes ih =>
      rw [ofPasses, List.flatMap_cons, explained_append]
      exact ⟨pass.generator.explained_runOn pass.host pass.token, ih⟩

/-! ## What sessions log -/

namespace Session

/-- The record that a request adds by hand. -/
def Step.record? : Step → Option Record
  | .log step => step.record?
  | _ => none

/-- A request leaves a log that explains what is skipped, unless it adds a record that does not. -/
theorem explained_step {s : Session} {x : Step} (hs : s.log.Explained)
    (hx : ∀ r, x.record? = some r → ¬ r.Unexplained) : (s.step x).1.log.Explained := by
  cases x with
  | generate choice =>
      rw [step_generate]
      exact Log.explained_append.2
        ⟨hs, s.generator.explained_runOn s.compilation.host (s.tokenFor choice)⟩
  | plan file declaration choice =>
      cases hd : s.declaration? file declaration with
      | none => rwa [step_plan_of_absent hd]
      | some y =>
          rw [step_plan hd]
          exact hs
  | emit positions =>
      rw [step_emit]
      exact Log.explained_append.2 ⟨hs, s.generator.explained_placementRecords _⟩
  | log request =>
      show (s.log.step request).1.Explained
      rw [Log.step_fst, Log.explained_append]
      refine ⟨hs, fun r hr => hx r ?_⟩
      exact Option.mem_toList.1 hr
  | setFiles files => exact hs
  | lookup name => exact hs
  | candidates => exact hs
  | accepts => exact hs
  | markerFile => exact hs
  | rendering => exact hs
  | cancel => exact hs

theorem explained_steps {s : Session} {requests : List Step} (hs : s.log.Explained)
    (h : ∀ x ∈ requests, ∀ r, x.record? = some r → ¬ r.Unexplained) :
    (s.steps requests).1.log.Explained := by
  induction requests generalizing s with
  | nil => exact hs
  | cons x xs ih =>
      obtain ⟨hx, hxs⟩ := List.forall_mem_cons.1 h
      rw [steps_cons]
      exact ih (explained_step hs hx) hxs

end Session

/--
After any steps a log has the records of the known events that were asked for, in order; a step with
an unknown event fails and leaves the log as it is.  Whatever log that is, the queries for the four
events take it apart, and the reasons of what was skipped can be read exactly if every skipped
record has one: then what was skipped is mapped, in order of first occurrence, to the reason for
which it was skipped last, and otherwise the first record without a reason decides what is missing.
The reasons can always be read of what passes have logged, returned or not.  They can be read of the
log of a session after any requests, unless a record without a reason is added to it by hand.
-/
theorem Log.queries_over_history :
    (∀ steps : List Log.Step, Log.after steps = steps.filterMap Log.Step.record?) ∧
      (∀ (log : Log) (event operation strategy target : String) (interface : Option String)
        (message : String) (extra : Option (List (String × Value))),
        Event.ofText? event = none →
          log.step (.add event operation strategy target interface message extra) =
            (log, .fault (.missing event))) ∧
      (∀ log : Log, log.Queries) ∧
      (∀ passes : List Pass, ∃ entries, (Log.ofPasses passes).skipReasons = .ok entries) ∧
      (∀ (g : Generator) (c : Compilation) (requests : List Session.Step),
        (∀ x ∈ requests, ∀ r, x.record? = some r → ¬ r.Unexplained) →
          ∃ entries,
            ((Session.start g c).steps requests).1.log.skipReasons = .ok entries) := by
  refine ⟨Log.after_eq_filterMap, ?_, Log.queries, ?_, ?_⟩
  · intro log event operation strategy target interface message extra hunknown
    simp only [Log.step, hunknown]
  · exact fun passes => Log.exists_skipReasons_iff.2 (Log.explained_ofPasses passes)
  · intro g c requests h
    exact Log.exists_skipReasons_iff.2 (Session.explained_steps Log.explained_nil h)

/-- A pass that is cancelled early, a whole one, two reasons that are added by hand, and an event
that is not known. -/
def Session.mended : List Session.Step :=
  [.generate (.own (.atObservation 9)), .generate (.own .idle),
    .log (.add "skipped" "review" "by_name" "App.Foo" (some "IBar") ""
      (some [("reason", .text "later")])),
    .log (.add "skipped" "review" "by_name" "App.Foo" (some "INone") ""
      (some [("reason", .text "never")])),
    .log (.add "ignored" "review" "by_name" "App.Foo" none "" none)]

/-- The reference that the passes skip keeps its place in the map, and has the reason that was added
last. -/
theorem queries_over_mended :
    Log.step [] (.add "ignored" "review" "by_name" "App.Foo" none "" none) =
      ([], .fault (.missing "ignored")) ∧
    ∃ entries, ((Session.start (.mk .byName .usual) .partialType).steps
        Session.mended).1.log.skipReasons = .ok entries ∧
      entries.keys = [some "INone", some "IBar"] ∧
      entries.lookup (some "INone") = some (.text "never") := by
  obtain ⟨-, hunknown, hqueries, -, hsession⟩ := Log.queries_over_history
  have hexplained : ∀ x ∈ Session.mended, ∀ r, x.record? = some r → ¬ r.Unexplained := by
    intro x hx r hr hun
    have hall : ((Session.mended.filterMap Session.Step.record?).all fun r =>
        (r.field? "reason").isSome) = true := by decide +kernel
    have hreason := List.all_eq_true.1 hall r (List.mem_filterMap.2 ⟨x, hx, hr⟩)
    rw [Record.exists_lacks_iff.1 hun.2] at hreason
    cases hreason
  obtain ⟨entries, hentries⟩ := hsession (.mk .byName .usual) .partialType Session.mended hexplained
  have hkeys : entries.keys = [some "INone", some "IBar"] := by
    rw [(hqueries _).keys_eq entries hentries]
    decide +kernel
  refine ⟨hunknown [] _ _ _ _ _ _ _ (by decide), entries, hentries, hkeys, ?_⟩
  cases hentries
  rfl

end PropertyWeaver
