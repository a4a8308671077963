import PropertyWeaver.Script

/-!
# Traces of scripts

As long as nobody cancels, a script makes one definite sequence of requests, its *trace*, and comes
to one definite *ending*; both depend on nothing but how lookups are answered.  A token never
changes what a script asks for next.  It only decides at which observation of the trace the script
is stopped, and what a stopped run shows is read off the trace before that observation.

Everything a pass does under any token is therefore known once its trace is known, and facts about
traces are proved one operation at a time, by `trace_bind_of_ok` and `ending_bind_of_ok`.

## Main results

* `run_idle` — an undisturbed run shows the whole trace.
* `run_of_stopBy_some`, `run_of_stopBy_none` — a run under any token shows the part of the trace
  before the observation that stops it.
* `cancelled_run`, `cancelled_of_result` — a cancellation outlasts the run that meets it.
* `stopBy_observation`, `stopBy_lookup` — which observation stops a run that is cancelled before
  its `k`-th observation, or during its `j`-th lookup.
-/

namespace PropertyWeaver

/-! ## Tokens that are cancelled once -/

namespace Token

/-- A token that is cancelled just before its `k`-th observation. -/
def atObservation (k : Nat) : Token := { observationsLeft := some k }

/-- A token that is cancelled during its `j`-th lookup. -/
def duringLookup (j : Nat) : Token := { lookupsLeft := some j }

theorem lookedUp_atObservation (k : Nat) : (atObservation k).lookedUp = atObservation k := rfl

theorem observed_atObservation (k : Nat) :
    (atObservation (k + 2)).observed = atObservation (k + 1) := by
  simp [atObservation, observed]

theorem not_cancelled_observed_atObservation (k : Nat) :
    ¬ (atObservation (k + 2)).observed.cancelled = true := by
  rw [observed_atObservation]
  exact Bool.false_ne_true

theorem observed_duringLookup (j : Nat) : (duringLookup j).observed = duringLookup j := rfl

theorem not_cancelled_duringLookup (j : Nat) : ¬ (duringLookup j).cancelled = true :=
  Bool.false_ne_true

theorem lookedUp_duringLookup (j : Nat) :
    (duringLookup (j + 2)).lookedUp = duringLookup (j + 1) := by
  simp [duringLookup, lookedUp]

end Token

namespace Script

open Token

variable {α β : Type} {find : String → Option Symbol}

/-! ## Requests -/

/-- One request of a script. -/
inductive Request where
  /-- The token was observed. -/
  | observed (stage : Stage)
  /-- A name was looked up. -/
  | lookedUp (name : String)
  /-- A record was logged. -/
  | logged (record : Record)

/-- The requests of a script, in the order in which they are made. -/
abbrev Trace := List Request

namespace Trace

/-- The observations of a trace. -/
def stages : Trace → List Stage
  | [] => []
  | .observed stage :: rest => stage :: stages rest
  | .lookedUp _ :: rest => stages rest
  | .logged _ :: rest => stages rest

/-- The names looked up in a trace. -/
def names : Trace → List String
  | [] => []
  | .observed _ :: rest => names rest
  | .lookedUp name :: rest => name :: names rest
  | .logged _ :: rest => names rest

/-- The records logged in a trace. -/
def records : Trace → List Record
  | [] => []
  | .observed _ :: rest => records rest
  | .lookedUp _ :: rest => records rest
  | .logged record :: rest => record :: records rest

@[simp] theorem stages_append (s t : Trace) : stages (s ++ t) = stages s ++ stages t := by
  induction s with
  | nil => rfl
  | cons request s ih => cases request <;> simp [stages, ih]

@[simp] theorem names_append (s t : Trace) : names (s ++ t) = names s ++ names t := by
  induction s with
  | nil => rfl
  | cons request s ih => cases request <;> simp [names, ih]

@[simp] theorem records_append (s t : Trace) : records (s ++ t) = records s ++ records t := by
  induction s with
  | nil => rfl
  | cons request s ih => cases request <;> simp [records, ih]

/-- A trace that logs, and does nothing else. -/
def ofRecords (rs : List Record) : Trace := rs.map .logged

@[simp] theorem stages_ofRecords (rs : List Record) : stages (ofRecords rs) = [] := by
  induction rs with
  | nil => rfl
  | cons r rs ih => exact ih

@[simp] theorem names_ofRecords (rs : List Record) : names (ofRecords rs) = [] := by
  induction rs with
  | nil => rfl
  | cons r rs ih => exact ih

@[simp] theorem records_ofRecords (rs : List Record) : records (ofRecords rs) = rs := by
  induction rs with
  | nil => rfl
  | cons r rs ih => exact congrArg (r :: ·) ih

end Trace

/-! ## Trace and ending of a script -/

/-- The requests a script makes when lookups are answered by `find` and nobody cancels. -/
def trace (find : String → Option Symbol) : Script α → Trace
  | done _ => []
  | fail _ => []
  | observe stage next => .observed stage :: next.trace find
  | lookup name next => .lookedUp name :: (next (find name)).trace find
  | log record next => .logged record :: next.trace find

/-- What a script comes to when lookups are answered by `find` and nobody cancels. -/
def ending (find : String → Option Symbol) : Script α → Except Fault α
  | done value => .ok value
  | fail fault => .error fault
  | observe _ next => next.ending find
  | lookup name next => (next (find name)).ending find
  | log _ next => next.ending find

/-- An undisturbed run shows the whole trace and comes to the ending. -/
theorem run_idle (find : String → Option Symbol) (s : Script α) :
    s.run find .idle =
      ⟨s.ending find, (s.trace find).records, (s.trace find).names, .idle⟩ := by
  induction s with
  | done value => rfl
  | fail fault => rfl
  | observe stage next ih =>
      rw [run_observe_idle, ih]
      rfl
  | lookup name next ih =>
      rw [run_lookup_idle, ih]
      rfl
  | log record next ih =>
      show { next.run find .idle with log := record :: (next.run find .idle).log } = _
      rw [ih]
      rfl

theorem ending_bind_of_ok {s : Script α} {f : α → Script β} {value : α}
    (h : s.ending find = .ok value) : (s.bind f).ending find = (f value).ending find := by
  induction s with
  | done v => cases h; rfl
  | fail fault => cases h
  | observe stage next ih => exact ih h
  | lookup name next ih => exact ih (find name) h
  | log record next ih => exact ih h

theorem ending_bind_of_error {s : Script α} {f : α → Script β} {fault : Fault}
    (h : s.ending find = .error fault) : (s.bind f).ending find = .error fault := by
  induction s with
  | done v => cases h
  | fail fault' => cases h; rfl
  | observe stage next ih => exact ih h
  | lookup name next ih => exact ih (find name) h
  | log record next ih => exact ih h

theorem trace_bind_of_ok {s : Script α} {f : α → Script β} {value : α}
    (h : s.ending find = .ok value) :
    (s.bind f).trace find = s.trace find ++ (f value).trace find := by
  induction s with
  | done v => cases h; rfl
  | fail fault => cases h
  | observe stage next ih => exact congrArg (.observed stage :: ·) (ih h)
  | lookup name next ih => exact congrArg (.lookedUp name :: ·) (ih (find name) h)
  | log record next ih => exact congrArg (.logged record :: ·) (ih h)

theorem trace_bind_of_error {s : Script α} {f : α → Script β} {fault : Fault}
    (h : s.ending find = .error fault) : (s.bind f).trace find = s.trace find := by
  induction s with
  | done v => cases h
  | fail fault' => rfl
  | observe stage next ih => exact congrArg (.observed stage :: ·) (ih h)
  | lookup name next ih => exact congrArg (.lookedUp name :: ·) (ih (find name) h)
  | log record next ih => exact congrArg (.logged record :: ·) (ih h)

theorem trace_bind_pure (s : Script α) (f : α → β) :
    (s.bind fun value => pure (f value)).trace find = s.trace find := by
  induction s with
  | done v => rfl
  | fail fault => rfl
  | observe stage next ih => exact congrArg (.observed stage :: ·) ih
  | lookup name next ih => exact congrArg (.lookedUp name :: ·) (ih (find name))
  | log record next ih => exact congrArg (.logged record :: ·) ih

/-! ## Derived requests -/

@[simp] theorem ending_ofExcept (e : Except Fault α) : (ofExcept e).ending find = e := by
  cases e <;> rfl

@[simp] theorem trace_ofExcept (e : Except Fault α) : (ofExcept e).trace find = [] := by
  cases e <;> rfl

@[simp] theorem ending_observeTimes (stage : Stage) (n : Nat) :
    (observeTimes stage n).ending find = .ok () := by
  induction n with
  | zero => rfl
  | succ n ih => exact ih

@[simp] theorem trace_observeTimes (stage : Stage) (n : Nat) :
    (observeTimes stage n).trace find = List.replicate n (.observed stage) := by
  induction n with
  | zero => rfl
  | succ n ih => exact congrArg (.observed stage :: ·) ih

@[simp] theorem ending_logAll (rs : List Record) : (logAll rs).ending find = .ok () := by
  induction rs with
  | nil => rfl
  | cons r rs ih => exact ih

@[simp] theorem trace_logAll (rs : List Record) :
    (logAll rs).trace find = Trace.ofRecords rs := by
  induction rs with
  | nil => rfl
  | cons r rs ih => exact congrArg (.logged r :: ·) ih

/-! ## Where a token stops a trace -/

/-- What was asked for before the observation that stops a trace under a token, and the stage of
that observation; nothing if the trace goes through. -/
def stopBy : Token → Trace → Option (Trace × Stage)
  | _, [] => none
  | token, .observed stage :: rest =>
      if token.observed.cancelled then some ([], stage)
      else (stopBy token.observed rest).map fun stop => (.observed stage :: stop.1, stop.2)
  | token, .lookedUp name :: rest =>
      (stopBy token.lookedUp rest).map fun stop => (.lookedUp name :: stop.1, stop.2)
  | token, .logged record :: rest =>
      (stopBy token rest).map fun stop => (.logged record :: stop.1, stop.2)

theorem run_observe_of_cancelled {stage : Stage} {next : Script α} {token : Token}
    (h : token.observed.cancelled = true) :
    (observe stage next).run find token =
      ⟨.error (.cancelled stage.operation), [], [], token.observed⟩ := by
  simp only [run, Token.observe, h, if_true]

theorem run_observe_of_not_cancelled {stage : Stage} {next : Script α} {token : Token}
    (h : ¬ token.observed.cancelled = true) :
    (observe stage next).run find token = next.run find token.observed := by
  simp only [run, Token.observe, h]
  rfl

theorem run_of_stopBy_some {s : Script α} {token : Token} {before : Trace} {stage : Stage}
    (h : stopBy token (s.trace find) = some (before, stage)) :
    (s.run find token).result = .error (.cancelled stage.operation) ∧
      (s.run find token).log = before.records ∧
      (s.run find token).probes = before.names := by
  induction s generalizing token before with
  | done value => cases h
  | fail fault => cases h
  | observe stage' next ih =>
      simp only [trace, stopBy] at h
      by_cases hc : token.observed.cancelled = true
      · rw [if_pos hc] at h
        cases h
        rw [run_observe_of_cancelled hc]
        exact ⟨rfl, rfl, rfl⟩
      · rw [if_neg hc] at h
        obtain ⟨⟨before', stage''⟩, hrest, heq⟩ := Option.map_eq_some_iff.1 h
        cases heq
        rw [run_observe_of_not_cancelled hc]
        obtain ⟨hresult, hlog, hprobes⟩ := ih hrest
        exact ⟨hresult, hlog, hprobes⟩
  | lookup name next ih =>
      simp only [trace, stopBy] at h
      obtain ⟨⟨before', stage'⟩, hrest, heq⟩ := Option.map_eq_some_iff.1 h
      cases heq
      obtain ⟨hresult, hlog, hprobes⟩ := ih (find name) hrest
      exact ⟨hresult, hlog, congrArg (name :: ·) hprobes⟩
  | log record next ih =>
      simp only [trace, stopBy] at h
      obtain ⟨⟨before', stage'⟩, hrest, heq⟩ := Option.map_eq_some_iff.1 h
      cases heq
      obtain ⟨hresult, hlog, hprobes⟩ := ih hrest
      exact ⟨hresult, congrArg (record :: ·) hlog, hprobes⟩

theorem run_of_stopBy_none {s : Script α} {token : Token}
    (h : stopBy token (s.trace find) = none) :
    (s.run find token).result = s.ending find ∧
      (s.run find token).log = (s.trace find).records ∧
      (s.run find token).probes = (s.trace find).names := by
  induction s generalizing token with
  | done value => exact ⟨rfl, rfl, rfl⟩
  | fail fault => exact ⟨rfl, rfl, rfl⟩
  | observe stage next ih =>
      simp only [trace, stopBy] at h
      by_cases hc : token.observed.cancelled = true
      · rw [if_pos hc] at h
        cases h
      · rw [if_neg hc] at h
        rw [run_observe_of_not_cancelled hc]
        exact ih (Option.map_eq_none_iff.1 h)
  | lookup name next ih =>
      simp only [trace, stopBy] at h
      obtain ⟨hresult, hlog, hprobes⟩ := ih (find name) (Option.map_eq_none_iff.1 h)
      exact ⟨hresult, hlog, congrArg (name :: ·) hprobes⟩
  | log record next ih =>
      simp only [trace, stopBy] at h
      obtain ⟨hresult, hlog, hprobes⟩ := ih (Option.map_eq_none_iff.1 h)
      exact ⟨hresult, congrArg (record :: ·) hlog, hprobes⟩

/-- What a run comes to under any token, it comes to undisturbed. -/
theorem ending_of_run_ok {s : Script α} {token : Token} {value : α}
    (h : (s.run find token).result = .ok value) : s.ending find = .ok value := by
  cases hstop : stopBy token (s.trace find) with
  | some stop =>
      rw [(run_of_stopBy_some hstop).1] at h
      cases h
  | none => rw [← (run_of_stopBy_none hstop).1, h]

/-- Under any token, a run logs the beginning of what an undisturbed one logs. -/
theorem isPrefix_log_run (s : Script α) (token : Token) :
    (s.run find token).log <+: (s.trace find).records := by
  induction s generalizing token with
  | done value => exact List.prefix_refl []
  | fail fault => exact List.prefix_refl []
  | observe stage next ih =>
      by_cases hc : token.observed.cancelled = true
      · rw [run_observe_of_cancelled hc]
        exact List.nil_prefix
      · rw [run_observe_of_not_cancelled hc]
        exact ih _
  | lookup name next ih => exact ih (find name) _
  | log record next ih => exact (List.prefix_cons_inj record).2 (ih token)

/-! ## The token that a run leaves -/

/-- A token that is cancelled before a run is cancelled after it. -/
theorem cancelled_run {s : Script α} {token : Token} (h : token.cancelled = true) :
    (s.run find token).token.cancelled = true := by
  induction s generalizing token with
  | done value => exact h
  | fail fault => exact h
  | observe stage next ih =>
      rw [run_observe_of_cancelled (cancelled_observed h)]
      exact cancelled_observed h
  | lookup name next ih => exact ih (find name) (cancelled_lookedUp h)
  | log record next ih => exact ih h

/-- A run that ends cancelled, when the script does not come to that by itself, leaves its token
cancelled. -/
theorem cancelled_of_result {s : Script α} {token : Token} {operation : String}
    (hending : s.ending find ≠ .error (.cancelled operation))
    (h : (s.run find token).result = .error (.cancelled operation)) :
    (s.run find token).token.cancelled = true := by
  induction s generalizing token with
  | done value => cases h
  | fail fault => exact absurd h hending
  | observe stage next ih =>
      by_cases hc : token.observed.cancelled = true
      · rw [run_observe_of_cancelled hc]
        exact hc
      · rw [run_observe_of_not_cancelled hc] at h ⊢
        exact ih hending h
  | lookup name next ih => exact ih (find name) hending h
  | log record next ih => exact ih hending h

/-- A run does not change a token that the host is not going to cancel by itself. -/
theorem token_run_of_unscheduled (s : Script α) {token : Token} (h : token.Unscheduled) :
    (s.run find token).token = token := by
  induction s with
  | done value => rfl
  | fail fault => rfl
  | observe stage next ih =>
      by_cases hc : token.observed.cancelled = true
      · rw [run_observe_of_cancelled hc, h.observed_eq]
      · rw [run_observe_of_not_cancelled hc, h.observed_eq]
        exact ih
  | lookup name next ih =>
      have hrest : ((next (find name)).run find token.lookedUp).token = token := by
        rw [h.lookedUp_eq]
        exact ih (find name)
      exact hrest
  | log record next ih => exact ih

/-! ## The place of a cancellation

Both countdowns are followed by induction on the part of the trace before the place that counts.
-/

/-- An observation that fails because the host has cancelled before. -/
theorem stopBy_cancelled {token : Token} (hc : token.cancelled = true) {between after : Trace}
    {stage : Stage} (hb : between.stages = []) :
    stopBy token (between ++ .observed stage :: after) = some (between, stage) := by
  induction between generalizing token with
  | nil =>
      simp only [List.nil_append, stopBy, if_pos (cancelled_observed hc)]
  | cons request between ih =>
      cases request with
      | observed stage' => cases hb
      | lookedUp name =>
          simp only [List.cons_append, stopBy, ih (cancelled_lookedUp hc) hb, Option.map_some]
      | logged record => simp only [List.cons_append, stopBy, ih hc hb, Option.map_some]

/-- A trace without observations is never stopped. -/
theorem stopBy_of_stages_nil {token : Token} {t : Trace} (h : t.stages = []) :
    stopBy token t = none := by
  induction t generalizing token with
  | nil => rfl
  | cons request t ih =>
      cases request with
      | observed stage => cases h
      | lookedUp name => simp only [stopBy, ih h, Option.map_none]
      | logged record => simp only [stopBy, ih h, Option.map_none]

/-- The token fails at the observation that has `k` others before it. -/
theorem stopBy_observation {before after : Trace} {stage : Stage} :
    stopBy (atObservation ((Trace.stages before).length + 1)) (before ++ .observed stage :: after) =
      some (before, stage) := by
  induction before with
  | nil => rfl
  | cons request before ih =>
      cases request with
      | observed stage' =>
          have hgo := not_cancelled_observed_atObservation (Trace.stages before).length
          simp only [Trace.stages, List.length_cons, List.cons_append, stopBy, if_neg hgo]
          rw [observed_atObservation, ih]
          rfl
      | lookedUp name =>
          simp only [Trace.stages, List.cons_append, stopBy, lookedUp_atObservation, ih,
            Option.map_some]
      | logged record =>
          simp only [Trace.stages, List.cons_append, stopBy, ih, Option.map_some]

/-- A trace with fewer observations goes through. -/
theorem stopBy_observation_eq_none {k : Nat} {t : Trace} (h : t.stages.length < k) :
    stopBy (atObservation k) t = none := by
  induction t generalizing k with
  | nil => rfl
  | cons request t ih =>
      cases request with
      | observed stage =>
          simp only [Trace.stages, List.length_cons] at h
          obtain ⟨k, rfl⟩ : ∃ m, k = m + 2 := ⟨k - 2, by omega⟩
          have hgo := not_cancelled_observed_atObservation k
          simp only [stopBy, if_neg hgo]
          rw [observed_atObservation, ih (by omega)]
          rfl
      | lookedUp name =>
          simp only [stopBy, lookedUp_atObservation, ih h, Option.map_none]
      | logged record => simp only [stopBy, ih h, Option.map_none]

/-- Before the lookup that counts, the token lets everything pass. -/
theorem stopBy_lookup {before rest : Trace} {name : String} :
    stopBy (duringLookup ((Trace.names before).length + 1)) (before ++ .lookedUp name :: rest) =
      (stopBy (duringLookup 1).lookedUp rest).map fun stop =>
        (before ++ .lookedUp name :: stop.1, stop.2) := by
  induction before with
  | nil => rfl
  | cons request before ih =>
      cases request with
      | observed stage =>
          simp only [Trace.names, List.cons_append, stopBy]
          rw [observed_duringLookup, if_neg (not_cancelled_duringLookup _), ih, Option.map_map]
          rfl
      | lookedUp name' =>
          simp only [Trace.names, List.length_cons, List.cons_append, stopBy]
          rw [lookedUp_duringLookup, ih, Option.map_map]
          rfl
      | logged record =>
          simp only [Trace.names, List.cons_append, stopBy]
          rw [ih, Option.map_map]
          rfl

/-- A trace with fewer lookups goes through. -/
theorem stopBy_lookup_eq_none {j : Nat} {t : Trace} (h : t.names.length < j) :
    stopBy (duringLookup j) t = none := by
  induction t generalizing j with
  | nil => rfl
  | cons request t ih =>
      cases request with
      | observed stage =>
          simp only [stopBy]
          rw [observed_duringLookup, if_neg (not_cancelled_duringLookup j), ih h]
          rfl
      | lookedUp name =>
          simp only [Trace.names, List.length_cons] at h
          obtain ⟨j, rfl⟩ : ∃ m, j = m + 2 := ⟨j - 2, by omega⟩
          simp only [stopBy]
          rw [lookedUp_duringLookup, ih (by omega)]
          rfl
      | logged record =>
          simp only [stopBy, ih h, Option.map_none]

end Script

end PropertyWeaver
