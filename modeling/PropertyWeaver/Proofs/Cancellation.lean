import PropertyWeaver.Proofs.Hosts
import PropertyWeaver.Proofs.Reading

/-!
# Cancelled passes

A pass reads its declarations one after the other.  All observations belong to the reading of some
declaration, and what is logged of a declaration is logged after its last observation.  A pass that
is cancelled at an observation is therefore stopped while it reads one declaration, and its log is
what was logged of the declarations before.  Files are made after the last observation, so a pass
that is stopped makes none and logs nothing of them.

`reading` is the part of the trace that belongs to one declaration, and `exists_readingAt` takes the
trace apart at an observation.  Everything else is read off `Trace`.

## Main results

* `stopsAt_cancellation` — where a pass stops that is cancelled at an observation or during a
  lookup, and what it leaves behind.
-/

namespace PropertyWeaver

open Script

namespace Script

/-! ## Taking traces apart -/

namespace Trace

theorem exists_of_stages_getElem? {t : Trace} {k : Nat} {stage : Stage}
    (h : t.stages[k]? = some stage) :
    ∃ before after, t = before ++ .observed stage :: after ∧ (stages before).length = k := by
  induction t generalizing k with
  | nil => cases h
  | cons request t ih =>
      cases request with
      | observed stage' =>
          cases k with
          | zero =>
              cases h
              exact ⟨[], t, rfl, rfl⟩
          | succ k =>
              obtain ⟨before, after, rfl, hk⟩ := ih h
              exact ⟨.observed stage' :: before, after, rfl, congrArg (· + 1) hk⟩
      | lookedUp name =>
          obtain ⟨before, after, rfl, hk⟩ := ih h
          exact ⟨.lookedUp name :: before, after, rfl, hk⟩
      | logged record =>
          obtain ⟨before, after, rfl, hk⟩ := ih h
          exact ⟨.logged record :: before, after, rfl, hk⟩

theorem exists_of_names_getElem? {t : Trace} {j : Nat} {name : String}
    (h : t.names[j]? = some name) :
    ∃ before after, t = before ++ .lookedUp name :: after ∧ (names before).length = j := by
  induction t generalizing j with
  | nil => cases h
  | cons request t ih =>
      cases request with
      | observed stage =>
          obtain ⟨before, after, rfl, hj⟩ := ih h
          exact ⟨.observed stage :: before, after, rfl, hj⟩
      | lookedUp name' =>
          cases j with
          | zero =>
              cases h
              exact ⟨[], t, rfl, rfl⟩
          | succ j =>
              obtain ⟨before, after, rfl, hj⟩ := ih h
              exact ⟨.lookedUp name' :: before, after, rfl, congrArg (· + 1) hj⟩
      | logged record =>
          obtain ⟨before, after, rfl, hj⟩ := ih h
          exact ⟨.logged record :: before, after, rfl, hj⟩

/-- An observation of `s ++ t` is one of `s` or one of `t`. -/
theorem append_eq_observed {s t before after : Trace} {stage : Stage}
    (h : s ++ t = before ++ .observed stage :: after) :
    (∃ after', s = before ++ .observed stage :: after') ∨
      ∃ before', before = s ++ before' ∧ t = before' ++ .observed stage :: after := by
  rcases List.append_eq_append_iff.1 h with ⟨before', hbefore, ht⟩ | ⟨rest, hs, hrest⟩
  · exact Or.inr ⟨before', hbefore, ht⟩
  · cases rest with
    | nil =>
        rw [List.append_nil] at hs
        exact Or.inr ⟨[], by rw [hs, List.append_nil], hrest.symm⟩
    | cons request rest =>
        rw [List.cons_append] at hrest
        injection hrest with hhead htail
        exact Or.inl ⟨rest, by rw [hs, hhead]⟩

theorem observed_mem_left {s t before after : Trace} {stage : Stage} (ht : t.stages = [])
    (h : s ++ t = before ++ .observed stage :: after) :
    ∃ after', s = before ++ .observed stage :: after' := by
  rcases append_eq_observed h with hs | ⟨before', -, hright⟩
  · exact hs
  · rw [hright, stages_append] at ht
    have hne : ¬ stages before' ++ stages (.observed stage :: after) = [] := by simp [stages]
    exact absurd ht hne

end Trace

end Script

namespace Generator

variable (g : Generator) {find : String → Option Symbol}

/-! ## Observations of a reading -/

/-- Nothing is logged of a declaration before its last observation. -/
theorem records_before_of_reading {x : SourceFile × Declaration} {before after : Trace}
    {stage : Stage} (h : g.reading find x = before ++ .observed stage :: after) :
    before.records = [] := by
  have hquiet : ∃ s t, g.reading find x = s ++ t ∧ Trace.records s = [] ∧ Trace.stages t = [] := by
    unfold reading
    split
    · refine ⟨.observed .discover :: (g.plan x.2 x.1).trace find, _, rfl, ?_, ?_⟩
      · exact g.records_trace_plan x.2 x.1
      · exact Trace.stages_ofRecords _
    · exact ⟨[.observed .discover], [], rfl, rfl, rfl⟩
  obtain ⟨s, t, heq, hs, ht⟩ := hquiet
  rw [heq] at h
  obtain ⟨after', hsplit⟩ := Trace.observed_mem_left ht h
  rw [hsplit, Trace.records_append] at hs
  exact (List.append_eq_nil_iff.1 hs).1

/-- The observation is made while a pass reads `x`, after it has read all of `finished`. -/
structure ReadingAt (find : String → Option Symbol)
    (declarations finished : List (SourceFile × Declaration)) (before : Trace) (stage : Stage) :
    Prop where
  readable : ∀ y ∈ finished, g.Readable find y
  split : ∃ x rest opening closing, declarations = finished ++ x :: rest ∧
    before = finished.flatMap (g.reading find) ++ opening ∧
    g.reading find x = opening ++ .observed stage :: closing

/-- Every observation is made in the reading of some declaration.  The induction is on the
declarations: an observation that is not in the first reading is one of the others. -/
theorem exists_readingAt_of_trace_planAll {declarations : List (SourceFile × Declaration)}
    {before after : Trace} {stage : Stage}
    (h : (g.planAll declarations).trace find = before ++ .observed stage :: after) :
    ∃ finished, g.ReadingAt find declarations finished before stage := by
  induction declarations generalizing before with
  | nil => simp [planAll, trace, pure_eq] at h
  | cons x xs ih =>
      by_cases hx : g.Readable find x
      · rw [g.trace_planAll_of_readable hx] at h
        rcases Trace.append_eq_observed h with ⟨closing, hreading⟩ | ⟨before', rfl, hxs⟩
        · exact ⟨[], by simp, x, xs, before, closing, rfl, rfl, hreading⟩
        · obtain ⟨finished, hfinished, y, rest, opening, closing, rfl, rfl, hy⟩ := ih hxs
          refine ⟨x :: finished, List.forall_mem_cons.2 ⟨hx, hfinished⟩, y, rest, opening, closing,
            rfl, ?_, hy⟩
          rw [List.flatMap_cons, List.append_assoc]
      · rw [g.trace_planAll_of_not_readable hx] at h
        exact ⟨[], by simp, x, xs, before, after, rfl, rfl, h⟩

theorem exists_trace_generate (find : String → Option Symbol)
    (declarations : List (SourceFile × Declaration)) :
    ∃ rs, (g.generate declarations).trace find =
      (g.planAll declarations).trace find ++ Trace.ofRecords rs := by
  cases hplans : (g.planAll declarations).ending find with
  | ok plans => exact ⟨_, g.trace_generate_of_ok hplans⟩
  | error fault =>
      refine ⟨[], ?_⟩
      rw [g.trace_generate_of_error hplans]
      exact (List.append_nil _).symm

/-! ## Passes that are cancelled -/

/-- Everything a pass over the host's program asks for when nobody cancels. -/
def passTrace (host : Host) : Trace := (g.generate host.declarations).trace host.find

/-- All observations of a pass are made while it reads; generating makes none. -/
theorem exists_readingAt {host : Host} {before after : Trace} {stage : Stage}
    (h : g.passTrace host = before ++ .observed stage :: after) :
    ∃ finished, g.ReadingAt host.find host.declarations finished before stage := by
  obtain ⟨rs, hrs⟩ := g.exists_trace_generate host.find host.declarations
  rw [passTrace, hrs] at h
  obtain ⟨after', hplan⟩ := Trace.observed_mem_left (Trace.stages_ofRecords rs) h
  exact g.exists_readingAt_of_trace_planAll hplan

theorem ReadingAt.records_before {declarations finished : List (SourceFile × Declaration)}
    {before : Trace} {stage : Stage}
    (h : g.ReadingAt find declarations finished before stage) :
    before.records = finished.flatMap (g.readingRecords find) := by
  obtain ⟨-, x, rest, opening, closing, -, rfl, hx⟩ := h
  rw [Trace.records_append, records_flatMap_reading, g.records_before_of_reading hx]
  exact List.append_nil _

/-- The pass is stopped at an observation of that stage, made after everything in `before`. -/
structure StoppedAt (host : Host) (token : Token) (before : Trace) (stage : Stage) : Prop where
  /-- The pass fails, with the stage as the operation that was cancelled. -/
  result : (g.runOn host token).result = .error (.cancelled stage.operation)
  /-- What is logged are the records of the declarations that were read completely. -/
  finished : ∃ finished, g.ReadingAt host.find host.declarations finished before stage ∧
    (g.runOn host token).log = finished.flatMap (g.readingRecords host.find)
  log_isInitial : (g.runOn host token).log <+: (g.runOn host .idle).log
  events : ∀ r ∈ (g.runOn host token).log, r.event = .candidate ∨ r.event = .skipped
  probes : (g.runOn host token).probes = before.names

/-- The pass shows what it shows when nobody cancels. -/
structure Undisturbed (host : Host) (token : Token) : Prop where
  result : (g.runOn host token).result = (g.runOn host .idle).result
  log : (g.runOn host token).log = (g.runOn host .idle).log
  probes : (g.runOn host token).probes = (g.runOn host .idle).probes

/-- The pass is stopped at the observation with `k` others before it if it makes so many, and
otherwise is not disturbed. -/
structure StopsAt (host : Host) (token : Token) (k : Nat) : Prop where
  stopped : ∀ stage, (g.passTrace host).stages[k]? = some stage →
    ∃ before after, g.passTrace host = before ++ .observed stage :: after ∧
      before.stages.length = k ∧ g.StoppedAt host token before stage
  undisturbed : (g.passTrace host).stages.length ≤ k → g.Undisturbed host token

theorem stoppedAt_of_stopBy {host : Host} {token : Token} {before after : Trace}
    {stage : Stage} (htrace : g.passTrace host = before ++ .observed stage :: after)
    (hstop : stopBy token (g.passTrace host) = some (before, stage)) :
    g.StoppedAt host token before stage := by
  obtain ⟨hresult, hlog, hprobes⟩ := run_of_stopBy_some hstop
  obtain ⟨finished, hreading⟩ := g.exists_readingAt htrace
  have hrecords : (g.runOn host token).log = finished.flatMap (g.readingRecords host.find) :=
    hlog.trans hreading.records_before
  refine ⟨hresult, ⟨finished, hreading, hrecords⟩, ?_, ?_, hprobes⟩
  · have hidle : (g.runOn host .idle).log = (g.passTrace host).records := by
      rw [runOn, run_idle]
      rfl
    have hwhole : (g.runOn host token).log = before.records := hlog
    rw [hwhole, hidle, htrace, Trace.records_append]
    exact List.prefix_append _ _
  · intro r hr
    rw [hrecords, List.mem_flatMap] at hr
    obtain ⟨x, -, hx⟩ := hr
    exact g.event_of_mem_readingRecords hx

theorem undisturbed_of_stopBy {host : Host} {token : Token}
    (h : stopBy token (g.passTrace host) = none) : g.Undisturbed host token := by
  obtain ⟨hresult, hlog, hprobes⟩ := run_of_stopBy_none h
  have hidle := run_idle host.find (g.generate host.declarations)
  refine ⟨?_, ?_, ?_⟩
  · rw [runOn, runOn, hresult, hidle]
  · rw [runOn, runOn, hlog, hidle]
  · rw [runOn, runOn, hprobes, hidle]

theorem stopsAt_atObservation (host : Host) (k : Nat) :
    g.StopsAt host (.atObservation (k + 1)) k := by
  refine ⟨?_, ?_⟩
  · intro stage hstage
    obtain ⟨before, after, htrace, hk⟩ := Trace.exists_of_stages_getElem? hstage
    refine ⟨before, after, htrace, hk, g.stoppedAt_of_stopBy htrace ?_⟩
    rw [htrace, ← hk]
    exact stopBy_observation
  · intro hk
    exact g.undisturbed_of_stopBy (stopBy_observation_eq_none (Nat.lt_succ_of_le hk))

/-- A token that is cancelled during a lookup stops the pass at the first observation after it. -/
theorem stopsAt_duringLookup {host : Host} {before after : Trace} {name : String}
    (h : g.passTrace host = before ++ .lookedUp name :: after) :
    g.StopsAt host (.duringLookup (before.names.length + 1)) before.stages.length := by
  have hstages : (g.passTrace host).stages = before.stages ++ after.stages := by
    rw [h, Trace.stages_append]
    rfl
  refine ⟨?_, ?_⟩
  · intro stage hstage
    rw [hstages, List.getElem?_append_right (Nat.le_refl _), Nat.sub_self] at hstage
    obtain ⟨between, rest, rfl, hbetween⟩ := Trace.exists_of_stages_getElem? hstage
    have hnone : between.stages = [] := List.length_eq_zero_iff.1 hbetween
    have htrace : g.passTrace host =
        (before ++ .lookedUp name :: between) ++ .observed stage :: rest := by
      rw [h, List.append_assoc]
      rfl
    refine ⟨_, rest, htrace, ?_, g.stoppedAt_of_stopBy htrace ?_⟩
    · rw [Trace.stages_append, Trace.stages, hnone, List.append_nil]
    · rw [h, stopBy_lookup, stopBy_cancelled rfl hnone]
      rfl
  · intro hlen
    rw [hstages, List.length_append] at hlen
    have hnone : after.stages = [] := List.length_eq_zero_iff.1 (by omega)
    apply g.undisturbed_of_stopBy
    rw [h, stopBy_lookup, stopBy_of_stages_nil hnone]
    rfl

/--
On any host, a pass that is cancelled just before an observation stops at that observation; one that
is cancelled during a lookup stops at the first observation after it.  It fails there with the
operation observed and leaves the records of the declarations that it had read.  If there is no such
observation, it shows what an undisturbed pass shows.
-/
theorem stopsAt_cancellation (host : Host) :
    (∀ k, g.StopsAt host (.atObservation (k + 1)) k) ∧
      (∀ j name, (g.passTrace host).names[j]? = some name →
        ∃ before after : Trace, g.passTrace host = before ++ .lookedUp name :: after ∧
          before.names.length = j ∧ g.StopsAt host (.duringLookup (j + 1)) before.stages.length) ∧
      ∀ j, (g.passTrace host).names.length ≤ j → g.Undisturbed host (.duringLookup (j + 1)) := by
  refine ⟨g.stopsAt_atObservation host, ?_, ?_⟩
  · intro j name hname
    obtain ⟨before, after, htrace, rfl⟩ := Trace.exists_of_names_getElem? hname
    exact ⟨before, after, htrace, rfl, g.stopsAt_duringLookup htrace⟩
  · intro j hj
    exact g.undisturbed_of_stopBy (stopBy_lookup_eq_none (Nat.lt_succ_of_le hj))

end Generator

/-- The first part of the type is read with eight observations, and the ninth opens the reading of
the second part; an interface that the host has besides makes no difference. -/
theorem stopsAt_partialType :
    (∃ before after : Trace, (Generator.mk .byName .usual).passTrace .generous =
        before ++ .observed .discover :: after ∧ before.stages.length = 8 ∧
      (Generator.mk .byName .usual).StoppedAt .generous (.atObservation 9) before .discover) ∧
    (∃ before after : Trace, (Generator.mk .byName .usual).passTrace .generous =
        before ++ .lookedUp "N.INone" :: after ∧ before.names.length = 3 ∧
      (Generator.mk .byName .usual).StopsAt .generous (.duringLookup 4)
        before.stages.length) ∧
    (Generator.mk .byName .usual).Undisturbed .generous (.duringLookup 6) := by
  obtain ⟨hobservation, hlookup, hidle⟩ :=
    Generator.stopsAt_cancellation (.mk .byName .usual) .generous
  refine ⟨(hobservation 8).stopped .discover ?_, hlookup 3 "N.INone" ?_, hidle 5 ?_⟩
  · decide +kernel
  · decide +kernel
  · decide +kernel

end PropertyWeaver
