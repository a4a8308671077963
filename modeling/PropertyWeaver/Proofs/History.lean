import PropertyWeaver.Proofs.Failure
import PropertyWeaver.Session

/-!
# Sessions without memory

A session goes on for as long as a host likes, and its requests may fail or be cancelled anywhere.
What a request finds is nevertheless only this: the generator, which never changes; the files that
were set last; the shared token as the requests before have left it; and the plans that were
answered before.  It never reads the log, and adds to it at the end.

`step_after` says so of one request: older records may be put before those of a session, and nothing
else about the request changes.  `steps_after` is the same for any number of them, and
`carried_steps` follows what does last through a session.  Together they make a session with a past
the same as one without, apart from the log that it has already.

The shared token is handed from request to request, and what a script leaves of it is what the next
one finds.  So a cancellation that one request has met is met by all that follow
(`carriedToken_steps`), wherever in a pass it was met first.

## Main results

* `step_generate`, `step_plan`, `step_emit` — what a request does to a session.
* `carried_steps`, `carriedToken_steps` — what lasts between requests.
* `steps_after` — requests do not depend on the log that is there.
* `failsAtOnce_of_cancelled` — what requests come to under a cancelled token.
* `independent_of_history` — a session with a past answers and logs as a fresh one.
-/

namespace PropertyWeaver

namespace Session

open Script

/-! ## Requests to the generator -/

/-- What is answered to a request that comes to a result. -/
def Answer.ofResult {α : Type} (answer : α → Answer) : Except Fault α → Answer
  | .ok value => answer value
  | .error f => .fault f

/-- Only a fault is answered by a fault. -/
theorem Answer.eq_of_ofResult {α : Type} {answer : α → Answer} {result : Except Fault α}
    {fault : Fault} (hanswer : ∀ value, answer value ≠ .fault fault)
    (h : ofResult answer result = .fault fault) : result = .error fault := by
  cases result with
  | ok value => exact absurd h (hanswer value)
  | error other =>
      cases h
      rfl

/-- The pass that a session makes on request. -/
def pass (s : Session) (choice : TokenChoice) : Outcome Report :=
  s.generator.runOn s.compilation.host (s.tokenFor choice)

/-- The planning that a session does on request. -/
def planning (s : Session) (x : SourceFile × Declaration) (choice : TokenChoice) : Outcome Plan :=
  (s.generator.plan x.2 x.1).run s.compilation.lookup (s.tokenFor choice)

/-- The plans that a session has at these places. -/
def plansAt (s : Session) (positions : List Nat) : List Plan :=
  positions.filterMap (s.plans[·]?)

theorem step_generate (s : Session) (choice : TokenChoice) :
    s.step (.generate choice) =
      (s.settled choice (s.pass choice), .ofResult .report (s.pass choice).result) := by
  have hperform : s.perform (s.generator.generate s.compilation.declarations) choice =
      (s.settled choice (s.pass choice), (s.pass choice).result) := rfl
  simp only [step, hperform]
  cases (s.pass choice).result <;> rfl

/-- Planning logs nothing, whatever the token does. -/
theorem log_planning (s : Session) (x : SourceFile × Declaration) (choice : TokenChoice) :
    (s.planning x choice).log = [] := by
  have hbegins : (s.planning x choice).log <+:
      ((s.generator.plan x.2 x.1).trace s.compilation.lookup).records :=
    isPrefix_log_run _ _
  rw [Generator.records_trace_plan] at hbegins
  exact List.prefix_nil.1 hbegins

/-- The session after planning, with the plan if it has come to one. -/
def planned (s : Session) (x : SourceFile × Declaration) (choice : TokenChoice) : Session :=
  { s with
    plans := s.plans ++ (s.planning x choice).result.toOption.toList
    token := s.tokenAfter (s.planning x choice).token choice }

theorem step_plan {s : Session} {file declaration : Nat} {x : SourceFile × Declaration}
    (h : s.declaration? file declaration = some x) (choice : TokenChoice) :
    s.step (.plan file declaration choice) =
      (s.planned x choice, .ofResult .plan (s.planning x choice).result) := by
  have hsettled : s.settled choice (s.planning x choice) =
      { s with token := s.tokenAfter (s.planning x choice).token choice } := by
    rw [settled, s.log_planning, List.append_nil]
  have hperform : s.perform (s.generator.plan x.2 x.1) choice =
      ({ s with token := s.tokenAfter (s.planning x choice).token choice },
        (s.planning x choice).result) := by
    rw [← hsettled]
    rfl
  simp only [step, h, hperform, planned]
  cases (s.planning x choice).result with
  | ok plan => rfl
  | error fault =>
      show _ = ({ s with plans := s.plans ++ [], token := _ }, Answer.fault fault)
      rw [List.append_nil]

theorem step_plan_of_absent {s : Session} {file declaration : Nat}
    (h : s.declaration? file declaration = none) (choice : TokenChoice) :
    s.step (.plan file declaration choice) = (s, .absent) := by
  simp only [step, h]

theorem step_emit (s : Session) (positions : List Nat) :
    s.step (.emit positions) =
      ({ s with log := s.log ++
          (s.generator.placements (s.plansAt positions)).map s.generator.placementRecord },
        .files (s.generator.filesOf (s.plansAt positions))) := by
  have hrun := run_idle s.compilation.lookup (s.generator.emit (s.plansAt positions))
  rw [Generator.ending_emit, Generator.trace_emit, Trace.records_ofRecords] at hrun
  have hperform : s.perform (s.generator.emit (s.plansAt positions)) (.own .idle) =
      ({ s with log := s.log ++
          (s.generator.placements (s.plansAt positions)).map s.generator.placementRecord },
        .ok (s.generator.filesOf (s.plansAt positions))) := by
    rw [perform, tokenFor, hrun]
    rfl
  rw [plansAt] at hperform ⊢
  simp only [step, hperform]

/-! ## What lasts -/

/-- The files that a request sets. -/
def Step.files? : Step → Option (List SourceFile)
  | .setFiles files => some files
  | _ => none

/-- The plan that was answered. -/
def Answer.plan? : Answer → Option Plan
  | .plan p => some p
  | _ => none

/-- The files of a program after some requests: those that were set last. -/
def filesAfter (files : List SourceFile) (requests : List Step) : List SourceFile :=
  requests.foldl (fun files request => request.files?.getD files) files

theorem filesAfter_append (files : List SourceFile) (xs ys : List Step) :
    filesAfter files (xs ++ ys) = filesAfter (filesAfter files xs) ys :=
  List.foldl_append

/-- What a session has become after some requests that were answered, apart from its token. -/
structure Carried (s : Session) (requests : List Step) (last : Session) (answers : List Answer) :
    Prop where
  generator_eq : last.generator = s.generator
  compilation_eq : last.compilation =
    s.compilation.withFiles (filesAfter s.compilation.files requests)
  plans_eq : last.plans = s.plans ++ answers.filterMap Answer.plan?
  log_isPrefix : s.log <+: last.log

theorem Carried.trans {s t u : Session} {xs ys : List Step} {as bs : List Answer}
    (h : Carried s xs t as) (h' : Carried t ys u bs) :
    Carried s (xs ++ ys) u (as ++ bs) where
  generator_eq := h'.generator_eq.trans h.generator_eq
  compilation_eq := by
    rw [h'.compilation_eq, h.compilation_eq, filesAfter_append]
    rfl
  plans_eq := by
    rw [h'.plans_eq, h.plans_eq, List.filterMap_append, List.append_assoc]
  log_isPrefix := h.log_isPrefix.trans h'.log_isPrefix

/-- A request that adds to the log at most, whatever it does to the token, and answers no plan. -/
theorem carried_of_frame {s last : Session} {x : Step} {a : Answer} (hfiles : x.files? = none)
    (hplan : a.plan? = none)
    (hframe : ∃ log token, s.log <+: log ∧ last = { s with log := log, token := token }) :
    Carried s [x] last [a] := by
  obtain ⟨log, token, hbegins, rfl⟩ := hframe
  refine ⟨rfl, ?_, ?_, hbegins⟩
  · rw [filesAfter, List.foldl_cons, hfiles]
    rfl
  · rw [List.filterMap_cons_none hplan]
    exact (List.append_nil _).symm

theorem Answer.plan?_ofResult_report (result : Except Fault Report) :
    (ofResult report result).plan? = none := by
  cases result <;> rfl

theorem Answer.plan?_ofResult_plan (result : Except Fault Plan) :
    (ofResult plan result).plan? = result.toOption := by
  cases result <;> rfl

theorem carried_step (s : Session) (x : Step) : Carried s [x] (s.step x).1 [(s.step x).2] := by
  have hsame : ∃ log token, s.log <+: log ∧ s = { s with log := log, token := token } :=
    ⟨s.log, s.token, List.prefix_refl _, rfl⟩
  cases x with
  | generate choice =>
      rw [step_generate]
      exact carried_of_frame rfl (Answer.plan?_ofResult_report _)
        ⟨_, _, List.prefix_append _ _, rfl⟩
  | plan file declaration choice =>
      cases hx : s.declaration? file declaration with
      | none =>
          rw [step_plan_of_absent hx]
          exact carried_of_frame rfl rfl hsame
      | some x =>
          rw [step_plan hx]
          refine ⟨rfl, rfl, ?_, List.prefix_refl _⟩
          rw [planned]
          cases (s.planning x choice).result <;> rfl
  | emit positions =>
      rw [step_emit]
      exact carried_of_frame rfl rfl ⟨_, _, List.prefix_append _ _, rfl⟩
  | setFiles files => exact ⟨rfl, rfl, (List.append_nil _).symm, List.prefix_refl _⟩
  | cancel => exact carried_of_frame rfl rfl ⟨_, _, List.prefix_refl _, rfl⟩
  | log request => exact carried_of_frame rfl rfl ⟨_, _, Log.isPrefix_step s.log request, rfl⟩
  | lookup name => exact carried_of_frame rfl rfl hsame
  | candidates => exact carried_of_frame rfl rfl hsame
  | accepts => exact carried_of_frame rfl rfl hsame
  | markerFile => exact carried_of_frame rfl rfl hsame
  | rendering => exact carried_of_frame rfl rfl hsame

theorem steps_cons (s : Session) (x : Step) (xs : List Step) :
    s.steps (x :: xs) =
      (((s.step x).1.steps xs).1, (s.step x).2 :: ((s.step x).1.steps xs).2) := rfl

/-- What lasts through any number of requests. -/
theorem carried_steps (s : Session) (requests : List Step) :
    Carried s requests (s.steps requests).1 (s.steps requests).2 := by
  induction requests generalizing s with
  | nil => exact ⟨rfl, rfl, (List.append_nil _).symm, List.prefix_refl _⟩
  | cons x xs ih =>
      rw [steps_cons]
      exact (s.carried_step x).trans (ih (s.step x).1)

/-! ## What becomes of the shared token -/

/-- The request is made under the token that requests share. -/
def Step.sharesToken : Step → Bool
  | .generate .shared => true
  | .plan _ _ .shared => true
  | _ => false

/-- What has become of the shared token after some requests that were answered. -/
structure CarriedToken (token : Token) (requests : List Step) (last : Token)
    (answers : List Answer) : Prop where
  /-- Every request is answered, and only once. -/
  length_eq : answers.length = requests.length
  /-- No request takes a cancellation back. -/
  of_cancelled : token.cancelled = true → last.cancelled = true
  of_cancel : .cancel ∈ requests → last.cancelled = true
  /-- A request that was stopped under the token leaves it cancelled. -/
  of_fault : ∀ x operation, (x, .fault (.cancelled operation)) ∈ requests.zip answers →
    x.sharesToken = true → last.cancelled = true
  /-- If the host has not scheduled anything, it cancels on request only. -/
  of_unscheduled : token.Unscheduled → last.Unscheduled ∧
    (last.cancelled = true → token.cancelled = true ∨ .cancel ∈ requests)

theorem CarriedToken.trans {t u v : Token} {xs ys : List Step} {as bs : List Answer}
    (h : CarriedToken t xs u as) (h' : CarriedToken u ys v bs) :
    CarriedToken t (xs ++ ys) v (as ++ bs) where
  length_eq := by
    rw [List.length_append, List.length_append, h.length_eq, h'.length_eq]
  of_cancelled := fun ht => h'.of_cancelled (h.of_cancelled ht)
  of_cancel := by
    intro hmem
    rcases List.mem_append.1 hmem with hx | hy
    · exact h'.of_cancelled (h.of_cancel hx)
    · exact h'.of_cancel hy
  of_fault := by
    intro x operation hmem hshares
    rw [List.zip_append h.length_eq.symm, List.mem_append] at hmem
    rcases hmem with hx | hy
    · exact h'.of_cancelled (h.of_fault x operation hx hshares)
    · exact h'.of_fault x operation hy hshares
  of_unscheduled := by
    intro ht
    obtain ⟨hu, hfrom⟩ := h.of_unscheduled ht
    obtain ⟨hv, hfrom'⟩ := h'.of_unscheduled hu
    refine ⟨hv, fun hlast => ?_⟩
    rw [List.mem_append]
    rcases hfrom' hlast with hcancelled | hy
    · exact (hfrom hcancelled).imp_right Or.inl
    · exact Or.inr (Or.inr hy)

/-- A request that leaves the shared token alone, and is not told of a cancellation under it. -/
theorem carriedToken_of_frame (token : Token) {x : Step} {a : Answer} (hcancel : x ≠ .cancel)
    (hquiet : x.sharesToken = true → ∀ operation, a ≠ .fault (.cancelled operation)) :
    CarriedToken token [x] token [a] where
  length_eq := rfl
  of_cancelled := id
  of_cancel := fun hmem => absurd (List.mem_singleton.1 hmem).symm hcancel
  of_fault := by
    intro y operation hmem hshares
    cases List.mem_singleton.1 hmem
    exact absurd rfl (hquiet hshares operation)
  of_unscheduled := fun ht => ⟨ht, Or.inl⟩

/-- A request that runs a script under the shared token, and is told of a cancellation only if the
script has been stopped. -/
theorem carriedToken_of_run {α : Type} {find : String → Option Symbol} {script : Script α}
    {token : Token} {x : Step} {a : Answer} (hcancel : x ≠ .cancel)
    (hending : ∀ operation, script.ending find ≠ .error (.cancelled operation))
    (hfault : ∀ operation, a = .fault (.cancelled operation) →
      (script.run find token).result = .error (.cancelled operation)) :
    CarriedToken token [x] (script.run find token).token [a] where
  length_eq := rfl
  of_cancelled := cancelled_run
  of_cancel := fun hmem => absurd (List.mem_singleton.1 hmem).symm hcancel
  of_fault := by
    intro y operation hmem _
    cases List.mem_singleton.1 hmem
    exact cancelled_of_result (hending operation) (hfault operation rfl)
  of_unscheduled := by
    intro ht
    rw [token_run_of_unscheduled script ht]
    exact ⟨ht, Or.inl⟩

theorem carriedToken_generate (s : Session) (choice : TokenChoice) :
    CarriedToken s.token [.generate choice] (s.step (.generate choice)).1.token
      [(s.step (.generate choice)).2] := by
  rw [step_generate]
  cases choice with
  | own token => exact carriedToken_of_frame s.token (by rintro ⟨⟩) (by rintro ⟨⟩)
  | shared =>
      exact carriedToken_of_run (by rintro ⟨⟩)
        (s.generator.ending_generate_ne_cancelled s.compilation.host)
        fun _ => Answer.eq_of_ofResult (by rintro _ ⟨⟩)

theorem carriedToken_plan (s : Session) (file declaration : Nat) (choice : TokenChoice) :
    CarriedToken s.token [.plan file declaration choice]
      (s.step (.plan file declaration choice)).1.token
      [(s.step (.plan file declaration choice)).2] := by
  cases hx : s.declaration? file declaration with
  | none =>
      rw [step_plan_of_absent hx]
      exact carriedToken_of_frame s.token (by rintro ⟨⟩) (by rintro - _ ⟨⟩)
  | some x =>
      rw [step_plan hx]
      cases choice with
      | own token => exact carriedToken_of_frame s.token (by rintro ⟨⟩) (by rintro ⟨⟩)
      | shared =>
          exact carriedToken_of_run (by rintro ⟨⟩)
            (s.generator.ending_plan_ne_cancelled s.compilation.lookup x.2 x.1)
            fun _ => Answer.eq_of_ofResult (by rintro _ ⟨⟩)

theorem carriedToken_step (s : Session) (x : Step) :
    CarriedToken s.token [x] (s.step x).1.token [(s.step x).2] := by
  cases x with
  | generate choice => exact s.carriedToken_generate choice
  | plan file declaration choice => exact s.carriedToken_plan file declaration choice
  | emit positions =>
      rw [step_emit]
      exact carriedToken_of_frame s.token (by rintro ⟨⟩) (by rintro ⟨⟩)
  | cancel =>
      have hmem : Step.cancel ∈ [Step.cancel] := List.mem_singleton.2 rfl
      exact ⟨rfl, fun _ => rfl, fun _ => rfl, fun _ _ _ _ => rfl,
        fun ht => ⟨ht.cancel, fun _ => Or.inr hmem⟩⟩
  | setFiles files => exact carriedToken_of_frame s.token (by rintro ⟨⟩) (by rintro ⟨⟩)
  | log request => exact carriedToken_of_frame s.token (by rintro ⟨⟩) (by rintro ⟨⟩)
  | lookup name => exact carriedToken_of_frame s.token (by rintro ⟨⟩) (by rintro ⟨⟩)
  | candidates => exact carriedToken_of_frame s.token (by rintro ⟨⟩) (by rintro ⟨⟩)
  | accepts => exact carriedToken_of_frame s.token (by rintro ⟨⟩) (by rintro ⟨⟩)
  | markerFile => exact carriedToken_of_frame s.token (by rintro ⟨⟩) (by rintro ⟨⟩)
  | rendering => exact carriedToken_of_frame s.token (by rintro ⟨⟩) (by rintro ⟨⟩)

/-- What becomes of the shared token through any number of requests. -/
theorem carriedToken_steps (s : Session) (requests : List Step) :
    CarriedToken s.token requests (s.steps requests).1.token (s.steps requests).2 := by
  induction requests generalizing s with
  | nil =>
      exact ⟨rfl, id, fun h => absurd h List.not_mem_nil, fun _ _ h => absurd h List.not_mem_nil,
        fun ht => ⟨ht, Or.inl⟩⟩
  | cons x xs ih =>
      rw [steps_cons]
      exact (s.carriedToken_step x).trans (ih (s.step x).1)

/-! ## Older records -/

/-- The request is about the log. -/
def Step.isLog : Step → Bool
  | .log _ => true
  | _ => false

/-- The session with older records before its own. -/
def after (s : Session) (older : Log) : Session := { s with log := older ++ s.log }

theorem settled_after {α : Type} (s : Session) (older : Log) (choice : TokenChoice)
    (outcome : Outcome α) :
    (s.after older).settled choice outcome = (s.settled choice outcome).after older := by
  rw [settled, settled, after, after, List.append_assoc]
  rfl

/-- Older records make no difference to a request, unless it is about the log. -/
theorem step_after (s : Session) (older : Log) {x : Step} (hx : x.isLog = false) :
    (s.after older).step x = ((s.step x).1.after older, (s.step x).2) := by
  cases x with
  | generate choice =>
      have hpass : (s.after older).pass choice = s.pass choice := rfl
      rw [step_generate, step_generate, hpass, settled_after]
  | plan file declaration choice =>
      have hdeclaration : (s.after older).declaration? file declaration =
          s.declaration? file declaration := rfl
      cases hd : s.declaration? file declaration with
      | none => rw [step_plan_of_absent hd, step_plan_of_absent (hdeclaration.trans hd)]
      | some y =>
          have hplanned : (s.after older).planned y choice = (s.planned y choice).after older := rfl
          have hplanning : (s.after older).planning y choice = s.planning y choice := rfl
          rw [step_plan hd, step_plan (hdeclaration.trans hd), hplanned, hplanning]
  | emit positions =>
      rw [step_emit, step_emit, after, after, ← List.append_assoc]
      rfl
  | log request => cases hx
  | setFiles files => rfl
  | lookup name => rfl
  | candidates => rfl
  | accepts => rfl
  | markerFile => rfl
  | rendering => rfl
  | cancel => rfl

theorem steps_after (s : Session) (older : Log) {requests : List Step}
    (h : ∀ x ∈ requests, x.isLog = false) :
    (s.after older).steps requests =
      ((s.steps requests).1.after older, (s.steps requests).2) := by
  induction requests generalizing s with
  | nil => rfl
  | cons x xs ih =>
      obtain ⟨hx, hxs⟩ := List.forall_mem_cons.1 h
      rw [steps_cons, steps_cons, s.step_after older hx, ih (s.step x).1 hxs]

/-! ## Requests that fail -/

/-- Whatever stops a pass, it has logged the first records of an undisturbed one by then. -/
theorem isPrefix_log_pass (s : Session) (choice : TokenChoice) :
    (s.pass choice).log <+: (s.generator.runOn s.compilation.host .idle).log := by
  rw [Generator.runOn, run_idle]
  exact isPrefix_log_run _ _

/-- Planning leaves nothing but the plan that it answers and, if it was made under the shared token,
the token as it has left it. -/
theorem step_plan_fst (s : Session) (file declaration : Nat) (choice : TokenChoice) :
    ∃ left, (s.step (.plan file declaration choice)).1 =
      { s with
        plans := s.plans ++ (s.step (.plan file declaration choice)).2.plan?.toList
        token := s.tokenAfter left choice } := by
  cases hx : s.declaration? file declaration with
  | none =>
      have htoken : s.tokenAfter s.token choice = s.token := by cases choice <;> rfl
      refine ⟨s.token, ?_⟩
      rw [step_plan_of_absent hx, htoken]
      show s = { s with plans := s.plans ++ [] }
      rw [List.append_nil]
  | some x =>
      rw [step_plan hx, Answer.plan?_ofResult_plan]
      exact ⟨_, rfl⟩

/-- The first thing that is done with declarations is to observe the token. -/
theorem exists_generate_eq_observe (g : Generator) {declarations : List (SourceFile × Declaration)}
    (h : declarations ≠ []) :
    ∃ next, g.generate declarations = .observe .discover next := by
  obtain ⟨x, xs, rfl⟩ := List.exists_cons_of_ne_nil h
  exact ⟨_, rfl⟩

/-- The session after a request that has made one observation under the shared token. -/
def observed (s : Session) : Session := { s with token := s.token.observed }

/-- Whatever is read under the shared token is stopped where it begins.  It logs nothing, and it
leaves nothing behind but its one observation. -/
structure FailsAtOnce (s : Session) : Prop where
  generate : s.compilation.declarations ≠ [] →
    s.step (.generate .shared) = (s.observed, .fault (.cancelled Stage.discover.operation))
  plan : ∀ file declaration x, s.declaration? file declaration = some x →
    s.step (.plan file declaration .shared) =
      (s.observed, .fault (.cancelled Stage.transform.operation))

theorem failsAtOnce_of_cancelled {s : Session} (h : s.token.cancelled = true) :
    s.FailsAtOnce where
  generate := by
    intro hne
    obtain ⟨next, hnext⟩ := exists_generate_eq_observe s.generator hne
    have hpass : s.pass .shared =
        ⟨.error (.cancelled Stage.discover.operation), [], [], s.token.observed⟩ := by
      show (s.generator.generate s.compilation.declarations).run _ s.token = _
      rw [hnext, run_observe_of_cancelled (Token.cancelled_observed h)]
    rw [step_generate, hpass, settled, List.append_nil]
    rfl
  plan := by
    intro file declaration x hx
    have hplanning : s.planning x .shared =
        ⟨.error (.cancelled Stage.transform.operation), [], [], s.token.observed⟩ := by
      rw [planning, tokenFor, Generator.plan, bind_eq, bind_checkpoint,
        run_observe_of_cancelled (Token.cancelled_observed h)]
    rw [step_plan hx, planned, hplanning, Except.toOption, Option.toList_none, List.append_nil]
    rfl

/--
After any requests, a session has its generator, the files that were set last and the plans that it
has answered.  Its token is cancelled if it was before, if the host has asked for that, or if any
request has been stopped under it; and a token without a schedule is cancelled on request only.

From then on the session answers everything that is not about the log as a session does that starts
with these things and an empty log, and it puts behind the records that it has exactly those that
the other one has.  Planning leaves nothing but its plan, if it comes to one, and logs nothing.  A
pass leaves nothing but records, which are the first ones of what an undisturbed pass logs.  Either
leaves the shared token alone, unless it was made under it.

Once the shared token is cancelled, passes and planning under it fail at their first observation,
whatever else is requested in between.
-/
theorem independent_of_history (first : Session) (earlier : List Step) :
    let s := (first.steps earlier).1
    Carried first earlier s (first.steps earlier).2 ∧
      CarriedToken first.token earlier s.token (first.steps earlier).2 ∧
      (∀ later, (∀ x ∈ later, x.isLog = false) →
        let fresh : Session :=
          { start first.generator s.compilation with token := s.token, plans := s.plans }
        s.steps later =
          ({ (fresh.steps later).1 with log := s.log ++ (fresh.steps later).1.log },
            (fresh.steps later).2)) ∧
      (∀ file declaration choice, ∃ left, (s.step (.plan file declaration choice)).1 =
        { s with
          plans := s.plans ++ (s.step (.plan file declaration choice)).2.plan?.toList
          token := s.tokenAfter left choice }) ∧
      (∀ choice, (s.pass choice).log <+: (first.generator.runOn s.compilation.host .idle).log ∧
        (s.step (.generate choice)).1 =
          { s with
            log := s.log ++ (s.pass choice).log
            token := s.tokenAfter (s.pass choice).token choice }) ∧
      (s.token.cancelled = true → ∀ later, (s.steps later).1.FailsAtOnce) := by
  intro s
  have hcarried : Carried first earlier s (first.steps earlier).2 := first.carried_steps earlier
  have hgenerator : s.generator = first.generator := hcarried.generator_eq
  refine ⟨hcarried, first.carriedToken_steps earlier, ?_, ?_, ?_, ?_⟩
  · intro later hlater fresh
    -- With the records of the past put before its own, the fresh session is the other one.
    have hfresh : fresh.after s.log = s := by
      show { s with generator := first.generator, log := s.log ++ [] } = s
      rw [List.append_nil, ← hgenerator]
    have hsteps := fresh.steps_after s.log hlater
    rw [hfresh] at hsteps
    exact hsteps
  · exact s.step_plan_fst
  · intro choice
    rw [← hgenerator, step_generate]
    exact ⟨s.isPrefix_log_pass choice, rfl⟩
  · intro hcancelled later
    exact failsAtOnce_of_cancelled ((s.carriedToken_steps later).of_cancelled hcancelled)

end Session

/-- A past with a pass that is stopped under the shared token before its second declaration, a plan
under a token of its own, and other files. -/
def Session.past : List Session.Step :=
  [.generate .shared, .plan 0 0 (.own .idle),
    .setFiles [⟨"Foo.Part.cs", [], [.marked ["App"] "Foo" ["N.IBar"]]⟩]]

/-- A session whose host is going to cancel the shared token at the ninth observation. -/
def Session.scheduled : Session :=
  { start (.mk .byName .usual) .partialType with token := .atObservation 9 }

/-- The past leaves two records and a plan, and the token cancelled by the pass that it stopped.
Under the shared token a pass fails at once from then on; under a token of its own it logs what a
pass over the new files logs, and the plan gives its file. -/
theorem independent_of_past :
    ∃ s : Session, s = (Session.scheduled.steps Session.past).1 ∧
      s.log.map Record.event = [.candidate, .skipped] ∧ s.plans.length = 1 ∧
      s.token.cancelled = true ∧
      s.step (.generate .shared) = (s, .fault (.cancelled "discover")) ∧
      ∃ last answers,
        s.steps [.generate (.own .idle), .emit [0]] = (last, answers) ∧
        last.log.map Record.event =
          [.candidate, .skipped, .candidate, .emitted, .emitted] ∧
        answers = (Session.steps { Session.start (.mk .byName .usual) s.compilation with
          token := s.token, plans := s.plans } [.generate (.own .idle), .emit [0]]).2 ∧
        last.FailsAtOnce := by
  obtain ⟨-, htoken, hlater, -, -, hfails⟩ :=
    Session.independent_of_history Session.scheduled Session.past
  have hstopped : ((Session.Step.generate .shared, Session.Answer.fault (.cancelled "discover")) ∈
      Session.past.zip (Session.scheduled.steps Session.past).2) := List.mem_cons_self
  have hcancelled := htoken.of_fault _ _ hstopped rfl
  have hsteps := hlater [.generate (.own .idle), .emit [0]] (by simp [Session.Step.isLog])
  refine ⟨_, rfl, by decide +kernel, by decide +kernel, hcancelled, ?_, _, _, hsteps,
    by decide +kernel, rfl, ?_⟩
  · exact (hfails hcancelled []).generate (by decide +kernel)
  · have hlast := hfails hcancelled [.generate (.own .idle), .emit [0]]
    rw [hsteps] at hlast
    exact hlast

end PropertyWeaver
