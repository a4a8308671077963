import PropertyWeaver.Compilation
import PropertyWeaver.Fault
import PropertyWeaver.Log
import PropertyWeaver.Token

/-!
# Scripts

A pass asks four things of its surroundings: whether to go on, which symbol has a name, that a
record be logged, and that it be stopped for a fault. A `Script` is a pass as the tree of these
requests; it does nothing until it is run. Running it against a lookup and a token gives its
outcome, together with everything that could be observed on the way.

Because a script is data, what a pass looks up and logs, and where it can be stopped, are facts
about the tree and are proved by induction on it.

## Main results

* `run_bind`: running two scripts in sequence is running the second from where the first ended.
* `run_observe_idle`: without a host that cancels, observing changes nothing.
-/

namespace PropertyWeaver

/-- A computation that makes requests and ends in a value or a fault. -/
inductive Script (α : Type) where
  /-- The computation has ended. -/
  | done (value : α)
  /-- The computation cannot go on. -/
  | fail (fault : Fault)
  /-- The host may stop the computation here. -/
  | observe (stage : Stage) (next : Script α)
  /-- A symbol is looked up by its metadata name. -/
  | lookup (name : String) (next : Option Symbol → Script α)
  /-- A record is added to the log. -/
  | log (record : Record) (next : Script α)

namespace Script

variable {α β : Type}

/-! ## Sequencing -/

/-- The first script, and then the one its value chooses. -/
def bind : Script α → (α → Script β) → Script β
  | done value, f => f value
  | fail fault, _ => fail fault
  | observe stage next, f => observe stage (next.bind f)
  | lookup name next, f => lookup name fun symbol => (next symbol).bind f
  | log record next, f => log record (next.bind f)

instance : Monad Script where
  pure := done
  bind := bind

@[simp] theorem pure_eq (value : α) : (pure value : Script α) = done value := rfl

@[simp] theorem bind_eq (s : Script α) (f : α → Script β) : s >>= f = s.bind f := rfl

theorem bind_done (s : Script α) : s.bind done = s := by
  induction s with
  | done value => rfl
  | fail fault => rfl
  | observe stage next ih => simp only [bind, ih]
  | lookup name next ih => simp only [bind, ih]
  | log record next ih => simp only [bind, ih]

theorem bind_assoc {γ : Type} (s : Script α) (f : α → Script β) (g : β → Script γ) :
    (s.bind f).bind g = s.bind fun value => (f value).bind g := by
  induction s with
  | done value => rfl
  | fail fault => rfl
  | observe stage next ih => simp only [bind, ih]
  | lookup name next ih => simp only [bind, ih]
  | log record next ih => simp only [bind, ih]

instance : LawfulMonad Script :=
  LawfulMonad.mk' Script bind_done (fun _ _ => rfl) bind_assoc

/-! ## Single requests and repeated ones -/

/-- One observation. -/
def checkpoint (stage : Stage) : Script Unit := observe stage (done ())

/-- The symbol of that metadata name. -/
def symbolNamed (name : String) : Script (Option Symbol) := lookup name done

@[simp] theorem bind_checkpoint (stage : Stage) (f : Unit → Script β) :
    (checkpoint stage).bind f = observe stage (f ()) := rfl

@[simp] theorem bind_symbolNamed (name : String) (f : Option Symbol → Script β) :
    (symbolNamed name).bind f = lookup name f := rfl

/-- The value, or its fault. -/
def ofExcept : Except Fault α → Script α
  | .ok value => done value
  | .error fault => fail fault

/-- `n` observations at one stage. -/
def observeTimes (stage : Stage) : Nat → Script Unit
  | 0 => done ()
  | n + 1 => observe stage (observeTimes stage n)

/-- The records, in order. -/
def logAll : List Record → Script Unit
  | [] => done ()
  | record :: records => log record (logAll records)

/-! ## Running -/

/-- What a script comes to, and what could be observed of it. -/
structure Outcome (α : Type) where
  result : Except Fault α
  /-- The records logged, in order. -/
  log : Log
  /-- The names looked up, in order. -/
  probes : List String
  /-- The token as the script left it. -/
  token : Token

/-- `script` run against a lookup, under a token. -/
def run (find : String → Option Symbol) : Script α → Token → Outcome α
  | done value, token => ⟨.ok value, [], [], token⟩
  | fail fault, token => ⟨.error fault, [], [], token⟩
  | observe stage next, token =>
    match token.observe stage.operation with
    | (observed, .error fault) => ⟨.error fault, [], [], observed⟩
    | (observed, .ok _) => next.run find observed
  | lookup name next, token =>
    let rest := (next (find name)).run find token.lookedUp
    { rest with probes := name :: rest.probes }
  | log record next, token =>
    let rest := next.run find token
    { rest with log := record :: rest.log }

/-- The outcome of going on from an outcome. -/
def Outcome.andThen (o : Outcome α) (next : α → Token → Outcome β) : Outcome β :=
  match o.result with
  | .error fault => ⟨.error fault, o.log, o.probes, o.token⟩
  | .ok value =>
    let rest := next value o.token
    { rest with log := o.log ++ rest.log, probes := o.probes ++ rest.probes }

theorem run_bind (find : String → Option Symbol) (s : Script α) (f : α → Script β)
    (token : Token) :
    (s.bind f).run find token = (s.run find token).andThen fun value => (f value).run find := by
  induction s generalizing token with
  | done value => rfl
  | fail fault => rfl
  | observe stage next ih =>
    simp only [bind, run]
    split
    · rfl
    · exact ih _
  | lookup name next ih =>
    simp only [bind, run, ih]
    simp only [Outcome.andThen]
    split <;> simp_all
  | log record next ih =>
    simp only [bind, run, ih]
    simp only [Outcome.andThen]
    split <;> simp_all

@[simp] theorem run_observe_idle (find : String → Option Symbol) (stage : Stage)
    (next : Script α) : (observe stage next).run find .idle = next.run find .idle := rfl

@[simp] theorem run_lookup_idle (find : String → Option Symbol) (name : String)
    (next : Option Symbol → Script α) :
    (lookup name next).run find .idle =
      { (next (find name)).run find .idle with
        probes := name :: ((next (find name)).run find .idle).probes } := rfl

end Script

end PropertyWeaver
