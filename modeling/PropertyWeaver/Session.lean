import PropertyWeaver.Pass

/-!
# Sessions

A host keeps a generator for as long as it has a program open. A session holds what lasts between
its requests: the program, the log, the plans it asked for, and one token that requests may share.
Nothing else lasts, so a request answers the same whatever came before it.

A request under the shared token leaves it as the script does, so what one request has observed of
the token counts for the next, and a cancellation is there to stay.
-/

namespace PropertyWeaver

/-- The token of a request. -/
inductive TokenChoice where
  /-- A token of its own. -/
  | own (token : Token)
  /-- The token of the session. -/
  | shared

/-- What lasts between requests. -/
structure Session where
  generator : Generator
  compilation : Compilation
  /-- The token that requests share. -/
  token : Token
  log : Log
  /-- The plans made on request, in order. -/
  plans : List Plan

namespace Session

/-- A session in which nothing has happened yet, and which nobody is going to cancel unasked. -/
def start (g : Generator) (c : Compilation) : Session := ⟨g, c, .idle, [], []⟩

/-- A request. Files, declarations and plans are given by position. -/
inductive Step where
  /-- A pass over the program. -/
  | generate (token : TokenChoice)
  /-- The plan for one declaration, whether it is worth reading or not. -/
  | plan (file declaration : Nat) (token : TokenChoice)
  /-- The files for plans made before. -/
  | emit (plans : List Nat)
  /-- Other source files for the program. -/
  | setFiles (files : List SourceFile)
  | lookup (name : String)
  /-- Which declarations are worth reading. -/
  | candidates
  /-- Which symbols qualify. -/
  | accepts
  | markerFile
  | rendering
  /-- Cancel the shared token. -/
  | cancel
  | log (step : Log.Step)

/-- An answer. -/
inductive Answer where
  | report (r : Report)
  | plan (p : Plan)
  | files (fs : List GeneratedFile)
  | program (c : Compilation)
  | symbol (s : Option Symbol)
  /-- Of each file, for each declaration. -/
  | candidates (byFile : List (List Bool))
  /-- For each symbol. -/
  | accepts (bySymbol : List Bool)
  | file (f : GeneratedFile)
  | rendering (strategy : Strategy) (r : Rendering)
  | cancelled
  | log (a : Log.Answer)
  | fault (f : Fault)
  /-- There is no such file or declaration. -/
  | absent

/-- The token a request is made under. -/
def tokenFor (s : Session) : TokenChoice → Token
  | .own token => token
  | .shared => s.token

/-- The shared token when a request has left the token that it was made under. -/
def tokenAfter (s : Session) (left : Token) : TokenChoice → Token
  | .own _ => s.token
  | .shared => left

/-- The session with the records that a script has logged, and with the token as it left it. -/
def settled {α : Type} (s : Session) (choice : TokenChoice) (outcome : Script.Outcome α) :
    Session :=
  { s with
    log := s.log ++ outcome.log
    token := s.tokenAfter outcome.token choice }

/-- The session after a script has been run in it, and the script's result. -/
def perform {α : Type} (s : Session) (script : Script α) (choice : TokenChoice) :
    Session × Except Fault α :=
  let outcome := script.run s.compilation.lookup (s.tokenFor choice)
  (s.settled choice outcome, outcome.result)

/-- The declaration at a position of the file at a position, with its file. -/
def declaration? (s : Session) (file declaration : Nat) : Option (SourceFile × Declaration) :=
  s.compilation.files[file]?.bind fun f =>
    f.declarations[declaration]?.map fun d => (f, d)

/-- The session after a request, and its answer. -/
def step (s : Session) : Step → Session × Answer
  | .generate choice =>
    match s.perform (s.generator.generate s.compilation.declarations) choice with
    | (next, .ok report) => (next, .report report)
    | (next, .error fault) => (next, .fault fault)
  | .plan file declaration choice =>
    match s.declaration? file declaration with
    | none => (s, .absent)
    | some (f, d) =>
      match s.perform (s.generator.plan d f) choice with
      | (next, .ok plan) => ({ next with plans := next.plans ++ [plan] }, .plan plan)
      | (next, .error fault) => (next, .fault fault)
  | .emit positions =>
    match s.perform (s.generator.emit (positions.filterMap (s.plans[·]?))) (.own .idle) with
    | (next, .ok files) => (next, .files files)
    | (next, .error fault) => (next, .fault fault)
  | .setFiles files =>
    let program := s.compilation.withFiles files
    ({ s with compilation := program }, .program program)
  | .lookup name => (s, .symbol (s.compilation.lookup name))
  | .candidates =>
    (s, .candidates (s.compilation.files.map fun f =>
      f.declarations.map s.generator.isCandidate))
  | .accepts => (s, .accepts (s.compilation.symbols.map s.generator.accepts))
  | .markerFile => (s, .file s.generator.markerFile)
  | .rendering => (s, .rendering s.generator.strategy s.generator.rendering)
  | .cancel => ({ s with token := s.token.cancel }, .cancelled)
  | .log step =>
    let (log, answer) := s.log.step step
    ({ s with log := log }, .log answer)

/-- The session after the requests, and their answers in order. -/
def steps (s : Session) : List Step → Session × List Answer
  | [] => (s, [])
  | step :: rest =>
    let (next, answer) := s.step step
    let (last, answers) := next.steps rest
    (last, answer :: answers)

end Session

end PropertyWeaver
