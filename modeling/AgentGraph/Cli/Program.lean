import AgentGraph.Cli.Command
import AgentGraph.Cli.Page
import AgentGraph.Run.Executor
import AgentGraph.Store.Basic
import AgentGraph.Synthesis.Conversation
import AgentGraph.Workflow.Lint

/-!
# Running the program

`run` is the whole program as a function: from the command line and what it finds in its
`Surroundings` to what it prints, the files it leaves and its exit code. The code is 0 for success,
1 for a command that fails, and 2 for a command line that cannot be read.
-/

namespace AgentGraph.Cli

/-- What a run of the program finds. -/
structure Surroundings where
  environment : List (String × String)
  files : Files
  now : Instant
  clock : Nat → UInt64
  /-- A supply of new identifiers. -/
  mint : Nat → Uuid
  /-- How requests are answered. -/
  post : Http.Request → Http.Exchange

/-- What a command does: the lines it prints, the files it leaves, and why it fails if it does. -/
structure Effect where
  lines : List String
  files : Files
  failure : Option Causes

namespace Effect

def success (lines : List String) (files : Files) : Effect := ⟨lines, files, none⟩

def failing (lines : List String) (files : Files) (causes : Causes) : Effect :=
  ⟨lines, files, some causes⟩

/-- Nothing but a failure where there is one. -/
def orFail (files : Files) : Except Causes Effect → Effect
  | .ok e => e
  | .error causes => failing [] files causes

end Effect

/-! ### Files -/

/-- The text of a file. -/
def readText (fs : Files) (path : String) : Except Causes String :=
  Store.failing s!"Failed to read {path}" (fs.find (.ofText path))

/-- The workflow in a file. -/
def readWorkflow (fs : Files) (path : String) : Except Causes Workflow := do
  let text ← readText fs path
  (Workflow.format.ofText? text).mapError fun e => [s!"Failed to parse {path}", e.message]

/-- The personas in a file. -/
def readAgents (fs : Files) (path : String) : Except Causes Registry := do
  let text ← readText fs path
  let agents ← (Json.Format.list AgentDefinition.format).ofText? text |>.mapError fun e =>
    ["Failed to parse agent definitions", e.message]
  return .ofList agents

/-- A saved workflow, where there is a store and the reference is an identifier, else one in a
file. -/
def resolveWorkflow (fs : Files) (reference : String) (store : Option String) :
    Except Causes Workflow :=
  match store, Uuid.ofText? reference with
  | some root, some id => Store.load ⟨root⟩ fs id
  | _, _ => readWorkflow fs reference

/-! ### Commands -/

def errorLines (w : Workflow) : List String := w.problems.map fun e => s!"error: {e.message}"

def warningLines (w : Workflow) : List String := w.lint.map fun l => s!"warning: {l.message}"

/-- Check a workflow. -/
def validateFile (fs : Files) (path : String) : Except Causes Effect := do
  let w ← readWorkflow fs path
  let lines := errorLines w ++ warningLines w
  if w.problems.isEmpty then
    return .success
      (lines ++ [s!"{w.name}: ok ({w.nodes.length} nodes, {w.edges.length} edges)"]) fs
  return .failing lines fs [s!"{path} has {w.problems.length} error(s)"]

/-- The reasons why no run begins. -/
def refusal (e : EngineError) : Causes :=
  match e with
  | .invalidGraph reason => [e.message, reason.message]
  | .alreadyRunning => [e.message]

/-- What a status means to the caller of the program. -/
def failureOf : RunStatus → Option Causes
  | .completed | .deadEnd _ | .stopped => none
  | .failed nodeId error => some [s!"Node {nodeId} failed: {error}"]
  | .stepLimit n => some [s!"Run exceeded {n} steps"]

/-- A model that is reached through a client, and nobody who asks for a stop. -/
def clientEnvironment (client : Client) (post : Http.Request → Http.Exchange) :
    Environment Unit where
  ask _ call := (some (.reply (client.reply post call)), ())
  stop _ := (false, ())

/-- Run a workflow once, keep its log where there is a store, and print the report. -/
def runWorkflow (s : Surroundings) (fs : Files) (reference : String) (task : Executor.Task)
    (agents store : Option String) (limits : Limits) (client : Client) : Except Causes Effect := do
  let w ← resolveWorkflow fs reference store
  let registry ← match agents with
    | some path => readAgents fs path
    | none => pure .empty
  let x : Executor := ⟨w, registry, limits, client.model⟩
  let attempt := x.run (clientEnvironment client s.post) .idle ⟨s.mint 0, s.clock⟩ task ()
  match attempt.result with
  | .error e => throw (refusal e)
  | .ok none => return .success [] fs
  | .ok (some report) =>
    let fs ← match store with
      | some root => Store.appendLog ⟨root⟩ fs w.id report.runId report.log
      | none => pure fs
    return ⟨[Report.format.pretty report], fs, failureOf report.status⟩

/-- Propose a workflow, and write it to a file or print it. -/
def synthesizeWorkflow (s : Surroundings) (fs : Files) (description language : String)
    (out : Option String) (client : Client) : Except Causes Effect := do
  let ask (_ : Unit) (call : Call) : Reply × Unit := (client.reply s.post call, ())
  let mint (corrections place : Nat) : Uuid :=
    s.mint (place * (Synthesis.maxCorrections + 1) + corrections + 1)
  let r := Synthesis.synthesize ask mint description language ()
  let proposal ← r.result.mapError Synthesis.SynthesisError.causes
  let w ← (proposal.install (.empty (s.mint 0) proposal.name)).mapError fun e =>
    ["Synthesized graph failed validation", e.message]
  let text := Workflow.format.pretty w
  match out with
  | some path =>
    return .success [] (← Store.failing s!"Failed to write {path}" (fs.write (.ofText path) text))
  | none => return .success [text] fs

/-- Save a workflow that is valid, and print its identifier. -/
def saveWorkflow (s : Surroundings) (fs : Files) (path store : String) : Except Causes Effect := do
  let w ← readWorkflow fs path
  if w.problems.isEmpty then
    return .success [w.id.toString] (← Store.save ⟨store⟩ fs s.now w)
  return .failing (errorLines w) fs [s!"Refusing to save {path}: {w.problems.length} error(s)"]

/-- The line for a saved workflow. -/
def summaryLine (s : Summary) : String :=
  s!"{s.id}  {s.name}  {s.nodeCount} nodes  saved {s.savedAt.shortText}"

/-- List the saved workflows. -/
def listWorkflows (fs : Files) (store : String) : Except Causes Effect := do
  return .success ((← Store.list ⟨store⟩ fs).map summaryLine) fs

/-- Do what a command asks for. -/
def perform (s : Surroundings) (fs : Files) : Command → Effect
  | .validate workflow => .orFail fs (validateFile fs workflow)
  | .run workflow input profile agents store limits client =>
    .orFail fs (runWorkflow s fs workflow ⟨input, profile⟩ agents store limits client)
  | .synthesize description language out client =>
    .orFail fs (synthesizeWorkflow s fs description language out client)
  | .save workflow store => .orFail fs (saveWorkflow s fs workflow store)
  | .list store => .orFail fs (listWorkflows fs store)

/-! ### The program -/

/-- What a run of the program comes to. -/
structure Exit where
  code : UInt32
  out : String
  err : String
  files : Files

/-- The directory for the logs of the program is made before anything else. -/
def makeLogDir (fs : Files) : Option String → Except Causes Files
  | none => .ok fs
  | some dir => Store.failing "Failed to create log directory" (fs.makeDirectories (.ofText dir))

/-- The exit of a command. -/
def exitOf (e : Effect) : Exit :=
  let out := String.join (e.lines.map (· ++ "\n"))
  match e.failure with
  | none => ⟨0, out, "", e.files⟩
  | some causes => ⟨1, out, "Error: " ++ causes.report ++ "\n", e.files⟩

/-- The exit when no command is run. -/
def exitAtHalt (s : Surroundings) : Halt → Exit
  | .help name => ⟨0, pageFor programSpec s.environment name, "", s.files⟩
  | .version => ⟨0, programSpec.name ++ " " ++ programSpec.version ++ "\n", "", s.files⟩
  | .nothing => ⟨2, "", programSpec.page s.environment, s.files⟩
  | .error e =>
    ⟨2, "", "error: " ++ e.message ++ "\n\nFor more information, try '--help'.\n", s.files⟩

/-- Run the program. -/
def run (s : Surroundings) (words : List String) : Exit :=
  match Invocation.read s.environment words with
  | .error h => exitAtHalt s h
  | .ok invocation =>
    match makeLogDir s.files invocation.logDir with
    | .error causes => exitOf (.failing [] s.files causes)
    | .ok fs => exitOf (perform s fs invocation.command)

end AgentGraph.Cli
