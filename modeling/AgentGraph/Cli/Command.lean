import AgentGraph.Chat.Client
import AgentGraph.Cli.Reading
import AgentGraph.Context
import AgentGraph.Run.Report

/-!
# The commands of the program

The program checks, runs, proposes, saves and lists workflows. `programSpec` describes its command
line, and `Invocation.read` reads one as a `Command`.
-/

namespace AgentGraph.Cli

/-! ### What can be asked for -/

/-- One thing to do. -/
inductive Command where
  | validate (workflow : String)
  | run (workflow : String) (input : String) (profile : Profile) (agents store : Option String)
      (limits : Limits) (client : Client)
  | synthesize (description language : String) (out : Option String) (client : Client)
  | save (workflow store : String)
  | list (store : String)

/-- The files that a command names, and the directories in which it looks for others. -/
def Command.places : Command → List String × List String
  | validate workflow => ([workflow], [])
  | run workflow _ _ agents store _ _ => (workflow :: agents.toList, store.toList)
  | synthesize _ _ out _ => (out.toList, [])
  | save workflow store => ([workflow], [store])
  | list store => ([], [store])

/-- A command with the directory for the logs of the program. -/
structure Invocation where
  logDir : Option String
  command : Command

/-! ### The command line -/

def logDirOption : Argument :=
  .option "log-dir" "LOG_DIR" "Also write JSON logs to this directory, rotated daily" .path

def workflowFile (about : String) : Argument := .positional "WORKFLOW" about .path

/-- A workflow that is run is a file or, where there is a store, an identifier. -/
def workflowReference : Argument :=
  .positional "WORKFLOW" "Workflow JSON file, or a saved workflow id (with --store)" .text

def descriptionText : Argument := .positional "DESCRIPTION" "" .text

def inputOption : Argument :=
  { Argument.option "input" "INPUT" "The triggering message" .text with
    short := some 'i', required := true }

def profileOption : Argument :=
  { Argument.option "profile" "KEY=VALUE" "User profile entry, repeatable" .entry with
    short := some 'p', repeatable := true }

def agentsOption : Argument :=
  .option "agents" "AGENTS" "JSON file with a list of agent personas" .path

def runStoreOption : Argument :=
  .option "store" "STORE" "Store directory; the run log is appended under it" .path

def storeOption : Argument :=
  { Argument.option "store" "STORE" "" .path with byDefault := some ".agentweave" }

def maxStepsOption : Argument :=
  { Argument.option "max-steps" "MAX_STEPS" "" .number with
    byDefault := some (toString Limits.default.maxSteps) }

def stepTimeoutOption : Argument :=
  { Argument.option "step-timeout-ms" "STEP_TIMEOUT_MS" "" .number with
    byDefault := some (toString Limits.default.stepTimeoutMs) }

def languageOption : Argument :=
  { Argument.option "language" "LANGUAGE" "Language for node names and instructions" .text with
    byDefault := some "English" }

def outOption : Argument :=
  { Argument.option "out" "OUT" "Write the workflow here instead of printing it" .path with
    short := some 'o' }

def baseUrlOption : Argument :=
  { Argument.option "base-url" "BASE_URL" "OpenAI-compatible endpoint" .text with
    surroundings := some ⟨"AGENTWEAVE_BASE_URL", false⟩ }

def modelOption : Argument :=
  { Argument.option "model" "MODEL" "" .text with surroundings := some ⟨"AGENTWEAVE_MODEL", false⟩ }

def apiKeyOption : Argument :=
  { Argument.option "api-key" "API_KEY" "" .text with
    surroundings := some ⟨"AGENTWEAVE_API_KEY", true⟩ }

def programSpec : ProgramSpec where
  name := "agentweave"
  version := "0.1.0"
  about := "Run and author LLM agent workflows"
  shared := [logDirOption]
  commands := [
    ⟨"validate", "Check a workflow for structural errors and authoring warnings",
      [workflowFile "Workflow JSON file"]⟩,
    ⟨"run", "Execute a workflow once",
      [workflowReference, inputOption, profileOption, agentsOption, runStoreOption, maxStepsOption,
        stepTimeoutOption, baseUrlOption, modelOption, apiKeyOption]⟩,
    ⟨"synthesize", "Propose a workflow graph from a description",
      [descriptionText, languageOption, outOption, baseUrlOption, modelOption, apiKeyOption]⟩,
    ⟨"save", "Save a workflow file into the store and print its id",
      [workflowFile "", storeOption]⟩,
    ⟨"list", "List saved workflows", [storeOption]⟩]

/-! ### Reading it -/

/-- The client that the options ask for; what they leave open has its default, and there is no
key. -/
def clientOf (value : Argument → Option String) : Client :=
  { Client.default with
    baseUrl := (value baseUrlOption).getD Client.default.baseUrl
    model := (value modelOption).getD Client.default.model
    apiKey := value apiKeyOption }

/-- The number given for an option. -/
def wordOf (value : Argument → Option String) (a : Argument) : UInt64 :=
  .ofNat (((value a).bind fun s => (number s).toOption).getD 0)

/-- The command that the given values stand for. -/
def commandOf (name : String) (given : Given) (value : Argument → Option String) : Command :=
  let text (a : Argument) : String := (value a).getD ""
  match name with
  | "validate" => .validate (text (workflowFile ""))
  | "run" =>
    let profile :=
      Profile.ofList ((given.all profileOption.key).filterMap fun s => (entry s).toOption)
    .run (text workflowReference) (text inputOption) profile (value agentsOption)
      (value runStoreOption)
      ⟨wordOf value maxStepsOption, wordOf value stepTimeoutOption⟩ (clientOf value)
  | "synthesize" =>
    .synthesize (text descriptionText) (text languageOption) (value outOption) (clientOf value)
  | "save" => .save (text (workflowFile "")) (text storeOption)
  | _ => .list (text storeOption)

/-- Read a command line; the surroundings give values to some options that are left out. -/
def Invocation.read (surroundings : List (String × String)) (words : List String) :
    Except Halt Invocation := do
  let (name, given) ← Cli.read programSpec words
  let value := valueOf surroundings given
  return ⟨value logDirOption, commandOf name given value⟩

end AgentGraph.Cli
