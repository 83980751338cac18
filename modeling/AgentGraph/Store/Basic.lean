import AgentGraph.Causes
import AgentGraph.Instant
import AgentGraph.Log
import AgentGraph.Store.Files

/-!
# A store of workflows

A store keeps workflows and the logs of their runs in a directory. The workflow with an identifier
is in the file of that name under `workflows`, together with the time it was saved. The log of a run
is in a file named for the run, in a directory named for the workflow under `runs`; it has one line
for each entry.

Listing goes by what the files say and not by their names, and passes over files that cannot be
read.
-/

namespace AgentGraph

open Json

/-- A workflow with the time it was saved. -/
structure SavedWorkflow where
  savedAt : Instant
  workflow : Workflow
deriving DecidableEq, Repr

def SavedWorkflow.format : Format SavedWorkflow :=
  .record "SavedWorkflow"
    (.cons "saved_at" Instant.format .required <| .cons "workflow" Workflow.format .required .nil)
    (fun (savedAt, workflow, _) => ⟨savedAt, workflow⟩) (fun s => (s.savedAt, s.workflow, ()))

/-- A line of the list of saved workflows. -/
structure Summary where
  id : Uuid
  name : String
  savedAt : Instant
  nodeCount : Nat
deriving DecidableEq, Repr

def SavedWorkflow.summary (s : SavedWorkflow) : Summary :=
  ⟨s.workflow.id, s.workflow.name, s.savedAt, s.workflow.nodes.length⟩

/-- A store, known by the directory it is in. -/
structure Store where
  root : String
deriving DecidableEq, Repr

/-- A text that spells a path, continued by a name. -/
def joinPath (path name : String) : String :=
  if path.isEmpty || path.endsWith "/" then path ++ name else path ++ "/" ++ name

namespace Store

/-! ### The layout -/

def workflowsPath (s : Store) : String := joinPath s.root "workflows"

def workflowPath (s : Store) (id : Uuid) : String := joinPath s.workflowsPath s!"{id}.json"

def runsPath (s : Store) (workflowId : Uuid) : String :=
  joinPath (joinPath s.root "runs") workflowId.toString

def runPath (s : Store) (workflowId runId : Uuid) : String :=
  joinPath (s.runsPath workflowId) s!"{runId}.jsonl"

/-- A failed operation on a file, and what it was for. -/
def failing {α : Type} (reason : String) : Except FileError α → Except Causes α :=
  Except.mapError fun e => [reason, e.message]

/-! ### Workflows -/

/-- Read a saved workflow. -/
def readSaved (fs : Files) (path : String) : Except Causes SavedWorkflow := do
  let text ← failing s!"Failed to read {path}" (fs.find (.ofText path))
  (SavedWorkflow.format.ofText? text).mapError fun e => ["Failed to parse workflow file", e.message]

/-- Save a workflow under its identifier, in place of an older one. -/
def save (s : Store) (fs : Files) (now : Instant) (w : Workflow) : Except Causes Files := do
  let fs ← failing "Failed to create workflows directory"
    (fs.makeDirectories (.ofText s.workflowsPath))
  failing "Failed to write workflow file"
    (fs.write (.ofText (s.workflowPath w.id)) (SavedWorkflow.format.pretty ⟨now, w⟩))

/-- The workflow with an identifier. -/
def load (s : Store) (fs : Files) (id : Uuid) : Except Causes Workflow :=
  (readSaved fs (s.workflowPath id)).map (·.workflow)

/-- Delete a workflow; nothing is changed when there is none. -/
def delete (s : Store) (fs : Files) (id : Uuid) : Except Causes (Option Files) := do
  let path := Path.ofText (s.workflowPath id)
  if fs.isThere path then some <$> failing "Failed to delete workflow file" (fs.remove path)
  else return none

/-- Files with this ending may hold a workflow; a name that is nothing else is hidden. -/
def isWorkflowName (name : String) : Bool := name.endsWith ".json" && name ≠ ".json"

/-- The saved workflows, the latest first. -/
def list (s : Store) (fs : Files) : Except Causes (List Summary) := do
  let dir := Path.ofText s.workflowsPath
  if !fs.isThere dir then return []
  let names ← failing "Failed to read workflows directory" (fs.names dir)
  let saved := (names.filter isWorkflowName).filterMap fun name =>
    (readSaved fs (joinPath s.workflowsPath name)).toOption
  return (saved.map (·.summary)).mergeSort fun a b => b.savedAt.le a.savedAt

/-! ### Logs -/

/-- The lines of a log. -/
def logText (log : Log) : String := String.join (log.map fun e => LogEntry.format.compact e ++ "\n")

/-- Add entries to the log of a run. -/
def appendLog (s : Store) (fs : Files) (workflowId runId : Uuid) (log : Log) :
    Except Causes Files := do
  let fs ← failing "Failed to create run log directory"
    (fs.makeDirectories (.ofText (s.runsPath workflowId)))
  failing "Failed to open run log" (fs.append (.ofText (s.runPath workflowId runId)) (logText log))

end Store

end AgentGraph
