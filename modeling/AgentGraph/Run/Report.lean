import AgentGraph.Log

/-!
# How a run ends

A run that starts always ends in a `Report`; failures of single steps, dead ends, stops and the
ceiling on steps are ways to end, not errors.
-/

namespace AgentGraph

open Json

/-- The bounds of a run: how many steps it may take, and how many milliseconds one step may take. -/
structure Limits where
  maxSteps : UInt64
  stepTimeoutMs : UInt64
deriving DecidableEq, Repr

namespace Limits

def default : Limits := ⟨64, 60000⟩

def format : Format Limits :=
  .record "ExecutorConfig"
    (.cons "max_steps" (.word64 "usize") (.default default.maxSteps) <|
      .cons "step_timeout_ms" (.word64 "u64") (.default default.stepTimeoutMs) .nil)
    (fun (maxSteps, stepTimeoutMs, _) => ⟨maxSteps, stepTimeoutMs⟩)
    (fun l => (l.maxSteps, l.stepTimeoutMs, ()))

end Limits

/-- Why a run halted. -/
inductive RunStatus where
  /-- An end node ran. -/
  | completed
  /-- No edge led on from the node. -/
  | deadEnd (nodeId : String)
  /-- The step at the node failed. -/
  | failed (nodeId : String) (error : String)
  /-- A stop was asked for. -/
  | stopped
  /-- The ceiling on steps was reached. -/
  | stepLimit (maxSteps : UInt64)
deriving DecidableEq, Repr

namespace RunStatus

def format : Format RunStatus :=
  .tagged "RunStatus" "status" <|
    .bare "completed" .completed (· = .completed) <|
    .fields "dead_end" "struct variant RunStatus::DeadEnd" (.cons "node_id" .text .required .nil)
      (fun (id, _) => .deadEnd id)
      (fun | .deadEnd id => some (id, ()) | _ => none) <|
    .fields "failed" "struct variant RunStatus::Failed"
      (.cons "node_id" .text .required <| .cons "error" .text .required .nil)
      (fun (id, error, _) => .failed id error)
      (fun | .failed id error => some (id, error, ()) | _ => none) <|
    .bare "stopped" .stopped (· = .stopped) <|
    .fields "step_limit" "struct variant RunStatus::StepLimit"
      (.cons "max_steps" (.word64 "usize") .required .nil)
      (fun (n, _) => .stepLimit n)
      (fun | .stepLimit n => some (n, ()) | _ => none) .nil

end RunStatus

/-- The account of a finished run. -/
structure Report where
  runId : Uuid
  status : RunStatus
  output : Option String
  log : Log
  visitedNodes : List String
  traversedEdges : List String
deriving DecidableEq, Repr

namespace Report

def isCompleted (r : Report) : Bool := r.status = .completed

def format : Format Report :=
  .record "RunReport"
    (.cons "run_id" Uuid.format .required <| .cons "status" RunStatus.format .required <|
      .cons "output" optionalText .optional <| .cons "log" Log.format .required <|
      .cons "visited_nodes" (.list .text) .required <|
      .cons "traversed_edges" (.list .text) .required .nil)
    (fun (runId, status, output, log, visited, traversed, _) =>
      ⟨runId, status, output, log, visited, traversed⟩)
    (fun r => (r.runId, r.status, r.output, r.log, r.visitedNodes, r.traversedEdges, ()))

end Report

end AgentGraph
