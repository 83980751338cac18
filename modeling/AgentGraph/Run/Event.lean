import AgentGraph.Run.Report

/-!
# What an executor tells its observers

An executor runs one workflow, at most once at a time. While it does, it sends events; they are
progress signals, and a run does not depend on anybody receiving them.
-/

namespace AgentGraph

open Json

/-- What an executor is doing: nothing yet, a run, or nothing any more. -/
inductive ExecutorState where
  | idle
  | running
  | halted
deriving DecidableEq, Repr

namespace ExecutorState

def name : ExecutorState → String
  | idle => "Idle"
  | running => "Running"
  | halted => "Halted"

def format : Format ExecutorState :=
  .names ([idle, running, halted].map fun s => (s.name, s)) name

end ExecutorState

/-- One event of a run. -/
inductive Event where
  | log (entry : LogEntry)
  | stateChanged (state : ExecutorState)
  | nodeStarted (id : String)
  | nodeCompleted (id : String)
  | nodeFailed (id : String) (error : String)
  | edgeTraversed (id : String)
  | workflowCompleted (status : RunStatus)
deriving DecidableEq, Repr

namespace Event

def format : Format Event :=
  .choice "ExecutorEvent" <|
    .one "Log" LogEntry.format .log (fun | .log e => some e | _ => none) <|
    .one "StateChanged" ExecutorState.format .stateChanged
      (fun | .stateChanged s => some s | _ => none) <|
    .one "NodeStarted" .text .nodeStarted (fun | .nodeStarted id => some id | _ => none) <|
    .one "NodeCompleted" .text .nodeCompleted (fun | .nodeCompleted id => some id | _ => none) <|
    .several "NodeFailed" "tuple variant ExecutorEvent::NodeFailed"
      (.cons "0" .text .required <| .cons "1" .text .required .nil)
      (fun (id, error, _) => .nodeFailed id error)
      (fun | .nodeFailed id error => some (id, error, ()) | _ => none) <|
    .one "EdgeTraversed" .text .edgeTraversed (fun | .edgeTraversed id => some id | _ => none) <|
    .one "WorkflowCompleted" RunStatus.format .workflowCompleted
      (fun | .workflowCompleted s => some s | _ => none) .nil

end Event

end AgentGraph
