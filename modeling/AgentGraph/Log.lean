import AgentGraph.Workflow.Format

/-!
# The log of a run

A log is a list of entries in the order they were made. It is for observers; no step of a run reads
it.
-/

namespace AgentGraph

open Json

/-- What an entry reports. -/
inductive LogKind where
  | info
  | output
  | error
  | user
deriving DecidableEq, Repr

namespace LogKind

def name : LogKind → String
  | info => "info"
  | output => "output"
  | error => "error"
  | user => "user"

def all : List LogKind := [info, output, error, user]

def format : Format LogKind := .names (all.map fun k => (k.name, k)) name

end LogKind

/-- One line of a log; `timestamp` is in milliseconds since the start of 1970. -/
structure LogEntry where
  timestamp : UInt64
  kind : LogKind
  message : String
  nodeId : Option String
deriving DecidableEq, Repr

namespace LogEntry

def format : Format LogEntry :=
  .record "LogEntry"
    (.cons "timestamp" (.word64 "u64") .required <| .cons "kind" LogKind.format .required <|
      .cons "message" .text .required <| .cons "node_id" optionalText .hiddenNone .nil)
    (fun (timestamp, kind, message, nodeId, _) => ⟨timestamp, kind, message, nodeId⟩)
    (fun e => (e.timestamp, e.kind, e.message, e.nodeId, ()))

end LogEntry

/-- The entries of a run, oldest first. -/
abbrev Log := List LogEntry

namespace Log

/-- The entries of one kind. -/
def ofKind (log : Log) (kind : LogKind) : Log := log.filter (·.kind = kind)

def format : Format Log := .list LogEntry.format

end Log

end AgentGraph
