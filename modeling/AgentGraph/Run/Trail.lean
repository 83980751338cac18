import AgentGraph.Chat.Call
import AgentGraph.Run.Event

/-!
# What a run leaves behind

While a run goes on it fills a `Trail`: the events it sends, its log, the nodes it starts, the edges
it takes and the calls it makes. Every entry of the log is also an event, and so are the nodes
started and the edges taken; the lists are kept apart because they are reported apart.
-/

namespace AgentGraph

/-- What sets a run apart from another run of the same workflow for the same user: its identifier,
and the times at which the entries of its log are made. -/
structure Occasion where
  runId : Uuid
  /-- The time of the entry with a given place in the log. -/
  clock : Nat → UInt64

/-- The traces of a run, in the order they were made. -/
structure Trail where
  events : Array Event
  log : Array LogEntry
  visited : Array String
  traversed : Array String
  calls : Array Call
deriving DecidableEq, Repr

namespace Trail

def empty : Trail := ⟨#[], #[], #[], #[], #[]⟩

/-- Send an event. -/
def emit (t : Trail) (e : Event) : Trail := { t with events := t.events.push e }

/-- Add an entry to the log and send it. -/
def enter (t : Trail) (entry : LogEntry) : Trail :=
  { t.emit (.log entry) with log := t.log.push entry }

/-- A node is started. -/
def visit (t : Trail) (nodeId : String) : Trail :=
  { t.emit (.nodeStarted nodeId) with visited := t.visited.push nodeId }

/-- An edge is taken. -/
def traverse (t : Trail) (edgeId : String) : Trail :=
  { t.emit (.edgeTraversed edgeId) with traversed := t.traversed.push edgeId }

/-- The model is called. -/
def call (t : Trail) (c : Call) : Trail := { t with calls := t.calls.push c }

end Trail

end AgentGraph
