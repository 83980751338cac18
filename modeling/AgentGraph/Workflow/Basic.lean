import AgentGraph.Numeric.Binary
import AgentGraph.Text.Blank
import AgentGraph.Uuid

/-!
# Workflow graphs

A workflow is a directed graph. Its nodes do the work: a start node, generating nodes (`llm` and
`agent`), branching nodes (`condition` and `classifier`), and end nodes. Its edges say where the
work goes next, and an edge may carry a label naming the branch it stands for.

Nodes and edges are kept in the order they were added, because the first suitable edge is the one
that is followed. Nothing here requires a graph to make sense; that is what `Workflow.Validation` is
for.
-/

namespace AgentGraph

open Numeric

/-- Coordinates in an editor. They never influence a run. -/
structure Position where
  x : Single
  y : Single
deriving DecidableEq, Repr

namespace Position

def origin : Position := ⟨.zero, .zero⟩

/-- Numeric equality of both coordinates. -/
def numEq (p q : Position) : Bool := p.x.numEq q.x && p.y.numEq q.y

end Position

/-- How the branch of a condition is decided. -/
inductive Operator where
  | contains
  | equals
  | notEmpty
  | empty
  | greater
  | less
deriving DecidableEq, Repr

/-- A generation step of its own. The instruction may hold placeholders. -/
structure LlmParams where
  systemInstruction : String
  model : Option String
  temperature : Option Single
deriving DecidableEq, Repr

/-- A generation step run as a registered persona. -/
structure AgentParams where
  agentId : Option String
  model : Option String
  temperature : Option Single
deriving DecidableEq, Repr

/-- A two-way branch: the variable's value is compared with a text. -/
structure ConditionParams where
  variableName : String
  operator : Operator
  value : String
deriving DecidableEq, Repr

/-- A branch by intent. The intents stand in order of priority, and the first one is the
fallback. -/
structure ClassifierParams where
  intents : List String
  instruction : String
  model : Option String
deriving DecidableEq, Repr

/-- What a node does. -/
inductive NodeData where
  | start
  | llm (params : LlmParams)
  | agent (params : AgentParams)
  | condition (params : ConditionParams)
  | classifier (params : ClassifierParams)
  | finish
deriving DecidableEq, Repr

/-- The kind of a node. -/
inductive NodeKind where
  | start
  | llm
  | agent
  | condition
  | classifier
  | finish
deriving DecidableEq, Repr

namespace LlmParams

def default : LlmParams where
  systemInstruction :=
    "You are a helpful assistant.\n\nPrevious step output: \x7b\x7bcontext\x7d\x7d"
  model := none
  temperature := some (Binary.round false 7 10 0)

end LlmParams

namespace AgentParams

def default : AgentParams := ⟨none, none, none⟩

end AgentParams

namespace ConditionParams

def default : ConditionParams := ⟨"input", .contains, ""⟩

end ConditionParams

namespace ClassifierParams

def default : ClassifierParams where
  intents := ["Sales", "Support", "General"]
  instruction := "Classify the user's message by intent."
  model := none

end ClassifierParams

namespace NodeKind

/-- The name shown for a node without a name of its own. -/
def displayName : NodeKind → String
  | start => "Start"
  | llm => "LLM"
  | agent => "Agent"
  | condition => "Condition"
  | classifier => "Classifier"
  | finish => "End"

/-- What a new node of the kind does. -/
def defaultData : NodeKind → NodeData
  | start => .start
  | llm => .llm .default
  | agent => .agent .default
  | condition => .condition .default
  | classifier => .classifier .default
  | finish => .finish

end NodeKind

def NodeData.kind : NodeData → NodeKind
  | start => .start
  | llm _ => .llm
  | agent _ => .agent
  | condition _ => .condition
  | classifier _ => .classifier
  | finish => .finish

@[simp]
theorem NodeKind.kind_defaultData (k : NodeKind) : k.defaultData.kind = k := by
  cases k <;> rfl

/-- A step of a workflow. -/
structure Node where
  id : String
  name : String
  position : Position
  data : NodeData
deriving DecidableEq, Repr

namespace Node

def kind (n : Node) : NodeKind := n.data.kind

/-- The node's name, or that of its kind when it has none. -/
def label (n : Node) : String := if n.name.isEmpty then n.kind.displayName else n.name

end Node

/-- A connection between two nodes. -/
structure Edge where
  id : String
  source : String
  target : String
  label : Option String
deriving DecidableEq, Repr

/-- Does the edge join exactly these ends under exactly this label? -/
def Edge.connects (e : Edge) (source target : String) (label : Option String) : Bool :=
  e.source = source && e.target = target && e.label = label

/-- The two branches of a condition. -/
def trueLabel : String := "True"

def falseLabel : String := "False"

/-- Labels are stored without surrounding blanks, and a blank label counts as none. -/
def normalizeLabel (label : Option String) : Option String :=
  (label.map Text.trim).filter (!·.isEmpty)

/-- A named graph. -/
structure Workflow where
  id : Uuid
  name : String
  nodes : List Node
  edges : List Edge
deriving DecidableEq, Repr

namespace Workflow

def findNode? (w : Workflow) (id : String) : Option Node := w.nodes.find? (·.id = id)

def findEdge? (w : Workflow) (id : String) : Option Edge := w.edges.find? (·.id = id)

/-- The edges that leave a node, in order. -/
def outgoing (w : Workflow) (id : String) : List Edge := w.edges.filter (·.source = id)

/-- The edges that enter a node, in order. -/
def incoming (w : Workflow) (id : String) : List Edge := w.edges.filter (·.target = id)

/-- The start node, when there is exactly one. -/
def startNode? (w : Workflow) : Option Node :=
  match w.nodes.filter (·.kind = .start) with
  | [n] => some n
  | _ => none

/-- The edge taken out of a node: for a branch the first one whose label agrees up to surrounding
blanks, without a branch the first one. -/
def follow? (w : Workflow) (id : String) (branch : Option String) : Option Edge :=
  match branch with
  | some label => (w.outgoing id).find? fun e => e.label.map Text.trim = some (Text.trim label)
  | none => (w.outgoing id).head?

end Workflow

end AgentGraph
