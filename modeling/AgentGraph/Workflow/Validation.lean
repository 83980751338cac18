import AgentGraph.Workflow.Basic

/-!
# Which graphs can run

A graph can run when it has exactly one start node, when no two nodes and no two edges share an
identifier, and when every edge joins two of its nodes. `validateAll` lists everything that is
wrong, in that order; a graph is valid when the list is empty. Unreachable nodes are not wrong.
-/

namespace AgentGraph

/-- What makes a graph unfit to run. -/
inductive ValidationError where
  | startCount (count : Nat)
  | danglingEdge (edgeId nodeId : String)
  | duplicateNode (id : String)
  | duplicateEdge (id : String)
deriving DecidableEq, Repr

def ValidationError.message : ValidationError → String
  | startCount count => s!"Workflow must have exactly one start node (found {count})"
  | danglingEdge edgeId nodeId => s!"Edge {edgeId} references missing node {nodeId}"
  | duplicateNode id => s!"Duplicate node id: {id}"
  | duplicateEdge id => s!"Duplicate edge id: {id}"

/-- The members of a list that are equal to an earlier one, or to one already seen. -/
def repeated : (seen : List String) → List String → List String
  | _, [] => []
  | seen, id :: ids => if id ∈ seen then id :: repeated seen ids else repeated (id :: seen) ids

/-- The ends of an edge that are no nodes, the source first. -/
def danglingEnds (nodeIds : List String) (e : Edge) : List ValidationError :=
  ([e.source, e.target].filter (· ∉ nodeIds)).map (.danglingEdge e.id)

/-- The number of start nodes, unless it is one. -/
def startErrors (nodes : List Node) : List ValidationError :=
  let count := nodes.countP (·.kind = .start)
  if count = 1 then [] else [.startCount count]

/-- Everything that makes a graph unfit to run. -/
def validateAll (nodes : List Node) (edges : List Edge) : List ValidationError :=
  startErrors nodes ++
    (repeated [] (nodes.map (·.id))).map .duplicateNode ++
    (repeated [] (edges.map (·.id))).map .duplicateEdge ++
    edges.flatMap (danglingEnds (nodes.map (·.id)))

/-- The first thing that makes a graph unfit to run. -/
def validate (nodes : List Node) (edges : List Edge) : Except ValidationError Unit :=
  match (validateAll nodes edges).head? with
  | some e => .error e
  | none => .ok ()

namespace Workflow

def problems (w : Workflow) : List ValidationError := validateAll w.nodes w.edges

/-- A workflow is valid when nothing makes it unfit to run. -/
def Valid (w : Workflow) : Prop := w.problems = []

instance (w : Workflow) : Decidable w.Valid := inferInstanceAs (Decidable (_ = _))

end Workflow

end AgentGraph
