import AgentGraph.Workflow.Validation

/-!
# Editing a workflow

Each operation gives the edited workflow, or nothing when it refuses; a refusal leaves nothing to
undo. Operations that add a node or an edge are given the identifier it gets.

Adding an edge keeps the graph sensible: no edge joins a node to itself, enters a start node or
leaves an end node, and no two edges agree in source, target and label. Removing a node removes its
edges with it. Replacing the whole graph requires the new one to be valid.
-/

namespace AgentGraph

/-- Change the first member satisfying `p`, if there is one. -/
def updateFirst {α : Type} (p : α → Bool) (f : α → α) : List α → Option (List α)
  | [] => none
  | a :: as => if p a then some (f a :: as) else (updateFirst p f as).map (a :: ·)

namespace Workflow

/-- A workflow without nodes. -/
def empty (id : Uuid) (name : String) : Workflow := ⟨id, name, [], []⟩

/-- The name of a workflow that was given none. -/
def defaultName : String := "New Workflow"

/-- A new node of a kind, named for the kind. -/
def newNode (id : Uuid) (kind : NodeKind) (position : Position) : Node :=
  ⟨id.toString, kind.displayName, position, kind.defaultData⟩

/-- Add a new node of a kind. -/
def addNode (w : Workflow) (id : Uuid) (kind : NodeKind) (position : Position) : Workflow :=
  { w with nodes := w.nodes ++ [newNode id kind position] }

/-- Add a node, unless its identifier is taken. -/
def insertNode (w : Workflow) (n : Node) : Option Workflow :=
  if (w.findNode? n.id).isSome then none else some { w with nodes := w.nodes ++ [n] }

/-- The edge that would join two nodes, unless they cannot be joined. -/
def newEdge? (w : Workflow) (id : Uuid) (source target : String) (label : Option String) :
    Option Edge := do
  if source = target then failure
  let s ← w.findNode? source
  let t ← w.findNode? target
  if s.kind = .finish ∨ t.kind = .start then failure
  let label := normalizeLabel label
  if w.edges.any (·.connects source target label) then failure
  return ⟨id.toString, source, target, label⟩

/-- Join two nodes. -/
def addEdge (w : Workflow) (id : Uuid) (source target : String) (label : Option String) :
    Option Workflow :=
  (w.newEdge? id source target label).map fun e => { w with edges := w.edges ++ [e] }

/-- Remove a node and its edges. -/
def removeNode (w : Workflow) (id : String) : Option Workflow :=
  if w.nodes.any (·.id = id) then
    some { w with
      nodes := w.nodes.filter (·.id ≠ id)
      edges := w.edges.filter fun e => e.source ≠ id && e.target ≠ id }
  else none

/-- Remove an edge. -/
def removeEdge (w : Workflow) (id : String) : Option Workflow :=
  if w.edges.any (·.id = id) then some { w with edges := w.edges.filter (·.id ≠ id) } else none

/-- Change the label of an edge, unless another edge already joins the same nodes under it. -/
def relabelEdge (w : Workflow) (id : String) (label : Option String) : Option Workflow := do
  let label := normalizeLabel label
  let e ← w.findEdge? id
  if w.edges.any fun other => other.id ≠ id && other.connects e.source e.target label then failure
  let edges ← updateFirst (·.id = id) (fun e => { e with label }) w.edges
  return { w with edges }

/-- Change the first node with an identifier. -/
def updateNode (w : Workflow) (id : String) (f : Node → Node) : Option Workflow :=
  (updateFirst (·.id = id) f w.nodes).map fun nodes => { w with nodes }

def renameNode (w : Workflow) (id name : String) : Option Workflow :=
  w.updateNode id fun n => { n with name }

def moveNode (w : Workflow) (id : String) (position : Position) : Option Workflow :=
  w.updateNode id fun n => { n with position }

/-- Change what a node does, but not its kind. -/
def updateNodeData (w : Workflow) (id : String) (data : NodeData) : Option Workflow := do
  let n ← w.findNode? id
  if n.kind ≠ data.kind then failure
  w.updateNode id fun n => { n with data }

/-- Put a valid graph in place of the whole graph. -/
def replaceGraph (w : Workflow) (nodes : List Node) (edges : List Edge) :
    Except ValidationError Workflow := do
  validate nodes edges
  return { w with nodes, edges }

/-- A new workflow in which a start node leads straight to an end node. -/
def starter (id startId endId edgeId : Uuid) (name : String) : Workflow :=
  let at_ (x : Nat) : Position := ⟨.ofNat x, .ofNat 200⟩
  let w := ((empty id name).addNode startId .start (at_ 100)).addNode endId .finish (at_ 500)
  (w.addEdge edgeId startId.toString endId.toString none).getD w

end Workflow

/-- One operation of an author. -/
inductive Edit where
  | addNode (id : Uuid) (kind : NodeKind) (position : Position)
  | insertNode (node : Node)
  | addEdge (id : Uuid) (source target : String) (label : Option String)
  | removeNode (id : String)
  | removeEdge (id : String)
  | relabelEdge (id : String) (label : Option String)
  | renameNode (id name : String)
  | moveNode (id : String) (position : Position)
  | updateNodeData (id : String) (data : NodeData)
  | replaceGraph (nodes : List Node) (edges : List Edge)
deriving DecidableEq, Repr

namespace Edit

/-- The edited workflow, or nothing when the operation refuses. -/
def result? (w : Workflow) : Edit → Option Workflow
  | addNode id kind position => some (w.addNode id kind position)
  | insertNode node => w.insertNode node
  | addEdge id source target label => w.addEdge id source target label
  | removeNode id => w.removeNode id
  | removeEdge id => w.removeEdge id
  | relabelEdge id label => w.relabelEdge id label
  | renameNode id name => w.renameNode id name
  | moveNode id position => w.moveNode id position
  | updateNodeData id data => w.updateNodeData id data
  | replaceGraph nodes edges => (w.replaceGraph nodes edges).toOption

/-- The workflow after the operation: unchanged by a refusal. -/
def apply (w : Workflow) (e : Edit) : Workflow := (result? w e).getD w

/-- The workflow after a sequence of operations. -/
def applyAll (w : Workflow) (edits : List Edit) : Workflow := edits.foldl apply w

end Edit

end AgentGraph
