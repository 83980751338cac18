import AgentGraph.Text.Quoted
import AgentGraph.Workflow.Basic

/-!
# Warnings for authors

A workflow may be valid and still not do what its author wants: a node that is never reached, a node
where a run gets stuck, a branch without an edge. `Workflow.lint` lists such things node by node.
Warnings never keep a workflow from running.

Warnings name a node by its label, and they compare the labels of edges exactly.
-/

namespace AgentGraph

/-- What an author should know. `node` is the label of the node concerned. -/
inductive LintWarning where
  | unreachable (node : String)
  | deadEnd (node : String)
  | edgeFromEnd (node : String)
  | edgeIntoStart (node : String)
  | missingBranch (node label : String)
  | redundantBranch (node : String) (label : Option String)
deriving DecidableEq, Repr

namespace LintWarning

/-- An optional label as messages show it. -/
def showLabel : Option String → String
  | some label => s!"Some({Text.quoted label})"
  | none => "None"

def message : LintWarning → String
  | unreachable node => s!"Node '{node}' is not reachable from the start node"
  | deadEnd node => s!"Node '{node}' has no outgoing edge; the run stops there"
  | edgeFromEnd node => s!"End node '{node}' has outgoing edges that are never followed"
  | edgeIntoStart node => s!"Start node '{node}' has incoming edges"
  | missingBranch node label => s!"Node '{node}' has no edge for branch '{label}'"
  | redundantBranch node label =>
    s!"Node '{node}' has more than one edge labeled {showLabel label}; only the first is taken"

end LintWarning

namespace Workflow

/-- Note a node that was not seen before, and queue it. -/
def discover (known : List String × List String) (id : String) : List String × List String :=
  let (seen, queue) := known
  if id ∈ seen then known else (seen ++ [id], queue ++ [id])

/-- Walk breadth first from the queued nodes; every node is queued once, so `fuel` bounds their
number. -/
def walk (edges : List Edge) : (fuel : Nat) → (seen queue : List String) → List String
  | 0, seen, _ => seen
  | _ + 1, seen, [] => seen
  | fuel + 1, seen, current :: queue =>
    let (seen, queue) :=
      ((edges.filter (·.source = current)).map (·.target)).foldl discover (seen, queue)
    walk edges fuel seen queue

/-- The nodes that can be reached from the start node, when there is exactly one. -/
def reachable? (w : Workflow) : Option (List String) :=
  w.startNode?.map fun start => walk w.edges (w.edges.length + 1) [start.id] [start.id]

/-- Labels in order, no label first. -/
def labelLe (a b : Option String) : Bool :=
  match a, b with
  | none, _ => true
  | some _, none => false
  | some a, some b => !(b < a)

/-- The labels that more than one of the edges carries. -/
def redundantLabels (edges : List Edge) : List (Option String) :=
  let labels := edges.map (·.label)
  ((labels.filter fun l => 1 < labels.count l).eraseDups).mergeSort labelLe

/-- The branches a node may choose. -/
def branchLabels : NodeData → List String
  | .condition _ => [trueLabel, falseLabel]
  | .classifier params => params.intents
  | _ => []

/-- What an author should know about one node. -/
def lintNode (w : Workflow) (reachable : Option (List String)) (n : Node) : List LintWarning :=
  let outgoing := w.outgoing n.id
  let unreached := if reachable.any (n.id ∉ ·) then [LintWarning.unreachable n.label] else []
  match n.data with
  | .finish => unreached ++ if outgoing.isEmpty then [] else [.edgeFromEnd n.label]
  | data =>
    let entered := if data = .start ∧ w.incoming n.id ≠ [] then [.edgeIntoStart n.label] else []
    let missing := (branchLabels data).filter fun label => !outgoing.any (·.label = some label)
    let stuck := if outgoing.isEmpty then [.deadEnd n.label] else []
    unreached ++ entered ++ missing.map (.missingBranch n.label) ++ stuck ++
      (redundantLabels outgoing).map (.redundantBranch n.label)

/-- What an author should know, node by node. -/
def lint (w : Workflow) : List LintWarning := w.nodes.flatMap (w.lintNode w.reachable?)

end Workflow

end AgentGraph
