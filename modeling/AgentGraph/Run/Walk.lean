import AgentGraph.Run.Action
import AgentGraph.Run.Trail

/-!
# A run under way

A `Walk` is a run between two of its steps: its context, the node that comes next, and the trail so
far. The functions here are the single moves of a run. Each of them leaves its mark on the trail,
and none of them decides what comes next; that is what `Run.Executor` is for.
-/

namespace AgentGraph

/-- The state of a run. -/
structure Walk where
  occasion : Occasion
  context : Context
  /-- The node that is run next. -/
  current : String
  trail : Trail

namespace Walk

/-- Send an event. -/
def emit (w : Walk) (e : Event) : Walk := { w with trail := w.trail.emit e }

/-- Make an entry in the log. -/
def record (w : Walk) (kind : LogKind) (message : String) (nodeId : Option String) : Walk :=
  { w with trail := w.trail.enter ⟨w.occasion.clock w.trail.log.size, kind, message, nodeId⟩ }

def info (w : Walk) (message : String) (nodeId : Option String) : Walk :=
  w.record .info message nodeId

/-! ### The beginning -/

/-- The run of a workflow, before its first step. -/
def start (occasion : Occasion) (workflowName startId input : String) (profile : Profile) : Walk :=
  (((⟨occasion, .start input profile, startId, .empty⟩ : Walk).emit (.stateChanged .running)).info
    s!"Starting run {occasion.runId} of '{workflowName}'" none).record .user input none

/-! ### A step -/

/-- The step at a node begins. -/
def enter (w : Walk) (n : Node) : Walk :=
  { w with trail := w.trail.visit n.id }.info
    s!"Executing node: {n.label} ({n.kind.displayName})" n.id

/-- The model is called. -/
def call (w : Walk) (c : Call) : Walk := { w with trail := w.trail.call c }

/-- The remarks of a step go into the log. -/
def remark (w : Walk) (n : Node) (notes : List String) : Walk :=
  notes.foldl (fun w note => w.info note n.id) w

/-- The result of a step goes into the log: the text of a generating node or an end node, the branch
of a branching node. -/
def tell (w : Walk) (n : Node) (o : Outcome) : Walk :=
  match n.kind with
  | .llm | .agent | .finish => o.text.elim w fun text => w.record .output text n.id
  | .condition | .classifier =>
    o.branch.elim w fun branch => w.info s!"{n.label} chose branch '{branch}'" n.id
  | .start => w

/-- The changes that a step asks for are made. -/
def change (w : Walk) (patch : Patch) : Walk := { w with context := w.context.apply patch }

/-- The step at a node has succeeded. -/
def accept (w : Walk) (n : Node) (o : Outcome) : Walk :=
  (((w.remark n o.notes).tell n o).change o.patch).emit (.nodeCompleted n.id)

/-- An edge is taken. -/
def follow (w : Walk) (e : Edge) : Walk :=
  { w with trail := w.trail.traverse e.id, current := e.target }

/-! ### The ways to end -/

/-- A stop was asked for between two steps. -/
def stopped (w : Walk) : Walk := w.info "Run stopped" none

/-- A stop was asked for during the step at a node: its result is forgotten. -/
def discarded (w : Walk) (n : Node) : Walk :=
  w.info s!"Run stopped, discarding result of {n.label}" n.id

/-- The ceiling on steps is reached. -/
def exhausted (w : Walk) (maxSteps : UInt64) : Walk :=
  w.record .error s!"Step limit of {maxSteps} reached, halting before this node" w.current

/-- There is no node to run next. -/
def lost (w : Walk) : Walk := w.record .error s!"Node {w.current} not found" w.current

/-- The step at a node has failed. -/
def failed (w : Walk) (n : Node) (error : String) : Walk :=
  (w.record .error s!"Node {n.label} failed: {error}" n.id).emit (.nodeFailed n.id error)

/-- An end node ran. -/
def completed (w : Walk) (n : Node) : Walk := w.info "Workflow execution completed" n.id

/-- No edge leads on. -/
def deadEnd (w : Walk) (n : Node) (branch : Option String) : Walk :=
  let detail := branch.elim "" fun branch => s!" for branch '{branch}'"
  w.info s!"Halting at {n.label}: no connecting edge{detail}" n.id

/-! ### The report -/

/-- What a run has to show: where it ended in order, the text generated last or else the input. -/
def output (w : Walk) (status : RunStatus) : Option String :=
  match status with
  | .completed | .deadEnd _ => some w.context.finalOutput
  | .failed .. | .stopped | .stepLimit _ => w.context.lastOutput

def report (w : Walk) (status : RunStatus) : Report where
  runId := w.occasion.runId
  status
  output := w.output status
  log := w.trail.log.toList
  visitedNodes := w.trail.visited.toList
  traversedEdges := w.trail.traversed.toList

end Walk

end AgentGraph
