import AgentGraph.Run.Walk
import AgentGraph.Workflow.Validation

/-!
# Executors

An `Executor` runs one workflow for many inputs, one run at a time. A run looks for a stop, takes
the step at the current node, looks for a stop again, follows an edge, and so on, until it ends in
one of the ways of `RunStatus`. A stop that is seen after a step undoes it, whatever its result was.

What a run does not decide itself comes from its `Environment`: the answers of the model, and when a
stop is asked for. The environment has a state of its own, so that it may depend on everything that
happened. It may also drop a run that waits for the model; then there is no report.
-/

namespace AgentGraph

/-- How a call comes back to a run. -/
inductive Answer where
  | reply (reply : Reply)
  /-- The reply did not arrive in time. -/
  | late

/-- What surrounds a run, with states of type `σ`. -/
structure Environment (σ : Type) where
  /-- The model is called; nothing comes back to a run that is dropped. -/
  ask : σ → Call → Option Answer × σ
  /-- Is a stop asked for when the run looks? -/
  stop : σ → Bool × σ

/-- Why a run is refused. -/
inductive EngineError where
  | invalidGraph (e : ValidationError)
  | alreadyRunning
deriving DecidableEq, Repr

def EngineError.message : EngineError → String
  | invalidGraph e => s!"invalid graph: {e.message}"
  | alreadyRunning => "a run is already in progress on this executor"

/-- A workflow, and what its runs use. -/
structure Executor where
  workflow : Workflow
  agents : Registry
  limits : Limits
  /-- The name of the model in messages. -/
  model : String

namespace Executor

/-! ### One step -/

/-- The result of a step that asked the model. -/
def resultOf (x : Executor) (finish : String → Outcome) : Answer → Except StepError Outcome
  | .late => .error (.timeout x.limits.stepTimeoutMs)
  | .reply reply => (reply.text x.model).mapError .generation |>.map finish

/-- How a run goes on after a step. -/
inductive Turn where
  | halted (status : RunStatus) (walk : Walk)
  | onward (walk : Walk)

/-- The step at a node has succeeded, and the way leads on from there, unless the node is an end
node. -/
def leave (x : Executor) (w : Walk) (n : Node) (branch : Option String) : Turn :=
  if n.kind = .finish then .halted .completed (w.completed n)
  else
    match x.workflow.follow? n.id branch with
    | some e => .onward (w.follow e)
    | none => .halted (.deadEnd n.id) (w.deadEnd n branch)

/-- The step at a node has a result that counts. -/
def conclude (x : Executor) (w : Walk) (n : Node) : Except StepError Outcome → Turn
  | .ok outcome => x.leave (w.accept n outcome) n outcome.branch
  | .error e => .halted (.failed n.id e.message) (w.failed n e.message)

/-! ### A whole run -/

variable {σ : Type}

/-- The end of a run; a run that was dropped has no status. -/
structure Finish (σ : Type) where
  status : Option RunStatus
  walk : Walk
  world : σ

/-- Do what a node does. There is no result when the run is dropped. -/
def perform (x : Executor) (env : Environment σ) (w : Walk) (n : Node) (s : σ) :
    Option (Except StepError Outcome) × Walk × σ :=
  match n.action x.agents w.context with
  | .done result => (some result, w, s)
  | .ask call finish =>
    let (answer, s) := env.ask s call
    (answer.map (x.resultOf finish), w.call call, s)

/-- Go on with a run that may take `remaining` more steps. -/
def drive (x : Executor) (env : Environment σ) : (remaining : Nat) → Walk → σ → Finish σ
  | remaining, w, s =>
    let (stop, s) := env.stop s
    if stop then ⟨some .stopped, w.stopped, s⟩
    else
      match remaining with
      | 0 => ⟨some (.stepLimit x.limits.maxSteps), w.exhausted x.limits.maxSteps, s⟩
      | remaining + 1 =>
        match x.workflow.findNode? w.current with
        | none => ⟨some (.failed w.current "node not found"), w.lost, s⟩
        | some n =>
          match x.perform env (w.enter n) n s with
          | (none, w, s) => ⟨none, w, s⟩
          | (some result, w, s) =>
            let (stop, s) := env.stop s
            if stop then ⟨some .stopped, w.discarded n, s⟩
            else
              match x.conclude w n result with
              | .halted status w => ⟨some status, w, s⟩
              | .onward w => x.drive env remaining w s

/-! ### Runs on an executor -/

/-- What a run is for. -/
structure Task where
  input : String
  profile : Profile

/-- What came of asking for a run. -/
structure Attempt (σ : Type) where
  /-- The report, or nothing when the run was dropped. -/
  result : Except EngineError (Option Report)
  /-- The events that were sent. -/
  events : List Event
  calls : List Call
  /-- What the executor does afterwards. -/
  state : ExecutorState
  world : σ

/-- The start node of a run that may begin: the graph has to be valid, and no other run under
way. -/
def admission (x : Executor) (state : ExecutorState) : Except EngineError Node := do
  (validate x.workflow.nodes x.workflow.edges).mapError .invalidGraph
  match x.workflow.startNode? with
  | none => throw (.invalidGraph (.startCount 0))
  | some start =>
    if state = .running then throw .alreadyRunning
    return start

/-- The events after the last step: an observer learns the status of a run that was not dropped. -/
def closing (status : Option RunStatus) : List Event :=
  status.toList.map .workflowCompleted ++ [.stateChanged .halted]

/-- Run the workflow once. -/
def run (x : Executor) (env : Environment σ) (state : ExecutorState) (occasion : Occasion)
    (task : Task) (s : σ) : Attempt σ :=
  match x.admission state with
  | .error e => ⟨.error e, [], [], state, s⟩
  | .ok start =>
    let w := Walk.start occasion x.workflow.name start.id task.input task.profile
    let f := x.drive env x.limits.maxSteps.toNat w s
    { result := .ok (f.status.map f.walk.report)
      events := f.walk.trail.events.toList ++ closing f.status
      calls := f.walk.trail.calls.toList
      state := .halted
      world := f.world }

end Executor

end AgentGraph
