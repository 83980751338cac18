import AgentGraph.Run.Executor

/-!
# An executor shared by many runs

`Executor.drive` makes a whole run at once and asks its environment for every answer. Here a run is
made in pieces. It goes on by itself until it needs an answer; then it waits, and it is resumed when
the answer is there (`advance`, `resume`). While it waits anything can happen around it: another run
is asked for on the same executor, or the run is dropped.

A `Shared` executor has the state that all its runs see, and one session for each run that was asked
for. It moves in small steps, in any order: a run begins, is answered, returns or is dropped. What
the model answers is not determined here, so whatever it does is among these steps.
-/

namespace AgentGraph

/-! ### A run in pieces -/

/-- A run that waits for the model, with its command channel. -/
structure Suspension (τ : Type) where
  /-- How many steps the run may take after this one. -/
  remaining : Nat
  walk : Walk
  node : Node
  finish : String → Outcome
  commands : τ

/-- How far a run has come by itself. -/
inductive Progress (τ : Type) where
  | waiting (p : Suspension τ)
  | ended (status : RunStatus) (walk : Walk) (commands : τ)

def Progress.walk {τ : Type} : Progress τ → Walk
  | waiting p => p.walk
  | ended _ w _ => w

namespace Executor

variable {τ : Type}

/-- The step at a node has a result: the run looks for a stop and goes on if there is none. -/
def settle (x : Executor) (look : τ → Bool × τ) (next : Walk → τ → Progress τ) (w : Walk) (n : Node)
    (result : Except StepError Outcome) (t : τ) : Progress τ :=
  let (stop, t) := look t
  if stop then .ended .stopped (w.discarded n) t
  else
    match x.conclude w n result with
    | .halted status w => .ended status w t
    | .onward w => next w t

/-- Go on with a run until it has to wait. -/
def advance (x : Executor) (look : τ → Bool × τ) : (remaining : Nat) → Walk → τ → Progress τ
  | remaining, w, t =>
    let (stop, t) := look t
    if stop then .ended .stopped w.stopped t
    else
      match remaining with
      | 0 => .ended (.stepLimit x.limits.maxSteps) (w.exhausted x.limits.maxSteps) t
      | remaining + 1 =>
        match x.workflow.findNode? w.current with
        | none => .ended (.failed w.current "node not found") w.lost t
        | some n =>
          match n.action x.agents (w.enter n).context with
          | .done result => x.settle look (x.advance look remaining) (w.enter n) n result t
          | .ask call finish => .waiting ⟨remaining, (w.enter n).call call, n, finish, t⟩

/-- Go on with a run that has waited. -/
def resume (x : Executor) (look : τ → Bool × τ) (p : Suspension τ) (answer : Answer) : Progress τ :=
  x.settle look (x.advance look p.remaining) p.walk p.node (x.resultOf p.finish answer) p.commands

end Executor

/-! ### Sessions -/

/-- What a run is asked for with. -/
structure Ticket (τ : Type) where
  occasion : Occasion
  task : Executor.Task
  commands : τ

/-- A run that was asked for. An accepted one has got some answers, oldest first. -/
inductive Session (τ : Type) where
  | refused (e : EngineError)
  | live (ticket : Ticket τ) (answers : List Answer) (progress : Progress τ)
  | returned (ticket : Ticket τ) (answers : List Answer) (status : RunStatus) (walk : Walk)
  /-- The run was dropped while it waited. -/
  | dropped (ticket : Ticket τ) (answers : List Answer) (walk : Walk)

namespace Session

variable {τ : Type}

def isLive : Session τ → Bool
  | live .. => true
  | _ => false

def isAccepted : Session τ → Bool
  | refused _ => false
  | _ => true

/-- The events that the run has sent. -/
def events : Session τ → List Event
  | refused _ => []
  | live _ _ progress => progress.walk.trail.events.toList
  | returned _ _ status w => w.trail.events.toList ++ Executor.closing (some status)
  | dropped _ _ w => w.trail.events.toList ++ Executor.closing none

/-- The calls that the run has made. -/
def calls : Session τ → List Call
  | refused _ => []
  | live _ _ progress => progress.walk.trail.calls.toList
  | returned _ _ _ w | dropped _ _ w => w.trail.calls.toList

end Session

/-- An executor and the runs that were asked for, in this order. -/
structure Shared (τ : Type) where
  state : ExecutorState
  sessions : List (Session τ)

namespace Shared

variable {τ : Type}

/-- An executor that nobody has used. -/
def fresh : Shared τ := ⟨.idle, []⟩

/-- How many runs are under way. -/
def live (S : Shared τ) : Nat := S.sessions.countP (·.isLive)

/-- How many runs were accepted. -/
def accepted (S : Shared τ) : Nat := S.sessions.countP (·.isAccepted)

/-- All events that were sent. -/
def events (S : Shared τ) : List Event := S.sessions.flatMap (·.events)

/-- All calls that were made. -/
def calls (S : Shared τ) : List Call := S.sessions.flatMap (·.calls)

/-- A run is asked for. If it is accepted, it goes on until it has to wait. -/
def begin (x : Executor) (look : τ → Bool × τ) (S : Shared τ) (ticket : Ticket τ) : Shared τ :=
  match x.admission S.state with
  | .error e => { S with sessions := S.sessions ++ [.refused e] }
  | .ok start =>
    let w :=
      Walk.start ticket.occasion x.workflow.name start.id ticket.task.input ticket.task.profile
    ⟨.running, S.sessions ++
      [.live ticket [] (x.advance look x.limits.maxSteps.toNat w ticket.commands)]⟩

/-- One step of a shared executor. A run that ends in any way, or is dropped, leaves the executor
halted, whatever state it is in. -/
inductive Step (x : Executor) (look : τ → Bool × τ) : Shared τ → Shared τ → Prop where
  | begin (S : Shared τ) (ticket : Ticket τ) : Step x look S (S.begin x look ticket)
  | answer {state : ExecutorState} {before after : List (Session τ)} {ticket : Ticket τ}
      {answers : List Answer} {p : Suspension τ} (a : Answer) :
      Step x look ⟨state, before ++ .live ticket answers (.waiting p) :: after⟩
        ⟨state, before ++ .live ticket (answers ++ [a]) (x.resume look p a) :: after⟩
  | finish {state : ExecutorState} {before after : List (Session τ)} {ticket : Ticket τ}
      {answers : List Answer} {status : RunStatus} {w : Walk} {t : τ} :
      Step x look ⟨state, before ++ .live ticket answers (.ended status w t) :: after⟩
        ⟨.halted, before ++ .returned ticket answers status w :: after⟩
  | drop {state : ExecutorState} {before after : List (Session τ)} {ticket : Ticket τ}
      {answers : List Answer} {p : Suspension τ} :
      Step x look ⟨state, before ++ .live ticket answers (.waiting p) :: after⟩
        ⟨.halted, before ++ .dropped ticket answers p.walk :: after⟩

/-- What can become of an executor that nobody has used. -/
inductive Reachable (x : Executor) (look : τ → Bool × τ) : Shared τ → Prop where
  | fresh : Reachable x look fresh
  | step {S S' : Shared τ} : Reachable x look S → Step x look S S' → Reachable x look S'

end Shared

/-- An environment whose model gives the listed answers; when there are none left, the run is
dropped. -/
def Environment.scripted {τ : Type} (look : τ → Bool × τ) : Environment (List Answer × τ) where
  ask := fun (answers, t) _ =>
    match answers with
    | [] => (none, ([], t))
    | a :: answers => (some a, (answers, t))
  stop := fun (answers, t) =>
    let (stop, t) := look t
    (stop, (answers, t))

end AgentGraph
