import AgentGraph.Run.Executor

/-!
# The channels of a run

Two channels join a run to its surroundings. Its events go into one that holds a bounded number of
them until somebody takes them out; an event that finds the channel full is lost, and the run is not
held up. Commands come through the other one. The only command is to stop, and the run looks for it
without waiting: a channel that is empty and a channel that nobody can send to any more are the same
to it.
-/

namespace AgentGraph

/-! ### Events -/

/-- A channel for events that nobody takes out. -/
structure EventChannel where
  capacity : Nat
  queue : List Event

namespace EventChannel

def empty (capacity : Nat) : EventChannel := ⟨capacity, []⟩

/-- Send an event without waiting; it cannot be sent when the channel is full. -/
def trySend? (c : EventChannel) (e : Event) : Option EventChannel :=
  if c.queue.length < c.capacity then some { c with queue := c.queue ++ [e] } else none

/-- Send an event, or lose it. -/
def send (c : EventChannel) (e : Event) : EventChannel := (c.trySend? e).getD c

def sendAll (c : EventChannel) (es : List Event) : EventChannel := es.foldl send c

end EventChannel

/-- Run the workflow once while a channel takes the events. -/
def Executor.runInto {σ : Type} (x : Executor) (channel : EventChannel) (env : Environment σ)
    (state : ExecutorState) (occasion : Occasion) (task : Executor.Task) (s : σ) :
    Executor.Attempt σ × EventChannel :=
  let a := x.run env state occasion task s
  (a, channel.sendAll a.events)

/-! ### Commands -/

/-- What is done at the far end of a command channel. -/
inductive Sending where
  | stop
  /-- Nobody is left to send. -/
  | close
deriving DecidableEq, Repr

/-- What a run finds when it looks into its command channel. -/
inductive Receipt where
  | stop
  | empty
  | disconnected
deriving DecidableEq, Repr

/-- A channel for commands: the stops in it that the run has not taken, and whether it is closed. -/
structure CommandChannel where
  stops : Nat
  closed : Bool
deriving DecidableEq, Repr

namespace CommandChannel

def fresh : CommandChannel := ⟨0, false⟩

/-- Nothing can be put into a closed channel. -/
def accept (c : CommandChannel) : Sending → CommandChannel
  | .stop => if c.closed then c else { c with stops := c.stops + 1 }
  | .close => { c with closed := true }

/-- The run looks, and takes a command if there is one; what was sent before the channel was closed
is still there. -/
def receive (c : CommandChannel) : Receipt × CommandChannel :=
  match c.stops with
  | stops + 1 => (.stop, { c with stops })
  | 0 => (if c.closed then .disconnected else .empty, c)

end CommandChannel

/-- What is done at the far end during a run: `schedule i` happens before the run looks for the time
`i`, and after it looked the time before. -/
abbrev Schedule := Nat → List Sending

/-- The surroundings of a run whose commands come through a channel. -/
structure Commanded (β : Type) where
  model : β
  channel : CommandChannel
  /-- How often the run has looked for a command. -/
  looks : Nat

/-- Before a run looks for the first time. -/
def Commanded.fresh {β : Type} (model : β) : Commanded β := ⟨model, .fresh, 0⟩

/-- An environment made of a model, which answers every call or is late, and a command channel. -/
def Environment.commanded {β : Type} (answer : β → Call → Answer × β)
    (schedule : Schedule) : Environment (Commanded β) where
  ask := fun s call =>
    let (a, model) := answer s.model call
    (some a, { s with model })
  stop := fun s =>
    let (receipt, channel) := ((schedule s.looks).foldl CommandChannel.accept s.channel).receive
    (receipt = .stop, { s with channel, looks := s.looks + 1 })

end AgentGraph
