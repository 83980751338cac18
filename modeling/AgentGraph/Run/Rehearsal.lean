import AgentGraph.Chat.Script
import AgentGraph.Run.Channel

/-!
# Rehearsals

A rehearsal makes one executor run several times against a scripted model, in virtual time: the
clock stands still while anything can go on, and then moves straight to the next moment at which
something happens. So delays, timeouts and the dropping of a run are exact. A reply due at the very
end of its step is still in time, and one due when its run is to be dropped still arrives.

A run may have a companion, a second run that is asked for when the first one waits for the first
time, or else when it ends. Once the companion is done the gate opens, once: it lets one waiting
call pass, now or later. A companion asked for while the first run waits is refused, because an
executor has one run at a time; so it never matters what it would have done in between.
-/

namespace AgentGraph.Rehearsal

/-- One run of a rehearsal. -/
structure Scene where
  task : Executor.Task
  /-- A stop is asked for before the run begins. -/
  stopBefore : Bool
  /-- Stops cannot be asked for once the run has begun. -/
  deaf : Bool
  /-- The run is dropped after so many milliseconds. -/
  dropAfterMs : Option Nat
  companion : Option Executor.Task

/-- What surrounds a rehearsed run. -/
structure Stage where
  source : Source
  /-- Is the gate open for the next call that comes to it? -/
  gateOpen : Bool
  /-- Milliseconds since the run began. -/
  elapsed : Nat
  dropAfterMs : Option Nat
  deaf : Bool
  /-- Has a stop been asked for that the run has not seen? -/
  stopping : Bool
  /-- Is a companion to be let in when the run waits? -/
  accompanied : Bool
  /-- Has the run waited? -/
  waited : Bool

namespace Stage

/-- A stage on which nobody asks for stops and nothing is dropped. -/
def quiet (source : Source) (gateOpen : Bool) : Stage :=
  ⟨source, gateOpen, 0, none, true, false, false, false⟩

/-- The stage for a scene. -/
def forScene (source : Source) (gateOpen : Bool) (scene : Scene) : Stage :=
  ⟨source, gateOpen, 0, scene.dropAfterMs, scene.deaf, scene.stopBefore,
    scene.companion.isSome, false⟩

/-- The run begins to wait. The first time this lets the companion in, and that opens the gate. -/
def wait (s : Stage) : Stage :=
  { s with gateOpen := s.gateOpen || (s.accompanied && !s.waited), waited := true }

/-- A call passes the gate, if it comes to it, and the gate shuts behind it. -/
def pass (s : Stage) (cue : Cue) : Stage := { s with gateOpen := s.gateOpen && !cue.atGate }

/-- When a call that has to wait is answered, counted from now: perhaps never. -/
def latency (s : Stage) (cue : Cue) : Option Nat :=
  if cue.atGate && !s.gateOpen then none else some cue.delayMs

/-- Is the run dropped before it has waited so long? -/
def droppedWithin (s : Stage) (ms : Nat) : Bool :=
  s.dropAfterMs.any fun limit => limit < s.elapsed + max 1 ms

/-- A call that cannot be answered at once waits for its answer, but not longer than its step may
take. -/
def await (s : Stage) (timeoutMs : Nat) (cue : Cue) : Option Answer × Stage :=
  let s := s.wait
  let inTime := (s.latency cue).any (· ≤ timeoutMs)
  let ms := if inTime then cue.delayMs else timeoutMs
  if s.droppedWithin ms then (none, s)
  else
    let s := { s with elapsed := s.elapsed + ms }
    if inTime then (some (.reply cue.reply), s.pass cue) else (some .late, s)

/-- The model is called. -/
def ask (timeoutMs : Nat) (s : Stage) (call : Call) : Option Answer × Stage :=
  let (cue, source) := s.source.next call
  let s := { s with source, stopping := s.stopping || (cue.stops && !s.deaf) }
  if cue.delayMs = 0 ∧ (cue.atGate → s.gateOpen) then (some (.reply cue.reply), s.pass cue)
  else if timeoutMs = 0 then (some .late, s)
  else s.await timeoutMs cue

/-- The run looks for a stop and takes it. -/
def takeStop (s : Stage) : Bool × Stage := (s.stopping, { s with stopping := false })

/-- The environment of rehearsed runs. -/
def environment (timeoutMs : Nat) : Environment Stage := ⟨ask timeoutMs, takeStop⟩

end Stage

/-- What came of one run of a rehearsal. -/
structure Record where
  before : ExecutorState
  after : ExecutorState
  result : Except EngineError (Option Report)
  companion : Option (Except EngineError (Option Report))
  /-- The events of the run and its companion. -/
  events : List Event
  calls : List Call

/-- What one run of a rehearsal leaves to the next. -/
structure Setting where
  state : ExecutorState
  source : Source
  gateOpen : Bool
  /-- How many runs there have been. -/
  runs : Nat

/-- Run a scene. `occasion` gives each run what sets it apart. -/
def Scene.play (x : Executor) (occasion : Nat → Occasion) (setting : Setting) (scene : Scene) :
    Record × Setting :=
  let env := Stage.environment x.limits.stepTimeoutMs.toNat
  let first := x.run env setting.state (occasion setting.runs) scene.task
    (.forScene setting.source setting.gateOpen scene)
  let record : Record :=
    ⟨setting.state, first.state, first.result, none, first.events, first.calls⟩
  let setting : Setting := ⟨first.state, first.world.source, first.world.gateOpen, setting.runs + 1⟩
  match scene.companion with
  | none => (record, setting)
  | some task =>
    if first.world.waited then
      let refused := (x.admission .running).map fun _ => none
      ({ record with companion := some refused }, setting)
    else
      let second := x.run env setting.state (occasion setting.runs) task
        (.quiet setting.source setting.gateOpen)
      ({ record with
          after := second.state
          companion := some second.result
          events := record.events ++ second.events
          calls := record.calls ++ second.calls },
        ⟨second.state, second.world.source, true, setting.runs + 1⟩)

/-- Run the scenes one after another. -/
def play (x : Executor) (occasion : Nat → Occasion) : Setting → List Scene → List Record × Setting
  | setting, [] => ([], setting)
  | setting, scene :: scenes =>
    let (record, setting) := scene.play x occasion setting
    let (records, setting) := play x occasion setting scenes
    (record :: records, setting)

/-- What a channel that holds so many events keeps of those sent before it is emptied. -/
def received (capacity : Nat) (r : Record) : List Event :=
  ((EventChannel.empty capacity).sendAll r.events).queue

end AgentGraph.Rehearsal
