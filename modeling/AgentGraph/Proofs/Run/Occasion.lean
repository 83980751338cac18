import AgentGraph.Proofs.Run.Imitation
import AgentGraph.Proofs.Run.Story

/-!
# One run on two occasions

Two runs often tell the same story and yet differ in what sets every run apart: the identifier,
which is in the report and in the first line of the log, and the times of the log.
`Occasion.attempt` replaces exactly these by those of another occasion, so that "the two runs are
the same, apart from the run and its times" is an equation. `run_imitated` proves such equations:
where an executor imitates another one, its runs are those of the other one, told for its own
occasion.
-/

namespace AgentGraph

/-! ### Telling a run for another occasion -/

namespace Occasion

variable {σ : Type} (o : Occasion) (name : String)

/-- The message with which the log of a run begins. -/
def title : String := s!"Starting run {o.runId} of '{name}'"

/-- An entry of the log, as it is made on this occasion. -/
def entry (place : Nat) (e : LogEntry) : LogEntry :=
  { e with timestamp := o.clock place, message := if place = 0 then o.title name else e.message }

def log (log : Log) : Log := log.mapIdx (o.entry name)

/-- Events that follow after so many entries. -/
def events : Nat → List Event → List Event
  | _, [] => []
  | place, .log e :: es => .log (o.entry name place e) :: events (place + 1) es
  | place, e :: es => e :: events place es

def report (r : Report) : Report := { r with runId := o.runId, log := o.log name r.log }

/-- What would have come of asking for the run on this occasion. -/
def attempt (a : Executor.Attempt σ) : Executor.Attempt σ :=
  { a with result := a.result.map (·.map (o.report name)), events := o.events name 0 a.events }

variable {o name}

theorem events_append (place : Nat) (es es' : List Event) : o.events name place (es ++ es') =
    o.events name place es ++ o.events name (place + (es.filterMap Event.entry?).length) es' := by
  induction es generalizing place with
  | nil => rfl
  | cons e es ih =>
      cases e with
      | log entry =>
          have hplace : place + (entry :: es.filterMap Event.entry?).length =
              place + 1 + (es.filterMap Event.entry?).length := by simp +arith
          simp only [List.cons_append, events, ih, List.filterMap_cons, Event.entry?, hplace]
      | _ => simp only [List.cons_append, events, ih, List.filterMap_cons, Event.entry?]

end Occasion

/-! ### Trails on two occasions -/

namespace Trail

/-- The second trail is the first one, told for another occasion. The first line has been written,
as it is the only one that does not stay the same. -/
structure Retold (o : Occasion) (name : String) (t t' : Trail) : Prop where
  opened : t.log.toList ≠ []
  agrees : t.Agrees
  log : t'.log.toList = o.log name t.log.toList
  events : t'.events.toList = o.events name 0 t.events.toList
  visited : t'.visited = t.visited
  traversed : t'.traversed = t.traversed
  calls : t'.calls = t.calls

namespace Retold

variable {o : Occasion} {name : String} {t t' : Trail} {m : Mark} {clock : Nat → UInt64}

/-- A signal more, which is the same on both occasions. -/
theorem events_push (h : Retold o name t t') {e : Event} (he : e.entry? = none) :
    (t'.events.push e).toList = o.events name 0 (t.events.push e).toList := by
  rw [Array.toList_push, Array.toList_push, Occasion.events_append, h.events]
  cases e <;> first | rfl | cases he

theorem size_log (h : Retold o name t t') : t'.log.size = t.log.size := by
  have hlength := congrArg List.length h.log
  rwa [Occasion.log, List.length_mapIdx] at hlength

/-- A line more: it has another time, and the same message. -/
theorem entry (h : Retold o name t t') (line : LogLine) :
    o.entry name t.log.toList.length ⟨clock t.log.size, line.kind, line.message, line.nodeId⟩ =
      ⟨o.clock t'.log.size, line.kind, line.message, line.nodeId⟩ := by
  have hplace : t.log.toList.length ≠ 0 := by simpa using h.opened
  rw [h.size_log, Occasion.entry, if_neg hplace]
  rfl

theorem write (h : Retold o name t t') (m : Mark) :
    Retold o name (t.write clock m) (t'.write o.clock m) := by
  obtain ⟨hopened, hagrees, hlog, hevents, hvisited, htraversed, hcalls⟩ := id h
  have hagrees' : (t.write clock m).Agrees := hagrees.write
  cases m with
  | begun => exact ⟨hopened, hagrees', hlog, h.events_push rfl, hvisited, htraversed, hcalls⟩
  | completed id => exact ⟨hopened, hagrees', hlog, h.events_push rfl, hvisited, htraversed, hcalls⟩
  | failed id error =>
      exact ⟨hopened, hagrees', hlog, h.events_push rfl, hvisited, htraversed, hcalls⟩
  | started id =>
      exact ⟨hopened, hagrees', hlog, h.events_push rfl, congrArg (·.push id) hvisited,
        htraversed, hcalls⟩
  | taken id =>
      exact ⟨hopened, hagrees', hlog, h.events_push rfl, hvisited,
        congrArg (·.push id) htraversed, hcalls⟩
  | called c =>
      exact ⟨hopened, hagrees', hlog, hevents, hvisited, htraversed, congrArg (·.push c) hcalls⟩
  -- only a line carries its time, so the log and its event have to be told anew
  | logged line =>
      refine ⟨by simp [Trail.write, Trail.enter, Trail.emit], hagrees', ?_, ?_, hvisited,
        htraversed, hcalls⟩
      · simp only [Trail.write, Trail.enter, Trail.emit, Array.toList_push, Occasion.log,
          List.mapIdx_concat]
        rw [h.entry line, hlog, Occasion.log]
      · simp only [Trail.write, Trail.enter, Trail.emit, Array.toList_push, Occasion.events_append,
          hagrees.log, Nat.zero_add, Occasion.events]
        rw [h.entry line, hevents]

theorem writeAll (h : Retold o name t t') (ms : List Mark) :
    Retold o name (t.writeAll clock ms) (t'.writeAll o.clock ms) := by
  induction ms generalizing t t' with
  | nil => exact h
  | cons m ms ih => exact ih (h.write m)

end Retold

end Trail

namespace Executor

variable {σ : Type} {x x' : Executor} {env : Environment σ} {R : Context → Context → Prop}
  {P : String → Prop} {occasion occasion' : Occasion} {task task' : Task} {s : σ}
    {start start' : Node}

/-- The first lines of two runs for the same input differ only in the run that they name. -/
theorem retold_setOut (hname : x'.workflow.name = x.workflow.name)
    (hinput : task'.input = task.input) :
    Trail.Retold occasion' x.workflow.name (x.setOut occasion task start).trail
      (x'.setOut occasion' task' start').trail where
  opened := by simp [setOut, Walk.start, Walk.record, Trail.enter]
  agrees := ⟨rfl, rfl, rfl⟩
  log := by simp [setOut, Walk.start, Walk.record, Walk.info, Walk.emit, Trail.enter, Trail.emit,
    Trail.empty, Occasion.log, Occasion.entry, Occasion.title, hname, hinput]
  events := by simp [setOut, Walk.start, Walk.record, Walk.info, Walk.emit, Trail.enter, Trail.emit,
    Trail.empty, Occasion.events, Occasion.entry, Occasion.title, hname, hinput]
  visited := rfl
  traversed := rfl
  calls := rfl

theorem events_closing (o : Occasion) (name : String) (place : Nat) (status : Option RunStatus) :
    o.events name place (closing status) = closing status := by
  cases status <;> rfl

/-- What comes of runs that went side by side. -/
theorem attemptOf_abreast {f : Finish σ} {u : Walk} {name : String}
    (hu : Walk.Abreast R (x.setOut occasion task start) (x'.setOut occasion' task' start') f.walk u)
    (houtput : ∀ ctx ctx', R ctx ctx' → ctx'.input = ctx.input ∧ ctx'.lastOutput = ctx.lastOutput)
    (hset : Trail.Retold occasion' name (x.setOut occasion task start).trail
      (x'.setOut occasion' task' start').trail) :
    attemptOf ⟨f.status, u, f.world⟩ = occasion'.attempt name (attemptOf f) := by
  obtain ⟨ms, hw, hw'⟩ := hu.marks
  obtain ⟨hinput, hlast⟩ := houtput _ _ hu.context
  have htrail : Trail.Retold occasion' name f.walk.trail u.trail := by
    rw [hw.trail, hw'.trail]
    exact hset.writeAll ms
  -- a report is made of the walk's context and trail, and both correspond
  have hreport : ∀ status, u.report status = occasion'.report name (f.walk.report status) := by
    intro status
    have houtput : u.output status = f.walk.output status := by
      cases status <;> simp [Walk.output, Context.finalOutput, hinput, hlast]
    simp only [Walk.report, Occasion.report, hw'.occasion, houtput, htrail.log, htrail.visited,
      htrail.traversed]
    rfl
  have hevents : u.trail.events.toList ++ closing f.status =
      occasion'.events name 0 (f.walk.trail.events.toList ++ closing f.status) := by
    rw [Occasion.events_append, events_closing, htrail.events]
  have hresult : f.status.map u.report =
      (f.status.map f.walk.report).map (occasion'.report name) := by
    rw [Option.map_map]
    exact congrArg (f.status.map ·) (funext hreport)
  simp only [attemptOf, Occasion.attempt, hevents, hresult, htrail.calls]
  rfl

/-- **Where an executor imitates another one its runs are the same**, apart from the run and its
times. -/
theorem run_imitated (h : x'.Imitates x R P) (hv : x.workflow.Valid) (hv' : x'.workflow.Valid)
    (hname : x'.workflow.name = x.workflow.name) (hstart : x.workflow.startNode? = some start)
    (hstart' : x'.workflow.startNode? = some start') (hid : start'.id = start.id) (hP : P start.id)
    (hinput : task'.input = task.input)
    (hR : R (.start task.input task.profile) (.start task'.input task'.profile))
    (houtput : ∀ ctx ctx', R ctx ctx' → ctx'.input = ctx.input ∧ ctx'.lastOutput = ctx.lastOutput)
    {state : ExecutorState} (hs : state ≠ .running) :
    x'.run env state occasion' task' s =
      occasion'.attempt x.workflow.name (x.run env state occasion task s) := by
  obtain ⟨ps, f, hjourney, hrun⟩ := run_of_valid hv hs env occasion task s
  obtain ⟨ps', u, hjourney', hu⟩ := hjourney.imitated h hstart hstart' hid hP hR
  rw [hjourney'.run_eq hv' hs, hrun]
  exact attemptOf_abreast hu houtput (retold_setOut hname hinput)

/-- A run that is refused is refused on every occasion. -/
theorem run_refused {state : ExecutorState} {e : EngineError} (h : x.admission state = .error e) :
    x.run env state occasion' task' s =
      occasion'.attempt x.workflow.name (x.run env state occasion task s) := by
  simp only [run, h]
  rfl

end Executor

end AgentGraph
