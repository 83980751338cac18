import AgentGraph.Run.Executor

/-!
# A trail, mark by mark

The lists of a `Trail` are filled at different places and yet tell of one run. Here they are seen as
one sequence of marks: a line of the log, a node started, the model called, a node completed or
failed, an edge taken. `Trail.write` says what each mark adds to which list, and `Walk.Writes ms`
that a walk has gone on and left the marks `ms` on the way, whatever else it did.

Marks carry no times, so what a run writes can be told without its clock. A list of the trail is a
view of the marks: it grows by what each of them shows (`Trail.view_writeAll`). Two facts hold of
every trail that is written this way. Nothing written is ever taken back
(`Trail.writeAll_continues`), and what is sent as an event agrees with what is kept
(`Trail.agrees_writeAll`).
-/

namespace AgentGraph

/-- A line of a log, without the time. -/
structure LogLine where
  kind : LogKind
  message : String
  nodeId : Option String
deriving DecidableEq, Repr

namespace LogLine

def info (message : String) (nodeId : Option String) : LogLine := ⟨.info, message, nodeId⟩

def output (message nodeId : String) : LogLine := ⟨.output, message, nodeId⟩

def error (message nodeId : String) : LogLine := ⟨.error, message, nodeId⟩

end LogLine

def LogEntry.line (e : LogEntry) : LogLine := ⟨e.kind, e.message, e.nodeId⟩

/-- One thing that a run leaves on its trail. -/
inductive Mark where
  | begun
  | logged (line : LogLine)
  | started (nodeId : String)
  | called (call : Call)
  | completed (nodeId : String)
  | failed (nodeId error : String)
  | taken (edgeId : String)

namespace Mark

/-! ### What a mark shows -/

def line? : Mark → Option LogLine
  | logged line => some line
  | _ => none

def startedNode? : Mark → Option String
  | started id => some id
  | _ => none

def call? : Mark → Option Call
  | called c => some c
  | _ => none

/-- The event that is sent with a mark; the event of a line carries its time, and is left out
here. -/
def event? : Mark → Option Event
  | begun => some (.stateChanged .running)
  | started id => some (.nodeStarted id)
  | completed id => some (.nodeCompleted id)
  | failed id error => some (.nodeFailed id error)
  | taken id => some (.edgeTraversed id)
  | logged _ | called _ => none

/-! ### What lines of the log show -/

@[simp]
theorem filterMap_line?_map_logged (lines : List LogLine) :
    (lines.map logged).filterMap line? = lines := by
  simp [List.filterMap_map, Function.comp_def, line?]

@[simp]
theorem filterMap_startedNode?_map_logged (lines : List LogLine) :
    (lines.map logged).filterMap startedNode? = [] := by
  simp [startedNode?]

@[simp]
theorem filterMap_call?_map_logged (lines : List LogLine) :
    (lines.map logged).filterMap call? = [] := by
  simp [call?]

@[simp]
theorem filterMap_event?_map_logged (lines : List LogLine) :
    (lines.map logged).filterMap event? = [] := by
  simp [event?]

end Mark

namespace Event

/-! ### What an event shows -/

def entry? : Event → Option LogEntry
  | log entry => some entry
  | _ => none

def startedNode? : Event → Option String
  | nodeStarted id => some id
  | _ => none

def takenEdge? : Event → Option String
  | edgeTraversed id => some id
  | _ => none

def isLog (e : Event) : Bool := e.entry?.isSome

end Event

namespace Trail

variable {α : Type} {clock : Nat → UInt64} {t : Trail} {m : Mark} {ms : List Mark}

/-! ### Writing -/

/-- Leave a mark. -/
def write (clock : Nat → UInt64) (t : Trail) : Mark → Trail
  | .begun => t.emit (.stateChanged .running)
  | .logged line => t.enter ⟨clock t.log.size, line.kind, line.message, line.nodeId⟩
  | .started id => t.visit id
  | .called c => t.call c
  | .completed id => t.emit (.nodeCompleted id)
  | .failed id error => t.emit (.nodeFailed id error)
  | .taken id => t.traverse id

def writeAll (clock : Nat → UInt64) (t : Trail) (ms : List Mark) : Trail := ms.foldl (write clock) t

theorem writeAll_append (ms ms' : List Mark) :
    t.writeAll clock (ms ++ ms') = (t.writeAll clock ms).writeAll clock ms' :=
  List.foldl_append

/-! ### Views -/

/-- A list that grows with each mark by what it shows grows by what all of them show. -/
theorem view_writeAll (view : Trail → List α) {show? : Mark → Option α}
    (h : ∀ t m, view (write clock t m) = view t ++ (show? m).toList) (ms : List Mark) (t : Trail) :
    view (t.writeAll clock ms) = view t ++ ms.filterMap show? := by
  induction ms generalizing t with
  | nil => exact (List.append_nil _).symm
  | cons m ms ih =>
      show view ((write clock t m).writeAll clock ms) = _
      rw [ih, h, List.append_assoc, List.filterMap_cons]
      cases show? m <;> rfl

@[simp]
theorem visited_writeAll :
    (t.writeAll clock ms).visited.toList = t.visited.toList ++ ms.filterMap Mark.startedNode? := by
  apply view_writeAll (fun t => t.visited.toList)
  intro t m
  cases m <;> simp [write, emit, enter, visit, traverse, call, Mark.startedNode?]

@[simp]
theorem calls_writeAll :
    (t.writeAll clock ms).calls.toList = t.calls.toList ++ ms.filterMap Mark.call? := by
  apply view_writeAll (fun t => t.calls.toList)
  intro t m
  cases m <;> simp [write, emit, enter, visit, traverse, call, Mark.call?]

/-- The lines of the log. -/
def lines (t : Trail) : List LogLine := t.log.toList.map LogEntry.line

@[simp]
theorem lines_writeAll : (t.writeAll clock ms).lines = t.lines ++ ms.filterMap Mark.line? := by
  apply view_writeAll lines
  intro t m
  cases m <;> simp [lines, write, emit, enter, visit, traverse, call, Mark.line?, LogEntry.line]

/-- The events that are no lines of the log. -/
def signals (t : Trail) : List Event := t.events.toList.filter (!·.isLog)

@[simp]
theorem signals_writeAll :
    (t.writeAll clock ms).signals = t.signals ++ ms.filterMap Mark.event? := by
  apply view_writeAll signals
  intro t m
  cases m <;> simp [signals, write, emit, enter, visit, traverse, call, Mark.event?, Event.isLog,
    Event.entry?]

/-! ### What holds of every trail -/

/-- The later trail has all that the earlier one has, at the same places. -/
structure Continues (later earlier : Trail) : Prop where
  events : earlier.events.toList <+: later.events.toList
  log : earlier.log.toList <+: later.log.toList
  visited : earlier.visited.toList <+: later.visited.toList
  traversed : earlier.traversed.toList <+: later.traversed.toList
  calls : earlier.calls.toList <+: later.calls.toList

theorem Continues.refl (t : Trail) : t.Continues t :=
  ⟨List.prefix_rfl, List.prefix_rfl, List.prefix_rfl, List.prefix_rfl, List.prefix_rfl⟩

theorem Continues.trans {t₁ t₂ t₃ : Trail} (h : t₂.Continues t₁) (h' : t₃.Continues t₂) :
    t₃.Continues t₁ where
  events := h.events.trans h'.events
  log := h.log.trans h'.log
  visited := h.visited.trans h'.visited
  traversed := h.traversed.trans h'.traversed
  calls := h.calls.trans h'.calls

theorem write_continues : (t.write clock m).Continues t := by
  cases m <;> constructor <;> simp [write, emit, enter, visit, traverse, call]

/-- Nothing written is taken back. -/
theorem writeAll_continues : (t.writeAll clock ms).Continues t := by
  induction ms generalizing t with
  | nil => exact .refl t
  | cons m ms ih => exact write_continues.trans ih

/-- The entries, nodes and edges that were sent are those that were kept. -/
structure Agrees (t : Trail) : Prop where
  log : t.events.toList.filterMap Event.entry? = t.log.toList
  visited : t.events.toList.filterMap Event.startedNode? = t.visited.toList
  traversed : t.events.toList.filterMap Event.takenEdge? = t.traversed.toList

theorem agrees_empty : empty.Agrees := ⟨rfl, rfl, rfl⟩

theorem Agrees.write (h : t.Agrees) : (t.write clock m).Agrees := by
  obtain ⟨hlog, hvisited, htraversed⟩ := h
  cases m <;> constructor <;>
    simp [Trail.write, emit, enter, visit, traverse, call, hlog, hvisited, htraversed, Event.entry?,
      Event.startedNode?, Event.takenEdge?]

theorem agrees_writeAll (h : t.Agrees) : (t.writeAll clock ms).Agrees := by
  induction ms generalizing t with
  | nil => exact h
  | cons m ms ih => exact ih h.write

end Trail

namespace Node

/-- The lines of a result of the node that counts: its remarks, and then its text or its branch. -/
def lines (n : Node) (o : Outcome) : List LogLine :=
  o.notes.map (.info · n.id) ++
    match n.kind with
    | .llm | .agent | .finish => o.text.toList.map (.output · n.id)
    | .condition | .classifier =>
      o.branch.toList.map fun branch => .info s!"{n.label} chose branch '{branch}'" n.id
    | .start => []

/-- A line of a result is about its node: it informs, or it puts out the text. -/
theorem of_mem_lines {n : Node} {o : Outcome} {line : LogLine} (h : line ∈ n.lines o) :
    line.nodeId = some n.id ∧
    (line.kind = .info ∨ line.kind = .output ∧ o.text = some line.message) := by
  rcases List.mem_append.mp h with hnote | htold
  · obtain ⟨note, _, rfl⟩ := List.mem_map.mp hnote
    exact ⟨rfl, .inl rfl⟩
  · cases hk : n.kind with
    -- the text is told as an output, a branch as a remark
    | llm | agent | finish =>
        simp only [hk, List.mem_map, Option.mem_toList] at htold
        obtain ⟨text, htext, rfl⟩ := htold
        exact ⟨rfl, .inr ⟨rfl, htext⟩⟩
    | condition | classifier =>
        simp only [hk, List.mem_map] at htold
        obtain ⟨branch, _, rfl⟩ := htold
        exact ⟨rfl, .inl rfl⟩
    | start => simp [hk] at htold

/-- The marks of a result of the node that counts. -/
def accepted (n : Node) (o : Outcome) : List Mark := (n.lines o).map .logged ++ [.completed n.id]

/-- The line with which a step at the node begins. -/
def heading (n : Node) : LogLine := .info s!"Executing node: {n.label} ({n.kind.displayName})" n.id

/-- The marks of the start of the node. -/
def entered (n : Node) : List Mark := [.started n.id, .logged n.heading]

end Node

namespace Walk

variable {w w' w'' : Walk} {n : Node} {ms ms' : List Mark}

/-! ### What the moves of a run write -/

/-- The walk has gone on and left the marks. -/
structure Writes (w : Walk) (ms : List Mark) (w' : Walk) : Prop where
  occasion : w'.occasion = w.occasion
  trail : w'.trail = w.trail.writeAll w.occasion.clock ms

theorem Writes.refl (w : Walk) : w.Writes [] w := ⟨rfl, rfl⟩

theorem Writes.trans (h : w.Writes ms w') (h' : w'.Writes ms' w'') : w.Writes (ms ++ ms') w'' where
  occasion := h'.occasion.trans h.occasion
  trail := by rw [h'.trail, h.occasion, h.trail, Trail.writeAll_append]

theorem Writes.continues (h : w.Writes ms w') : w'.trail.Continues w.trail := by
  rw [h.trail]
  exact Trail.writeAll_continues

theorem writes_record (kind : LogKind) (message : String) (nodeId : Option String) :
    w.Writes [.logged ⟨kind, message, nodeId⟩] (w.record kind message nodeId) := ⟨rfl, rfl⟩

/-- The marks of a whole run start from an empty trail. -/
theorem writes_start (occasion : Occasion) (workflowName startId input : String)
    (profile : Profile) :
    (⟨occasion, .start input profile, startId, .empty⟩ : Walk).Writes
      [.begun, .logged (.info s!"Starting run {occasion.runId} of '{workflowName}'" none),
        .logged ⟨.user, input, none⟩]
      (.start occasion workflowName startId input profile) := ⟨rfl, rfl⟩

theorem writes_enter : w.Writes n.entered (w.enter n) := ⟨rfl, rfl⟩

/-- The entry that a line becomes now. -/
def entry (w : Walk) (line : LogLine) : LogEntry :=
  ⟨w.occasion.clock w.trail.log.size, line.kind, line.message, line.nodeId⟩

theorem events_enter : (w.enter n).trail.events.toList =
    w.trail.events.toList ++ [.nodeStarted n.id, .log (w.entry n.heading)] := by
  simp [enter, info, record, Trail.enter, Trail.emit, Trail.visit, entry, Node.heading,
    LogLine.info]

theorem log_enter : (w.enter n).trail.log.toList = w.trail.log.toList ++ [w.entry n.heading] := by
  simp [enter, info, record, Trail.enter, Trail.emit, Trail.visit, entry, Node.heading,
    LogLine.info]

theorem writes_call (c : Call) : w.Writes [.called c] (w.call c) := ⟨rfl, rfl⟩

theorem writes_remark (notes : List String) :
    w.Writes ((notes.map (LogLine.info · n.id)).map .logged) (w.remark n notes) := by
  induction notes generalizing w with
  | nil => exact .refl w
  | cons note notes ih => exact (writes_record .info note n.id).trans ih

theorem writes_accept (n : Node) (o : Outcome) : w.Writes (n.accepted o) (w.accept n o) := by
  have hsent : ((w.remark n o.notes).tell n o).Writes [.completed n.id] (w.accept n o) := ⟨rfl, rfl⟩
  have htold := writes_remark (w := w) (n := n) o.notes
  rw [Node.accepted, Node.lines, List.map_append]
  refine .trans (htold.trans ?_) hsent
  -- between the remarks and the end of the step there is at most one line
  rw [tell]
  cases n.kind with
  | llm | agent | finish => cases o.text <;> exact ⟨rfl, rfl⟩
  | condition | classifier => cases o.branch <;> exact ⟨rfl, rfl⟩
  | start => exact .refl _

theorem writes_follow (e : Edge) : w.Writes [.taken e.id] (w.follow e) := ⟨rfl, rfl⟩

theorem writes_failed (error : String) :
    w.Writes [.logged (.error s!"Node {n.label} failed: {error}" n.id), .failed n.id error]
      (w.failed n error) := ⟨rfl, rfl⟩

end Walk

end AgentGraph
