import AgentGraph.Proofs.Run.Action

/-!
# Where a run has been

The `Route` of a walk is the part of it that a report tells about the graph: the nodes started, the
edges taken, and the node that comes next. Of the moves of a run only two change it, `Walk.enter`
and `Walk.follow`. The others write to the log, send events or change the context.
-/

namespace AgentGraph

/-- The nodes a run has started, the edges it has taken, and the node that comes next. -/
structure Route where
  visited : List String
  traversed : List String
  current : String

namespace Route

/-- A node is started. -/
def visit (r : Route) (nodeId : String) : Route := { r with visited := r.visited ++ [nodeId] }

/-- An edge is taken. -/
def traverse (r : Route) (e : Edge) : Route :=
  { r with traversed := r.traversed ++ [e.id], current := e.target }

end Route

namespace Walk

def route (w : Walk) : Route := ⟨w.trail.visited.toList, w.trail.traversed.toList, w.current⟩

variable {w : Walk} {n : Node}

/-! ### Moves that change the route -/

@[simp]
theorem route_start (occasion : Occasion) (workflowName startId input : String)
    (profile : Profile) :
    (start occasion workflowName startId input profile).route = ⟨[], [], startId⟩ := rfl

@[simp]
theorem route_enter : (w.enter n).route = w.route.visit n.id := by
  simp [route, Route.visit, enter, info, record, Trail.enter, Trail.emit, Trail.visit]

@[simp]
theorem route_follow (e : Edge) : (w.follow e).route = w.route.traverse e := by
  simp [route, Route.traverse, follow, Trail.traverse, Trail.emit]

/-! ### Moves that do not -/

@[simp]
theorem route_emit (e : Event) : (w.emit e).route = w.route := rfl

@[simp]
theorem route_record (kind : LogKind) (message : String) (nodeId : Option String) :
    (w.record kind message nodeId).route = w.route := rfl

@[simp]
theorem route_info (message : String) (nodeId : Option String) :
    (w.info message nodeId).route = w.route := rfl

@[simp]
theorem route_call (c : Call) : (w.call c).route = w.route := rfl

@[simp]
theorem route_change (patch : Patch) : (w.change patch).route = w.route := rfl

@[simp]
theorem route_remark (notes : List String) : (w.remark n notes).route = w.route := by
  induction notes generalizing w with
  | nil => rfl
  | cons note notes ih =>
      show ((w.info note n.id).remark n notes).route = w.route
      rw [ih, route_info]

@[simp]
theorem route_tell (o : Outcome) : (w.tell n o).route = w.route := by
  rw [tell]
  split
  · cases o.text <;> rfl
  · cases o.text <;> rfl
  · cases o.text <;> rfl
  · cases o.branch <;> rfl
  · cases o.branch <;> rfl
  · rfl

@[simp]
theorem route_accept (o : Outcome) : (w.accept n o).route = w.route := by
  rw [accept, route_emit, route_change, route_tell, route_remark]

@[simp]
theorem route_stopped : w.stopped.route = w.route := rfl

@[simp]
theorem route_discarded : (w.discarded n).route = w.route := rfl

@[simp]
theorem route_exhausted (maxSteps : UInt64) : (w.exhausted maxSteps).route = w.route := rfl

@[simp]
theorem route_lost : w.lost.route = w.route := rfl

@[simp]
theorem route_failed (error : String) : (w.failed n error).route = w.route := rfl

@[simp]
theorem route_completed : (w.completed n).route = w.route := rfl

@[simp]
theorem route_deadEnd (branch : Option String) : (w.deadEnd n branch).route = w.route := rfl

/-! ### What a report shows of it -/

theorem visitedNodes_report (status : RunStatus) :
    (w.report status).visitedNodes = w.route.visited := rfl

end Walk

/-- A step starts its node once, whether it asks the model or not, and goes nowhere. -/
theorem Executor.route_of_perform {σ : Type} {x : Executor} {env : Environment σ} {w w' : Walk}
    {n : Node} {s s' : σ} {result : Option (Except StepError Outcome)}
    (h : x.perform env w n s = (result, w', s')) : w'.route = w.route := by
  cases perform_eq_iff.mp h with
  | done => rfl
  | asked => exact Walk.route_call _

end AgentGraph
