import AgentGraph.Proofs.Run.Course

/-!
# Whole runs

A run that an executor accepts sets out from the start node, takes a course, and ends. `Journey`
puts these three together, and `run_of_valid` says that a workflow that is valid is always run,
unless a run is under way: nothing else can be refused, and every run that is not dropped gives a
report.

`Journey.outline` is the summary that statements about the graph need. In a valid workflow a run
halts between two steps only for a stop or for the ceiling; otherwise it halts at a node, which is
then the last one it started.
-/

namespace AgentGraph

/-- A run that started the node last may halt there in this way. -/
def Node.MayHalt (n : Node) : Option RunStatus → Prop
  | none => True
  | some .completed => n.kind = .finish
  | some (.deadEnd id) => id = n.id ∧ n.kind ≠ .finish
  | some (.failed id _) => id = n.id
  | some .stopped => True
  | some (.stepLimit _) => False

namespace Executor

variable {σ : Type} {x : Executor} {env : Environment σ}

/-! ### Beginning -/

theorem admission_eq_ok_iff {state : ExecutorState} {start : Node} :
    x.admission state = .ok start ↔
      x.workflow.Valid ∧ state ≠ .running ∧ x.workflow.startNode? = some start := by
  rw [Workflow.valid_iff_validate]
  cases hv : validate x.workflow.nodes x.workflow.edges with
  | error e => simp [admission, hv, Except.mapError, bind, Except.bind]
  | ok _ =>
      cases hstart : x.workflow.startNode? with
      | none => simp [admission, hv, hstart, Except.mapError, bind, Except.bind, throw, throwThe,
          MonadExceptOf.throw]
      | some n =>
          by_cases hs : state = .running
          · simp [admission, hv, hstart, hs, Except.mapError, bind, Except.bind, throw, throwThe,
              MonadExceptOf.throw]
          · simp [admission, hv, hstart, hs, Except.mapError, bind, Except.bind, pure, Except.pure]

theorem admission_of_invalid {state : ExecutorState} {e : ValidationError}
    (h : validate x.workflow.nodes x.workflow.edges = .error e) :
    x.admission state = .error (.invalidGraph e) := by
  simp [admission, h, Except.mapError, bind, Except.bind]

theorem admission_of_running (hv : x.workflow.Valid) :
    x.admission .running = .error .alreadyRunning := by
  obtain ⟨start, hstart⟩ := hv.exists_startNode?
  rw [Workflow.valid_iff_validate] at hv
  simp [admission, hv, hstart, Except.mapError, bind, Except.bind, throw, throwThe,
    MonadExceptOf.throw]

/-- The walk on which a run sets out. -/
def setOut (x : Executor) (occasion : Occasion) (task : Task) (start : Node) : Walk :=
  .start occasion x.workflow.name start.id task.input task.profile

/-- A whole run: from the start node it makes the passages, and then it ends. -/
inductive Journey (x : Executor) (env : Environment σ) (occasion : Occasion) (task : Task) (s : σ)
    (ps : List Passage) (f : Finish σ) : Prop where
  | mk {start : Node} {w : Walk} {s' : σ} {rest : Nat} :
      x.workflow.startNode? = some start → x.Course env (x.setOut occasion task start) s ps w s' →
      x.limits.maxSteps.toNat = ps.length + rest → x.Ends env rest w s' f →
      Journey x env occasion task s ps f

variable {occasion : Occasion} {task : Task} {s : σ} {ps : List Passage} {f : Finish σ}

/-- What came of a run that was accepted. -/
def attemptOf (f : Finish σ) : Attempt σ where
  result := .ok (f.status.map f.walk.report)
  events := f.walk.trail.events.toList ++ closing f.status
  calls := f.walk.trail.calls.toList
  state := .halted
  world := f.world

theorem run_of_admission {state : ExecutorState} {start : Node} (h : x.admission state = .ok start)
    (env : Environment σ) (occasion : Occasion) (task : Task) (s : σ) :
    x.run env state occasion task s =
      attemptOf (x.drive env x.limits.maxSteps.toNat (x.setOut occasion task start) s) := by
  simp only [run, h]
  rfl

/-- A run of a valid workflow is the journey from its start node. -/
theorem Journey.run_eq {state : ExecutorState} (hv : x.workflow.Valid) (hs : state ≠ .running)
    (h : x.Journey env occasion task s ps f) : x.run env state occasion task s = attemptOf f := by
  obtain ⟨hstart, hcourse, hlength, hends⟩ := h
  rename_i start w s' rest
  have hadmission : x.admission state = .ok start := admission_eq_ok_iff.mpr ⟨hv, hs, hstart⟩
  have hdrive : x.drive env x.limits.maxSteps.toNat (x.setOut occasion task start) s = f :=
    drive_eq_iff.mpr ⟨ps, rest, w, s', hcourse, hlength, hends⟩
  rw [run_of_admission hadmission, hdrive]

/-- **A valid workflow is run**, unless another run is under way. -/
theorem run_of_valid {state : ExecutorState} (hv : x.workflow.Valid) (hs : state ≠ .running)
    (env : Environment σ) (occasion : Occasion) (task : Task) (s : σ) :
    ∃ ps f, x.Journey env occasion task s ps f ∧
      x.run env state occasion task s = attemptOf f := by
  obtain ⟨start, hstart⟩ := hv.exists_startNode?
  obtain ⟨ps, rest, w, s', f, hcourse, hlength, hends⟩ :=
    x.exists_course env x.limits.maxSteps.toNat (x.setOut occasion task start) s
  have hjourney : x.Journey env occasion task s ps f := .mk hstart hcourse hlength hends
  exact ⟨ps, f, hjourney, hjourney.run_eq hv hs⟩

/-- A run that is not refused is one of a valid workflow, while no other run is under way. -/
theorem accepted_of_ok {state : ExecutorState} {result : Option Report}
    (h : (x.run env state occasion task s).result = .ok result) :
    x.workflow.Valid ∧ state ≠ .running := by
  rw [run] at h
  split at h
  next => cases h
  next start hadmission =>
    obtain ⟨hv, hs, _⟩ := admission_eq_ok_iff.mp hadmission
    exact ⟨hv, hs⟩

/-- A report comes from a run of a valid workflow. -/
theorem journey_of_report {state : ExecutorState} {r : Report}
    (h : (x.run env state occasion task s).result = .ok (some r)) :
    x.workflow.Valid ∧ ∃ ps f status, x.Journey env occasion task s ps f ∧
      f.status = some status ∧ r = f.walk.report status := by
  obtain ⟨hv, hs⟩ := accepted_of_ok h
  obtain ⟨ps, f, hjourney, hrun⟩ := run_of_valid hv hs env occasion task s
  rw [hrun, attemptOf, Except.ok.injEq, Option.map_eq_some_iff] at h
  obtain ⟨status, hstatus, hreport⟩ := h
  exact ⟨hv, ps, f, status, hjourney, hstatus, hreport.symm⟩

/-- Only a run whose model call is dropped has no status. -/
theorem Ends.exists_dropped {rest : Nat} {w : Walk} (h : x.Ends env rest w s f)
    (hnone : f.status = none) : ∃ s' call, (env.ask s' call).1 = none := by
  cases h with
  | dropped _ _ hperform =>
      cases perform_eq_iff.mp hperform with
      | done _ hresult => cases hresult
      | @asked call _ _ _ _ hask hresult =>
          have hanswer := Option.map_eq_none_iff.mp hresult.symm
          exact ⟨_, call, (congrArg Prod.fst hask).trans hanswer⟩
  | stopped | exhausted | lost | discarded | failed | completed | deadEnd => cases hnone

theorem Journey.exists_dropped (h : x.Journey env occasion task s ps f) (hnone : f.status = none) :
    ∃ s' call, (env.ask s' call).1 = none := by
  obtain ⟨_, _, _, hends⟩ := h
  exact hends.exists_dropped hnone

/-- A run is dropped while the model is called, or it has a status and is reported with it. -/
theorem Journey.dropped_or_reports (h : x.Journey env occasion task s ps f) :
    (attemptOf f).result = .ok none ∧ (∃ s' call, (env.ask s' call).1 = none) ∨
      ∃ status, f.status = some status ∧
      (attemptOf f).result = .ok (some (f.walk.report status)) := by
  rw [attemptOf]
  cases hstatus : f.status with
  | none => exact .inl ⟨rfl, h.exists_dropped hstatus⟩
  | some status => exact .inr ⟨status, rfl, rfl⟩

/-! ### Halting -/

/-- Where a run halts: between two steps, or at the node that it started last. -/
theorem Ends.outline {rest : Nat} {w : Walk} (h : x.Ends env rest w s f)
    (hcurrent : w.current ∈ x.workflow.nodes.map (·.id)) :
    f.walk.route = w.route ∧
        (f.status = some .stopped ∨ rest = 0 ∧ f.status = some (.stepLimit x.limits.maxSteps)) ∨
      ∃ n ∈ x.workflow.nodes, n.id = w.current ∧ 0 < rest ∧ f.walk.route = w.route.visit n.id ∧
        n.MayHalt f.status := by
  cases h with
  | stopped => exact .inl ⟨Walk.route_stopped, .inl rfl⟩
  | exhausted => exact .inl ⟨Walk.route_exhausted _, .inr ⟨rfl, rfl⟩⟩
  | lost _ hfind =>
      -- every edge of a valid workflow leads to a node
      obtain ⟨n, hn⟩ := Workflow.exists_findNode? hcurrent
      rw [hfind] at hn
      cases hn
  -- a node has been started, so it is the last one visited
  | @dropped _ _ _ _ _ _ n _ hfind hperform =>
      refine .inr ⟨n, Workflow.mem_of_findNode? hfind, Workflow.id_of_findNode? hfind,
        Nat.succ_pos _, ?_, trivial⟩
      show Walk.route _ = _
      rw [route_of_perform hperform, Walk.route_enter]
  | @discarded _ _ _ _ _ _ n _ hstep =>
      refine .inr ⟨n, hstep.node_mem, hstep.node_id, Nat.succ_pos _, ?_, trivial⟩
      rw [← hstep.route, Walk.route_discarded]
  | @failed _ _ _ _ _ _ n _ hstep =>
      refine .inr ⟨n, hstep.node_mem, hstep.node_id, Nat.succ_pos _, ?_, rfl⟩
      rw [← hstep.route, Walk.route_failed]
  | @completed _ _ _ _ _ _ n _ hstep _ hk =>
      refine .inr ⟨n, hstep.node_mem, hstep.node_id, Nat.succ_pos _, ?_, hk⟩
      rw [← hstep.route, Walk.route_completed, Walk.route_accept]
  | @deadEnd _ _ _ _ _ _ n _ hstep _ hk =>
      refine .inr ⟨n, hstep.node_mem, hstep.node_id, Nat.succ_pos _, ?_, rfl, hk⟩
      rw [← hstep.route, Walk.route_deadEnd, Walk.route_accept]

/-- **The outline of a run**: a path from the start node, and then a halt between two steps or at
the node to which the path leads. -/
theorem Journey.outline (hv : x.workflow.Valid) (h : x.Journey env occasion task s ps f) :
    ∃ start last, x.workflow.startNode? = some start ∧ x.workflow.Path start.id ps last ∧
      f.walk.route.traversed = ps.map (·.edge.id) ∧
      (f.walk.route.visited = ps.map (·.node.id) ∧ ps.length ≤ x.limits.maxSteps.toNat ∧
          (f.status = some .stopped ∨ ps.length = x.limits.maxSteps.toNat ∧
            f.status = some (.stepLimit x.limits.maxSteps)) ∨
        ∃ n ∈ x.workflow.nodes, n.id = last ∧ ps.length < x.limits.maxSteps.toNat ∧
          f.walk.route.visited = Workflow.stations ps n.id ∧ n.MayHalt f.status) := by
  obtain ⟨hstart, hcourse, hlength, hends⟩ := h
  rename_i start w s' rest
  have hpath : x.workflow.Path start.id ps w.current := hcourse.path
  have hmem : start.id ∈ x.workflow.nodes.map (·.id) :=
    List.mem_map_of_mem (Workflow.mem_of_startNode? hstart)
  obtain ⟨hvisited, htraversed⟩ := hcourse.route
  rw [setOut, Walk.route_start, List.nil_append] at hvisited htraversed
  refine ⟨start, w.current, hstart, hpath, ?_⟩
  rcases hends.outline (hpath.last_mem hv hmem) with ⟨hroute, hstatus⟩ |
    ⟨n, hn, hid, hrest, hroute, hstatus⟩
  -- between two nodes: what was started is what the passages left
  · rw [hroute]
    refine ⟨htraversed, .inl ⟨hvisited, by omega, ?_⟩⟩
    rcases hstatus with hstopped | ⟨rfl, hlimit⟩
    · exact .inl hstopped
    · exact .inr ⟨hlength.symm, hlimit⟩
  -- at a node: it is one station more
  · rw [hroute]
    refine ⟨htraversed, .inr ⟨n, hn, hid, by omega, ?_, hstatus⟩⟩
    rw [Workflow.stations, ← hvisited]
    rfl

end Executor

/-! ### An example -/

/-- The model always replies with the same text, and no stop is asked for. -/
def Environment.replying (text : String) : Environment Unit where
  ask := fun _ _ => (some (.reply (.ok (.ofContents [some text]))), ())
  stop := fun _ => (false, ())

/-- Runs of the help desk. -/
def Executor.helpdesk (second : String) : Executor := ⟨.helpdesk second, .empty, .default, "script"⟩

/-- The only message to the help desk. -/
def Executor.Task.hello : Executor.Task := ⟨"Hello", []⟩

end AgentGraph
