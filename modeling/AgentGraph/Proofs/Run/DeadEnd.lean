import AgentGraph.Proofs.Run.Journey

/-!
# Dead ends are foreseen

A run halts in a dead end when no edge leads on from the node that it started last. Whatever the
node chose there, it is one of the choices that the linter went through (`Step.mayChoose`), so the
linter has warned of that very node: `run_deadEnd_foreseen`. A workflow without such warnings has no
run that ends this way.

The other direction does not hold, since a warning may be about a branch that no run chooses, or be
false (see `Proofs.Workflow.Lint`).
-/

namespace AgentGraph

namespace Executor

variable {σ : Type} {x : Executor} {env : Environment σ} {occasion : Occasion} {task : Task} {s : σ}
  {ps : List Passage} {f : Finish σ}

/-- After the passages a run takes a step at the node, with the given result. -/
inductive StepAfter (x : Executor) (env : Environment σ) (occasion : Occasion) (task : Task) (s : σ)
    (ps : List Passage) (n : Node) (result : Except StepError Outcome) : Prop where
  | mk {start : Node} {w w' : Walk} {s₁ s₂ : σ} :
      x.workflow.startNode? = some start → x.Course env (x.setOut occasion task start) s ps w s₁ →
      x.Step env w s₁ n result w' s₂ → StepAfter x env occasion task s ps n result

/-- A run that halts in a dead end has taken a step there, and no edge leads on. -/
theorem Ends.of_deadEnd {rest : Nat} {w : Walk} {id : String} (h : x.Ends env rest w s f)
    (hdead : f.status = some (.deadEnd id)) :
    ∃ n o w' s', x.Step env w s n (.ok o) w' s' ∧ n.id = id ∧ n.kind ≠ .finish ∧
      x.workflow.follow? n.id o.branch = none ∧ f.walk.route = w.route.visit n.id := by
  cases h with
  | @deadEnd _ _ w' _ s' _ n o hstep _ hk hfollow =>
      rw [Option.some.injEq, RunStatus.deadEnd.injEq] at hdead
      refine ⟨n, o, w', s', hstep, hdead, hk, hfollow, ?_⟩
      rw [← hstep.route, Walk.route_deadEnd, Walk.route_accept]
  | stopped | exhausted | lost | dropped | discarded | failed | completed => cases hdead

theorem Journey.of_deadEnd {id : String} (h : x.Journey env occasion task s ps f)
    (hdead : f.status = some (.deadEnd id)) :
    ∃ n o, x.StepAfter env occasion task s ps n (.ok o) ∧ n ∈ x.workflow.nodes ∧ n.id = id ∧
      n.kind ≠ .finish ∧ n.MayChoose o.branch ∧ x.workflow.follow? n.id o.branch = none ∧
      f.walk.route.visited = Workflow.stations ps n.id := by
  obtain ⟨hstart, hcourse, _, hends⟩ := h
  obtain ⟨n, o, w', s', hstep, hid, hk, hfollow, hroute⟩ := hends.of_deadEnd hdead
  refine ⟨n, o, .mk hstart hcourse hstep, hstep.node_mem, hid, hk, hstep.mayChoose, hfollow, ?_⟩
  rw [hroute, Route.visit, hcourse.route.1, setOut, Walk.route_start]
  rfl

/-- **The linter foresees every dead end.** When a run halts in a dead end, it has taken its last
step at that node, and the linter warns of the node and of the branch that the step chose. -/
theorem run_deadEnd_foreseen {state : ExecutorState} {r : Report} {id : String}
    (h : (x.run env state occasion task s).result = .ok (some r)) (hdead : r.status = .deadEnd id) :
    ∃ ps n o, x.StepAfter env occasion task s ps n (.ok o) ∧
      r.visitedNodes = Workflow.stations ps n.id ∧ n.id = id ∧ x.workflow.Foresees n o.branch := by
  obtain ⟨_, ps, f, status, hjourney, hstatus, rfl⟩ := journey_of_report h
  have hends : f.status = some (.deadEnd id) := by
    rw [hstatus]
    exact congrArg some hdead
  obtain ⟨n, o, hstep, hn, hid, hk, hchoice, hfollow, hvisited⟩ := hjourney.of_deadEnd hends
  refine ⟨ps, n, o, hstep, hvisited, hid, ?_⟩
  exact Workflow.foresees_of_follow?_eq_none hn hk hchoice hfollow

/-- The second department of this help desk is called `Other`, and no edge says so. -/
theorem helpdesk_deadEnd_foreseen :
    ∃ r, ((helpdesk "Other").run (.replying "Other") .idle ⟨.nil, fun _ => 0⟩ .hello ()).result =
        .ok (some r) ∧ r.status = .deadEnd "desk" ∧
      ∃ ps n o, (helpdesk "Other").StepAfter (.replying "Other") ⟨.nil, fun _ => 0⟩ .hello () ps n
          (.ok o) ∧ r.visitedNodes = Workflow.stations ps n.id ∧ n.id = "desk" ∧
        (Workflow.helpdesk "Other").Foresees n o.branch := by
  obtain ⟨r, hr, hdead⟩ : ∃ r, ((helpdesk "Other").run (.replying "Other") .idle
      ⟨.nil, fun _ => 0⟩ .hello ()).result = .ok (some r) ∧ r.status = .deadEnd "desk" :=
    ⟨_, rfl, rfl⟩
  exact ⟨r, hr, hdead, run_deadEnd_foreseen hr hdead⟩

end Executor

end AgentGraph
