import AgentGraph.Proofs.Run.Arrival
import AgentGraph.Proofs.Run.Guard
import AgentGraph.Proofs.Workflow.Exploration

/-!
# Runs stay within reach

The linter and the executor go through a workflow in two ways. The linter takes every edge out of
every node that it sees; a run takes one edge at a time, the one that suits the branch chosen. So
whatever a run visits the linter has seen (`Executor.reaches_of_visits`), and it never takes a node
for unreachable that some run comes to.

`reachable_covers_runs` says this together with what the linter sees: exactly what edges lead to
from the start node (`Proofs.Workflow.Exploration`).
-/

namespace AgentGraph

/-! ### Nodes that a run visits -/

namespace Executor

variable {σ : Type} {x : Executor} {env : Environment σ} {state : ExecutorState}
    {occasion : Occasion} {task : Task}
  {s : σ} {ps : List Passage} {f : Finish σ} {id : String}

/-- The run visits the node: an observer is told that the node starts, or the report lists it. A run
that is dropped has no report. -/
def Attempt.Visits (a : Attempt σ) (id : String) : Prop :=
  .nodeStarted id ∈ a.events ∨ ∃ r, a.result = .ok (some r) ∧ id ∈ r.visitedNodes

theorem Journey.visits_iff (h : x.Journey env occasion task s ps f) :
    (attemptOf f).Visits id ↔ id ∈ f.walk.route.visited := by
  have hevents : .nodeStarted id ∈ (attemptOf f).events ↔ id ∈ f.walk.route.visited := by
    rw [← h.startedNodes, List.mem_filterMap]
    constructor
    · exact fun hstarted => ⟨_, hstarted, rfl⟩
    · rintro ⟨e, he, hstarted⟩
      cases e <;> simp [Event.startedNode?] at hstarted
      exact hstarted ▸ he
  rw [Attempt.Visits, hevents]
  -- the report lists the same nodes
  refine or_iff_left_of_imp ?_
  rintro ⟨r, hr, hid⟩
  rw [attemptOf, Except.ok.injEq, Option.map_eq_some_iff] at hr
  obtain ⟨status, _, rfl⟩ := hr
  exact hid

/-- Edges lead from the start node to every node on the way of a run. -/
theorem Journey.reaches (hv : x.workflow.Valid) (h : x.Journey env occasion task s ps f)
    (hid : id ∈ f.walk.route.visited) : x.workflow.Reaches id := by
  obtain ⟨start, last, hstart, hpath, _, hend⟩ := h.outline hv
  have hsub : f.walk.route.visited ⊆ Workflow.stations ps last := by
    rcases hend with ⟨hroute, _⟩ | ⟨n, _, rfl, _, hroute, _⟩
    · rw [hroute]
      exact List.subset_append_left _ _
    · rw [hroute]
      exact List.Subset.refl _
  exact ⟨start, hstart, hpath.reaches (hsub hid)⟩

/-- **A run visits only what can be reached.** -/
theorem reaches_of_visits (h : (x.run env state occasion task s).Visits id) :
    x.workflow.Reaches id := by
  cases hadmission : x.admission state with
  | error e =>
      rw [run_of_admission_error hadmission] at h
      rcases h with hstarted | ⟨r, hr, _⟩
      · cases hstarted
      · cases hr
  | ok start =>
      obtain ⟨hv, hs, _⟩ := admission_eq_ok_iff.mp hadmission
      obtain ⟨ps, f, hjourney, hrun⟩ := run_of_valid hv hs env occasion task s
      rw [hrun, hjourney.visits_iff] at h
      exact hjourney.reaches hv h

end Executor

/-! ### What the linter sees and what runs visit -/

namespace Workflow

/-- **What the linter takes for reachable is exact and covers every run.** In every workflow, valid
or not, it has no answer just when the number of start nodes is not one. Otherwise its walk comes to
its end, and has then seen the nodes that edges lead to from the start node, each once and no
others. Every node that a run visits is among them, so the linter does not warn there that the node
is unreachable. (An executor refuses a workflow that is not valid, and then no node is visited.) -/
theorem reachable_covers_runs (w : Workflow) :
    (w.reachable? = none ↔ w.nodes.countP (·.kind = .start) ≠ 1) ∧
    (∀ start, w.nodes.filter (·.kind = .start) = [start] → ∃ seen, w.reachable? = some seen ∧
      w.Explores [start.id] [start.id] seen ∧ seen.Nodup ∧
      ∀ id, id ∈ seen ↔ Relation.ReflTransGen w.Linked start.id id) ∧
    ∀ (agents : Registry) (limits : Limits) (model : String) {σ : Type} (env : Environment σ)
      (state : ExecutorState) (occasion : Occasion) (task : Executor.Task) (s : σ) (id : String),
      ((⟨w, agents, limits, model⟩ : Executor).run env state occasion task s).Visits id →
        (∃ seen, w.reachable? = some seen ∧ id ∈ seen) ∧
        ∀ n ∈ w.nodes, n.id = id → ∀ label, ¬ w.WarnsAt n (.unreachable label) := by
  refine ⟨reachable?_eq_none_iff.trans startNode?_eq_none_iff, fun start honly => ?_, ?_⟩
  · have hstart : w.startNode? = some start := startNode?_eq_some_iff.mpr honly
    obtain ⟨seen, hseen, hexplores, hfrontier⟩ := exists_reachable? hstart
    refine ⟨seen, hseen, hexplores, hfrontier.nodup, fun id => ?_⟩
    rw [hfrontier.mem_iff, reaches_iff hstart]
  · intro agents limits model σ env state occasion task s id hvisits
    -- a visited node is reached by the passages before it, and reached nodes are not warned about
    have hreach : w.Reaches id := Executor.reaches_of_visits hvisits
    refine ⟨mem_reachable?_iff.mpr hreach, ?_⟩
    rintro n hn rfl label hwarns
    obtain ⟨_, _, hunreached⟩ := (warnsAt_unreachable_iff hn).mp hwarns
    exact hunreached hreach

/-- A roundabout: a condition whose edges lead back to it, to the exit twice, and back to the start.
The side road only leads into it. -/
def roundabout (exit : String) : Workflow where
  id := .nil
  name := "Roundabout"
  nodes := [⟨"in", "", .origin, .start⟩, ⟨"turn", "", .origin, .condition .default⟩,
    ⟨"side", "", .origin, .agent .default⟩, ⟨"out", "", .origin, .finish⟩]
  edges := [⟨"enter", "in", "turn", none⟩, ⟨"again", "turn", "turn", some "True"⟩,
    ⟨"leave", "turn", exit, some "False"⟩, ⟨"leave too", "turn", exit, some "False"⟩,
    ⟨"back", "turn", "in", none⟩, ⟨"join", "side", "turn", none⟩]

/-- When the exit leads nowhere the walk ends all the same, and it has seen where the edge would
lead. When the exit leads to the end, the side road is warned of, and a run that goes around until
the ceiling stays among the nodes seen. -/
theorem roundabout_covered :
    (¬ (roundabout "nowhere").Valid ∧ ∃ seen, (roundabout "nowhere").reachable? = some seen ∧
      (roundabout "nowhere").Explores ["in"] ["in"] seen ∧ seen.Nodup ∧
      ∀ id, id ∈ seen ↔ Relation.ReflTransGen (roundabout "nowhere").Linked "in" id) ∧
    (roundabout "out").Valid ∧ .unreachable "Agent" ∈ (roundabout "out").lint ∧
    ((⟨roundabout "out", .empty, ⟨3, 60000⟩, "script"⟩ : Executor).run (.replying "Yes") .idle
      ⟨.nil, fun _ => 0⟩ .hello ()).Visits "turn" ∧
    (∃ seen, (roundabout "out").reachable? = some seen ∧ "turn" ∈ seen) ∧
    ∀ n ∈ (roundabout "out").nodes, n.id = "turn" →
      ∀ label, ¬ (roundabout "out").WarnsAt n (.unreachable label) := by
  have hvisits :
      ((⟨roundabout "out", .empty, ⟨3, 60000⟩, "script"⟩ : Executor).run (.replying "Yes") .idle
        ⟨.nil, fun _ => 0⟩ .hello ()).Visits "turn" :=
    .inr ⟨_, rfl, by decide⟩
  refine ⟨⟨by decide, ?_⟩, by decide, by decide +kernel, hvisits, ?_⟩
  · exact (reachable_covers_runs (roundabout "nowhere")).2.1 ⟨"in", "", .origin, .start⟩ (by decide)
  · exact (reachable_covers_runs (roundabout "out")).2.2 .empty ⟨3, 60000⟩ "script"
      (.replying "Yes") .idle ⟨.nil, fun _ => 0⟩ .hello () "turn" hvisits

end Workflow

end AgentGraph
