import AgentGraph.Proofs.Run.Occasion
import AgentGraph.Proofs.Workflow.Exploration

/-!
# The part of a workflow that a run can reach

A run goes from the start node along edges, so it comes only to nodes that edges lead to from there
(`Workflow.Reaches`). At such a node it looks up the node itself and the edges that leave it, each
by a search through the whole workflow, and finds nothing else. Two workflows that agree on what
these searches find are `SameAhead`; where they do not come their nodes and edges may be anything,
nodes may stand elsewhere, and edges may be listed in another order as long as those of one node
keep theirs.

`run_sameAhead` says that such workflows have the same runs. An executor on one of them imitates an
executor on the other one wherever a run can come, with contexts that are equal all the time.
-/

namespace AgentGraph

/-- A node does what its identifier, its label and its parameters say. -/
theorem Node.action_congr {n n' : Node} (hid : n'.id = n.id) (hlabel : n'.label = n.label)
    (hdata : n'.data = n.data) (agents : Registry) (ctx : Context) :
    n'.action agents ctx = n.action agents ctx := by
  rw [action, action, hid, hlabel, hdata]

/-- What is known of an edge besides the node that it leaves. -/
def Edge.exit (e : Edge) : String × String × Option String := (e.id, e.target, e.label)

namespace Workflow

variable {w w' : Workflow} {id : String}

/-! ### Workflows that agree there -/

/-- What is known of the edges that leave the node, in order. -/
def exits (w : Workflow) (id : String) : List (String × String × Option String) :=
  (w.outgoing id).map Edge.exit

theorem outgoing_eq_map_exits :
    w.outgoing id =
      (w.exits id).map fun (edgeId, target, label) => ⟨edgeId, id, target, label⟩ := by
  have hsame : ∀ e ∈ w.outgoing id, (⟨e.id, id, e.target, e.label⟩ : Edge) = e := by
    intro e he
    rw [← (mem_outgoing.mp he).2]
  rw [exits, List.map_map]
  exact ((List.map_congr_left hsame).trans (List.map_id _)).symm

/-- From the start node on the second workflow is the first one. -/
structure SameAhead (w w' : Workflow) : Prop where
  name : w'.name = w.name
  start : w'.startNode?.map (·.id) = w.startNode?.map (·.id)
  node : ∀ n ∈ w.nodes, w.Reaches n.id →
    ∃ n' ∈ w'.nodes, n'.id = n.id ∧ n'.label = n.label ∧ n'.data = n.data
  exits : ∀ id, w.Reaches id → w'.exits id = w.exits id

/-- It is enough to compare the workflows on nodes that include all that can be reached. -/
theorem SameAhead.of_closed (ids : List String) (hname : w'.name = w.name)
    (hstart : w'.startNode?.map (·.id) = w.startNode?.map (·.id))
    (hids : ∀ start ∈ w.startNode?, start.id ∈ ids)
    (hclosed : ∀ e ∈ w.edges, e.source ∈ ids → e.target ∈ ids)
    (hnode : ∀ n ∈ w.nodes, n.id ∈ ids →
      ∃ n' ∈ w'.nodes, n'.id = n.id ∧ n'.label = n.label ∧ n'.data = n.data)
    (hexits : ∀ id ∈ ids, w'.exits id = w.exits id) : w.SameAhead w' where
  name := hname
  start := hstart
  node := fun n hn hreach => hnode n hn (hreach.mem_of_closed hids hclosed)
  exits := fun id hreach => hexits id (hreach.mem_of_closed hids hclosed)

/-- The help desk after some work on it: its nodes have been moved, its edges are listed in another
order, and there is a back office that nothing leads to. -/
def backOffice : Workflow where
  id := ⟨1⟩
  name := "Help desk"
  nodes := [⟨"office", "Back office", .origin, .agent .default⟩,
    ⟨"out", "", ⟨.round false 40 1 0, .zero⟩, .finish⟩,
    ⟨"desk", "Desk", ⟨.round false 20 1 0, .zero⟩,
      .classifier ⟨["Sales", "Support"], "Route the message.", none⟩⟩,
    ⟨"in", "", .origin, .start⟩]
  edges := [⟨"sales", "desk", "out", some "Sales"⟩, ⟨"aside", "office", "desk", none⟩,
    ⟨"support", "desk", "out", some "Support"⟩, ⟨"ask", "in", "desk", none⟩]

theorem sameAhead_backOffice : (helpdesk "Support").SameAhead backOffice :=
  .of_closed ["in", "desk", "out"] rfl rfl (by decide) (by decide) (by decide) (by decide)

end Workflow

namespace Executor

open Workflow

variable {w w' : Workflow}

/-! ### Runs on both workflows -/

/-- **Where a run can come the two workflows look the same.** -/
theorem imitates_of_sameAhead (hv : w.Valid) (hv' : w'.Valid) (h : w.SameAhead w')
    (agents : Registry) (limits : Limits) (model : String) :
    (⟨w', agents, limits, model⟩ : Executor).Imitates ⟨w, agents, limits, model⟩ Eq w.Reaches where
  limits := rfl
  model := rfl
  missing := by
    -- no edge of a valid workflow leads to a node that is not there
    intro id hreach hnone
    obtain ⟨n, hn⟩ := exists_findNode? (hreach.mem hv)
    rw [hn] at hnone
    cases hnone
  node := by
    intro id n hreach hfind
    obtain rfl := id_of_findNode? hfind
    obtain ⟨n', hn', hid, hlabel, hdata⟩ := h.node n (mem_of_findNode? hfind) hreach
    refine ⟨n', hid ▸ hv'.findNode?_of_mem hn', hid, hlabel, ?_, ?_⟩
    · rw [Node.kind, Node.kind, hdata]
    · rintro ctx _ rfl
      exact Node.action_congr hid hlabel hdata agents ctx
  follow := by
    intro id branch hreach
    -- a reached node has the same exits in the same order
    have houtgoing : w'.outgoing id = w.outgoing id := by
      rw [outgoing_eq_map_exits, h.exits id hreach, ← outgoing_eq_map_exits]
    show w'.follow? id branch = w.follow? id branch
    cases branch <;> rw [Workflow.follow?, Workflow.follow?, houtgoing]
  onward := fun hreach hfollow => hreach.follow? hfollow
  apply := by
    rintro ctx _ patch rfl
    rfl

/-- **A run depends only on what it can reach.** -/
theorem run_sameAhead (hv : w.Valid) (hv' : w'.Valid) (h : w.SameAhead w') (agents : Registry)
    (limits : Limits) (model : String) {σ : Type} (env : Environment σ) (state : ExecutorState)
    (occasion occasion' : Occasion) (task : Task) (s : σ) :
    (⟨w', agents, limits, model⟩ : Executor).run env state occasion' task s =
      occasion'.attempt w.name
        ((⟨w, agents, limits, model⟩ : Executor).run env state occasion task s) := by
  by_cases hs : state = .running
  · -- a second run is refused, whatever the workflow
    have hrefused : (⟨w, agents, limits, model⟩ : Executor).admission .running = _ :=
      admission_of_running hv
    have hrefused' : (⟨w', agents, limits, model⟩ : Executor).admission .running = _ :=
      admission_of_running hv'
    subst hs
    rw [run, run, hrefused, hrefused']
    rfl
  · obtain ⟨start, hstart⟩ := hv.exists_startNode?
    obtain ⟨start', hstart'⟩ := hv'.exists_startNode?
    have hid : start'.id = start.id := by simpa [hstart, hstart'] using h.start
    have hreach : w.Reaches start.id := ⟨start, hstart, .refl⟩
    have houtput : ∀ ctx ctx' : Context, ctx = ctx' →
        ctx'.input = ctx.input ∧ ctx'.lastOutput = ctx.lastOutput := by
      rintro ctx _ rfl
      exact ⟨rfl, rfl⟩
    exact run_imitated (imitates_of_sameAhead hv hv' h agents limits model) hv hv' h.name hstart
      hstart' hid hreach rfl rfl houtput hs

/-- Both help desks handle a message in the same way. -/
theorem backOffice_runs_as_helpdesk :
    (⟨.backOffice, .empty, .default, "script"⟩ : Executor).run (.replying "Support") .idle
        ⟨⟨2⟩, fun place => place.toUInt64⟩ .hello () =
      Occasion.attempt ⟨⟨2⟩, fun place => place.toUInt64⟩ "Help desk"
        ((helpdesk "Support").run (.replying "Support") .idle ⟨.nil, fun _ => 0⟩ .hello ()) :=
  run_sameAhead (by decide) (by decide) sameAhead_backOffice .empty .default "script"
    (.replying "Support") .idle ⟨.nil, fun _ => 0⟩ ⟨⟨2⟩, fun place => place.toUInt64⟩ .hello ()

end Executor

end AgentGraph
