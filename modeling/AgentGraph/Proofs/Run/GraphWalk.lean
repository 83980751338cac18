import AgentGraph.Proofs.Run.Journey

/-!
# A run is a walk of its graph

What a report tells about the graph can be checked against the graph alone. `Report.IsWalk` lists
what there is to check: the walk begins at the start node, each edge taken leaves the node visited
before it and enters the one visited after it, it is the first edge that may be taken there, and
nothing follows an end node. `run_isWalk` says that all of it holds for every run, however the model
answers and whenever a stop is asked for.
-/

namespace AgentGraph

/-- The account tells a walk of the workflow that makes the given passages. -/
structure Report.IsWalk (r : Report) (w : Workflow) (limits : Limits) (ps : List Passage) :
    Prop where
  begins : r.visitedNodes = [] ∨
    ∃ start, w.startNode? = some start ∧ r.visitedNodes.head? = some start.id
  bounded : r.visitedNodes.length ≤ limits.maxSteps.toNat
  traversed : r.traversedEdges = ps.map (·.edge.id)
  lengths : r.visitedNodes.length = r.traversedEdges.length ∨
    r.visitedNodes.length = r.traversedEdges.length + 1
  /-- A passage leads from the node visited at its place to the one visited next. -/
  joins : ∀ i p, ps[i]? = some p → p.node ∈ w.nodes ∧ p.edge ∈ w.edges ∧
    r.visitedNodes[i]? = some p.node.id ∧ p.edge.source = p.node.id ∧
    ∀ next, r.visitedNodes[i + 1]? = some next → p.edge.target = next
  /-- A node that does not branch is left by its first edge. -/
  unbranched : ∀ p ∈ ps, p.node.kind = .start ∨ p.node.kind = .llm ∨ p.node.kind = .agent →
    w.FirstOut p.node.id (fun _ => True) p.edge
  /-- A branching node is left by the first edge that carries the branch it chose. -/
  branched : ∀ p ∈ ps, p.node.kind = .condition ∨ p.node.kind = .classifier →
    ∃ branch, p.branch = some branch ∧ w.FirstOut p.node.id (·.Carries branch) p.edge
  /-- An end node comes last, and no edge is taken after it. -/
  finish_last : ∀ n ∈ w.nodes, n.kind = .finish → ∀ i, r.visitedNodes[i]? = some n.id →
    i + 1 = r.visitedNodes.length ∧ i = r.traversedEdges.length
  finish_kept : ∀ n ∈ w.nodes, n.kind = .finish → ∀ e ∈ w.edges, e.source = n.id →
    e.id ∉ r.traversedEdges
  completed : r.status = .completed →
    ∃ n ∈ w.nodes, n.kind = .finish ∧ r.visitedNodes.getLast? = some n.id
  deadEnd : ∀ id, r.status = .deadEnd id → r.visitedNodes.getLast? = some id ∧
    r.visitedNodes.length = r.traversedEdges.length + 1
  failed : ∀ id error, r.status = .failed id error → r.visitedNodes.getLast? = some id ∧
    r.visitedNodes.length = r.traversedEdges.length + 1
  stepLimit : ∀ m, r.status = .stepLimit m → m = limits.maxSteps ∧
    r.visitedNodes.length = limits.maxSteps.toNat

namespace Workflow

variable {w : Workflow} {a b : String} {ps : List Passage}

theorem length_stations : (stations ps b).length = ps.length + 1 := by
  rw [stations, List.length_append, List.length_map, List.length_singleton]

theorem getElem?_stations_of_passage {i : Nat} {p : Passage} (hp : ps[i]? = some p) :
    (stations ps b)[i]? = some p.node.id := by
  obtain ⟨hi, _⟩ := List.getElem?_eq_some_iff.mp hp
  rw [stations, List.getElem?_append_left (by rwa [List.length_map]), List.getElem?_map, hp,
    Option.map_some]

/-- An end node is no station but the last. -/
theorem Path.length_le_of_finish (hv : w.Valid) (h : w.Path a ps b) {n : Node} (hn : n ∈ w.nodes)
    (hk : n.kind = .finish) {i : Nat} (hi : (stations ps b)[i]? = some n.id) : ps.length ≤ i := by
  by_contra hlt
  obtain ⟨p, hp⟩ : ∃ p, ps[i]? = some p := ⟨_, List.getElem?_eq_getElem (by omega)⟩
  rw [getElem?_stations_of_passage hp, Option.some.injEq] at hi
  have hallowed := h.allowed (List.mem_of_getElem? hp)
  apply hallowed.not_finish
  rw [hv.node_ext hallowed.node_mem hn hi]
  exact hk

/-- No passage takes an edge out of an end node. -/
theorem Path.not_mem_of_finish (hv : w.Valid) (h : w.Path a ps b) {n : Node} (hn : n ∈ w.nodes)
    (hk : n.kind = .finish) {e : Edge} (he : e ∈ w.edges) (hsource : e.source = n.id) :
    e.id ∉ ps.map (·.edge.id) := by
  intro hmem
  obtain ⟨p, hp, hid⟩ := List.mem_map.mp hmem
  have hallowed := h.allowed hp
  have hedge : p.edge = e := hv.edge_ext hallowed.edge_mem he hid
  have hnode : p.node = n := by
    apply hv.node_ext hallowed.node_mem hn
    rw [← hallowed.edge_source, hedge, hsource]
  apply hallowed.not_finish
  rw [hnode]
  exact hk

end Workflow

/-- The run halts between two steps, for a stop or for the ceiling, or at the node to which its
passages lead. -/
def Report.HaltsAfter (r : Report) (w : Workflow) (limits : Limits) (ps : List Passage) : Prop :=
  r.status = .stopped ∨
  r.status = .stepLimit limits.maxSteps ∧ ps.length = limits.maxSteps.toNat ∨
  ∃ n ∈ w.nodes, r.visitedNodes = Workflow.stations ps n.id ∧ n.MayHalt (some r.status)

/-- A run that neither stopped nor reached the ceiling halts at the node it visited last. -/
theorem Report.HaltsAfter.exists_last {r : Report} {w : Workflow} {limits : Limits}
    {ps : List Passage} (h : r.HaltsAfter w limits ps) (hstopped : r.status ≠ .stopped)
    (hlimit : ∀ m, r.status ≠ .stepLimit m) :
    ∃ n ∈ w.nodes, n.MayHalt (some r.status) ∧ r.visitedNodes.getLast? = some n.id ∧
      r.visitedNodes.length = ps.length + 1 := by
  rcases h with hs | ⟨hs, _⟩ | ⟨n, hn, hvisited, hhalt⟩
  · exact absurd hs hstopped
  · exact absurd hs (hlimit _)
  · refine ⟨n, hn, hhalt, ?_, ?_⟩
    · rw [hvisited, Workflow.stations, List.getLast?_concat]
    · rw [hvisited, Workflow.length_stations]

open Workflow in
/-- An account is a walk when it visits the stations of a path, or all of them but the last, and
halts in a way that suits the last. -/
theorem Report.isWalk_of_path {r : Report} {w : Workflow} {limits : Limits} {start : Node}
    {last : String} {ps : List Passage} (hv : w.Valid) (hstart : w.startNode? = some start)
    (hpath : w.Path start.id ps last) (htraversed : r.traversedEdges = ps.map (·.edge.id))
    (hvisits : r.visitedNodes <+: stations ps last) (hlength : ps.length ≤ r.visitedNodes.length)
    (hbounded : r.visitedNodes.length ≤ limits.maxSteps.toNat)
    (hhalts : r.HaltsAfter w limits ps) :
    r.IsWalk w limits ps := by
  obtain ⟨rest, hrest⟩ := hvisits
  -- the stations are one more than the passages, and the visits are the first of them
  have hlengths : r.visitedNodes.length ≤ ps.length + 1 := by
    rw [← length_stations (b := last), ← hrest, List.length_append]
    exact Nat.le_add_right _ _
  have htaken : r.traversedEdges.length = ps.length := by rw [htraversed, List.length_map]
  -- what is visited at some place is the station at that place
  have hstation : ∀ {i : Nat} {id : String}, r.visitedNodes[i]? = some id →
      (stations ps last)[i]? = some id := by
    intro i id hi
    obtain ⟨hlt, _⟩ := List.getElem?_eq_some_iff.mp hi
    rw [← hrest, List.getElem?_append_left hlt, hi]
  constructor
  case begins =>
    cases hvisited : r.visitedNodes with
    | nil => exact .inl rfl
    | cons id ids =>
        refine .inr ⟨start, hstart, ?_⟩
        rw [← hpath.head?_stations, ← hrest, hvisited, List.cons_append, List.head?_cons,
          List.head?_cons]
  case bounded => exact hbounded
  case traversed => exact htraversed
  case lengths => omega
  -- each passage leaves the station at its place for the next one
  case joins =>
    intro i p hp
    have hallowed := hpath.allowed (List.mem_of_getElem? hp)
    obtain ⟨hi, _⟩ := List.getElem?_eq_some_iff.mp hp
    refine ⟨hallowed.node_mem, hallowed.edge_mem, ?_, hallowed.edge_source, fun next hnext => ?_⟩
    · rw [← getElem?_stations_of_passage (b := last) hp, ← hrest,
        List.getElem?_append_left (by omega)]
    · rw [← Option.some.injEq, ← hpath.getElem?_stations hp, hstation hnext]
  case unbranched =>
    intro p hp hk
    apply ((hpath.allowed hp).firstOut_of_not_branching ?_).2
    rcases hk with hk | hk | hk <;> simp [hk]
  case branched =>
    intro p hp hk
    exact (hpath.allowed hp).firstOut_of_branching hk
  -- no edge leaves an end node, so it is the last station
  case finish_last =>
    intro n hn hk i hi
    have hle := hpath.length_le_of_finish hv hn hk (hstation hi)
    obtain ⟨hlt, _⟩ := List.getElem?_eq_some_iff.mp hi
    omega
  case finish_kept =>
    intro n hn hk e he hsource
    rw [htraversed]
    exact hpath.not_mem_of_finish hv hn hk he hsource
  -- the statuses: the node that the run halts at is the one after the last edge
  case completed =>
    intro hcompleted
    obtain ⟨n, hn, hhalt, hlast, _⟩ :=
      hhalts.exists_last (by simp [hcompleted]) (by simp [hcompleted])
    rw [hcompleted] at hhalt
    exact ⟨n, hn, hhalt, hlast⟩
  case deadEnd =>
    intro id hdead
    obtain ⟨n, _, hhalt, hlast⟩ := hhalts.exists_last (by simp [hdead]) (by simp [hdead])
    rw [hdead] at hhalt
    rw [htaken, hhalt.1]
    exact hlast
  case failed =>
    intro id error hfailed
    obtain ⟨n, _, hhalt, hlast⟩ := hhalts.exists_last (by simp [hfailed]) (by simp [hfailed])
    rw [hfailed] at hhalt
    rw [htaken, show id = n.id from hhalt]
    exact hlast
  -- only a run between two nodes meets the ceiling
  case stepLimit =>
    intro m hm
    rcases hhalts with hs | ⟨hs, hceiling⟩ | ⟨n, _, _, hhalt⟩
    · rw [hm] at hs
      cases hs
    · rw [hm, RunStatus.stepLimit.injEq] at hs
      exact ⟨hs, by omega⟩
    · rw [hm] at hhalt
      exact hhalt.elim

namespace Executor

variable {σ : Type} {x : Executor} {env : Environment σ} {occasion : Occasion} {task : Task} {s : σ}
  {ps : List Passage} {f : Finish σ}

/-- Whatever status a run of a valid workflow has, its report is a walk. -/
theorem Journey.isWalk (hv : x.workflow.Valid) (h : x.Journey env occasion task s ps f)
    {status : RunStatus} (hstatus : f.status = some status) :
    (f.walk.report status).IsWalk x.workflow x.limits ps := by
  obtain ⟨start, last, hstart, hpath, htraversed, hend⟩ := h.outline hv
  rcases hend with ⟨hroute, hle, hbetween⟩ | ⟨n, hn, hlast, hlt, hroute, hhalt⟩
  -- the run ended between two nodes, so the last station was never visited
  · apply Report.isWalk_of_path hv hstart hpath htraversed
    · rw [Walk.visitedNodes_report, hroute]
      exact List.prefix_append _ _
    · rw [Walk.visitedNodes_report, hroute, List.length_map]
    · rw [Walk.visitedNodes_report, hroute, List.length_map]
      exact hle
    · rw [hstatus] at hbetween
      rcases hbetween with hstopped | ⟨hlength, hlimit⟩
      · exact .inl (Option.some.inj hstopped)
      · exact .inr (.inl ⟨Option.some.inj hlimit, hlength⟩)
  -- the run ended at a node, which is the last station
  · apply Report.isWalk_of_path hv hstart hpath htraversed
    · have hall : (f.walk.report status).visitedNodes = Workflow.stations ps last := by
        rw [Walk.visitedNodes_report, hroute, hlast]
      exact hall ▸ List.prefix_rfl
    · rw [Walk.visitedNodes_report, hroute, Workflow.length_stations]
      exact Nat.le_succ _
    · rw [Walk.visitedNodes_report, hroute, Workflow.length_stations]
      exact hlt
    · rw [hstatus] at hhalt
      exact .inr (.inr ⟨n, hn, hroute, hhalt⟩)

/-- **Every run is a walk of its graph.** A valid workflow is run unless another run is under way.
Then either the run is dropped while the model is called, or there is a report, and it tells a walk
that makes the passages of the run. -/
theorem run_isWalk (hv : x.workflow.Valid) {state : ExecutorState} (hs : state ≠ .running)
    (env : Environment σ) (occasion : Occasion) (task : Task) (s : σ) :
    ∃ ps f, x.Journey env occasion task s ps f ∧
      ((x.run env state occasion task s).result = .ok none ∧
          (∃ s' call, (env.ask s' call).1 = none) ∨
        ∃ r, (x.run env state occasion task s).result = .ok (some r) ∧
          r.IsWalk x.workflow x.limits ps) := by
  obtain ⟨ps, f, hjourney, hrun⟩ := run_of_valid hv hs env occasion task s
  refine ⟨ps, f, hjourney, ?_⟩
  rw [hrun]
  refine hjourney.dropped_or_reports.imp_right ?_
  rintro ⟨status, hstatus, hresult⟩
  exact ⟨_, hresult, hjourney.isWalk hv hstatus⟩

/-- A message for the second department walks through the three nodes of the help desk. -/
theorem helpdesk_isWalk :
    ∃ ps r,
      ((helpdesk "Support").run (.replying "Support") .idle ⟨.nil, fun _ => 0⟩ .hello ()).result =
        .ok (some r) ∧
      r.visitedNodes = ["in", "desk", "out"] ∧ r.IsWalk (.helpdesk "Support") .default ps := by
  obtain ⟨ps, _, _, ⟨hnone, _⟩ | ⟨r, hr, hwalk⟩⟩ :=
    run_isWalk (x := helpdesk "Support") (by decide) (show ExecutorState.idle ≠ .running by decide)
      (.replying "Support") ⟨.nil, fun _ => 0⟩ .hello ()
  · cases hnone
  · refine ⟨ps, r, hr, ?_, hwalk⟩
    cases hr
    rfl

end Executor

end AgentGraph
