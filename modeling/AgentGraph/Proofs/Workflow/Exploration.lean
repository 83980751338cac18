import AgentGraph.Proofs.Workflow.Path

/-!
# What can be reached

Edges lead from the start node to some nodes and not to others (`Workflow.Reaches`). The linter
finds out which by a walk through the graph, breadth first. Here the walk is shown to find all of
them and nothing else, in every workflow with one start node, valid or not: identifiers may be
shared, and edges may lead back, to the node that they leave or to no node at all.

The linter gives its walk a number of turns. `Explores` is the walk without any bound, which ends
when the queue is empty, and `Frontier.explores_walk` says that the turns given are enough for that.
A turn takes one node from the queue, and a node is queued once, when it is seen first; so there are
no more turns than nodes seen, of which each is the start node or the target of an edge
(`Frontier.length_le`).

What holds between two turns is a `Frontier`. A turn keeps it, and when the queue is empty it says
that the nodes seen are those that can be reached (`Frontier.mem_iff`).
-/

namespace AgentGraph

namespace Workflow

variable {w : Workflow} {start : Node} {id a b : String} {seen queue seen' queue' : List String}

/-! ### What edges lead to -/

/-- Edges lead from the start node to the node. -/
def Reaches (w : Workflow) (id : String) : Prop :=
  ∃ start, w.startNode? = some start ∧ Relation.ReflTransGen w.Linked start.id id

theorem reaches_iff (hstart : w.startNode? = some start) :
    w.Reaches id ↔ Relation.ReflTransGen w.Linked start.id id := by
  simp [Reaches, hstart]

/-- Edges lead only to nodes. -/
theorem Reaches.mem (h : w.Reaches id) (hv : w.Valid) : id ∈ w.nodes.map (·.id) := by
  obtain ⟨start, hstart, hreach⟩ := h
  cases hreach with
  | refl => exact List.mem_map_of_mem (mem_of_startNode? hstart)
  | tail _ hlink =>
      obtain ⟨e, he, _, rfl⟩ := hlink
      exact hv.target_mem he

theorem Reaches.linked (h : w.Reaches a) (hlink : w.Linked a b) : w.Reaches b := by
  obtain ⟨start, hstart, hreach⟩ := h
  exact ⟨start, hstart, hreach.tail hlink⟩

/-- A run goes on among what can be reached. -/
theorem Reaches.follow? (h : w.Reaches id) {branch : Option String} {e : Edge}
    (hfollow : w.follow? id branch = some e) : w.Reaches e.target := by
  obtain ⟨he, hsource⟩ := mem_outgoing.mp (mem_outgoing_of_follow? hfollow)
  exact h.linked ⟨e, he, hsource, rfl⟩

/-- What contains the start node, and the target of every edge whose source it contains, contains
all that can be reached. -/
theorem Reaches.mem_of_closed (h : w.Reaches id) {ids : List String}
    (hstart : ∀ start ∈ w.startNode?, start.id ∈ ids)
    (hclosed : ∀ e ∈ w.edges, e.source ∈ ids → e.target ∈ ids) : id ∈ ids := by
  obtain ⟨start, hs, hreach⟩ := h
  induction hreach with
  | refl => exact hstart start hs
  | tail _ hlink ih =>
      obtain ⟨e, he, rfl, rfl⟩ := hlink
      exact hclosed e he ih

/-! ### One turn -/

/-- The nodes that the edges out of a node lead to, in order. -/
def targets (w : Workflow) (id : String) : List String := (w.outgoing id).map (·.target)

theorem mem_targets : b ∈ w.targets a ↔ w.Linked a b := by
  simp only [targets, Linked, List.mem_map, mem_outgoing, and_assoc]

/-- What is found are the nodes not seen before, each of them once. They are noted and queued. -/
theorem exists_found (ids seen queue : List String) :
    ∃ found, ids.foldl discover (seen, queue) = (seen ++ found, queue ++ found) ∧ found.Nodup ∧
      ∀ id, id ∈ found ↔ id ∈ ids ∧ id ∉ seen := by
  induction ids generalizing seen queue with
  | nil => exact ⟨[], by simp, List.nodup_nil, by simp⟩
  | cons first ids ih =>
      rw [List.foldl_cons, discover]
      -- a node that was seen before is not queued again
      by_cases hfirst : first ∈ seen
      · obtain ⟨found, hfold, hnodup, hmem⟩ := ih seen queue
        refine ⟨found, by rw [if_pos hfirst, hfold], hnodup, fun id => ?_⟩
        rw [hmem, List.mem_cons]
        constructor
        · exact fun ⟨hid, hnew⟩ => ⟨.inr hid, hnew⟩
        · rintro ⟨rfl | hid, hnew⟩
          · exact absurd hfirst hnew
          · exact ⟨hid, hnew⟩
      · obtain ⟨found, hfold, hnodup, hmem⟩ := ih (seen ++ [first]) (queue ++ [first])
        have hother : first ∉ found := by simp [hmem]
        refine ⟨first :: found, ?_, List.nodup_cons.mpr ⟨hother, hnodup⟩, fun id => ?_⟩
        · rw [if_neg hfirst, hfold, List.append_assoc, List.append_assoc, List.singleton_append]
        · rw [List.mem_cons, hmem, List.mem_cons, List.mem_append, List.mem_singleton]
          by_cases hid : id = first
          · simp [hid, hfirst]
          · simp [hid]

/-! ### The walk without a bound -/

/-- From here the walk comes to its end by itself, with nothing left in the queue, and has then seen
these nodes. -/
inductive Explores (w : Workflow) : (seen queue result : List String) → Prop where
  | done (seen : List String) : Explores w seen [] seen
  | turn {current : String} {seen queue seen' queue' result : List String} :
      (w.targets current).foldl discover (seen, queue) = (seen', queue') →
      Explores w seen' queue' result → Explores w seen (current :: queue) result

/-- What holds of the nodes seen and of those queued between two turns. -/
structure Frontier (w : Workflow) (seen queue : List String) : Prop where
  start_mem : ∀ start ∈ w.startNode?, start.id ∈ seen
  reached : ∀ id ∈ seen, w.Reaches id
  nodup : seen.Nodup
  queued : queue ⊆ seen
  /-- Of a node that has left the queue all edges have been looked at. -/
  settled : ∀ e ∈ w.edges, e.source ∈ seen → e.source ∉ queue → e.target ∈ seen

theorem frontier_start (hstart : w.startNode? = some start) : w.Frontier [start.id] [start.id] where
  start_mem := by
    intro start' hstart'
    rw [hstart, Option.mem_some_iff] at hstart'
    rw [hstart']
    exact List.mem_singleton_self _
  reached := by
    intro id hid
    rw [List.mem_singleton.mp hid]
    exact ⟨start, hstart, .refl⟩
  nodup := List.nodup_singleton _
  queued := List.Subset.refl _
  settled := fun _ _ hseen hleft => absurd hseen hleft

namespace Frontier

/-- **A turn keeps the frontier.** -/
theorem turn {current : String} (h : w.Frontier seen (current :: queue))
    (hturn : (w.targets current).foldl discover (seen, queue) = (seen', queue')) :
    w.Frontier seen' queue' := by
  obtain ⟨found, hfold, hnodup, hmem⟩ := exists_found (w.targets current) seen queue
  rw [hturn, Prod.mk.injEq] at hfold
  obtain ⟨rfl, rfl⟩ := hfold
  have hcurrent : current ∈ seen := h.queued List.mem_cons_self
  constructor
  case start_mem => exact fun start hstart => List.mem_append_left _ (h.start_mem start hstart)
  case reached =>
    intro id hid
    rcases List.mem_append.mp hid with hid | hid
    · exact h.reached id hid
    · have hlink : w.Linked current id := mem_targets.mp ((hmem id).mp hid).1
      exact (h.reached current hcurrent).linked hlink
  case nodup =>
    refine h.nodup.append hnodup fun id hid hagain => ?_
    exact ((hmem id).mp hagain).2 hid
  case queued =>
    intro id hid
    rcases List.mem_append.mp hid with hid | hid
    · exact List.mem_append_left _ (h.queued (List.mem_cons_of_mem _ hid))
    · exact List.mem_append_right _ hid
  -- the invariant that the walk is for: what has left the queue has its targets seen
  case settled =>
    intro e he hsource hleft
    rw [List.mem_append, not_or] at hleft
    have hseen : e.source ∈ seen := (List.mem_append.mp hsource).resolve_right hleft.2
    -- the node has left the queue in this turn or before
    by_cases hnow : e.source = current
    · by_cases htarget : e.target ∈ seen
      · exact List.mem_append_left _ htarget
      · exact List.mem_append_right _ ((hmem _).mpr ⟨mem_targets.mpr ⟨e, he, hnow, rfl⟩, htarget⟩)
    · have hbefore : e.source ∉ current :: queue := List.not_mem_cons_of_ne_of_not_mem hnow hleft.1
      exact List.mem_append_left _ (h.settled e he hseen hbefore)

/-- Besides the start node only targets of edges are seen. -/
theorem length_le (h : w.Frontier seen queue) (hstart : w.startNode? = some start) :
    seen.length ≤ w.edges.length + 1 := by
  have hsub : seen ⊆ start.id :: w.edges.map (·.target) := by
    intro id hid
    rcases ((reaches_iff hstart).mp (h.reached id hid)).cases_tail with rfl | ⟨_, _, e, he, _, rfl⟩
    · exact List.mem_cons_self
    · exact List.mem_cons_of_mem _ (List.mem_map_of_mem he)
  have hlength := (h.nodup.subperm hsub).length_le
  rwa [List.length_cons, List.length_map] at hlength

/-- **The walk is not cut off** when its turns are at least as many as the nodes that may still
leave the queue. -/
theorem explores_walk {fuel : Nat} (h : w.Frontier seen queue) (hstart : w.startNode? = some start)
    (hfuel : w.edges.length + 1 + queue.length ≤ fuel + seen.length) :
    w.Explores seen queue (walk w.edges fuel seen queue) := by
  induction fuel generalizing seen queue with
  | zero =>
      cases queue with
      | nil => exact .done seen
      | cons current queue =>
          -- the fuel is enough for all that can be seen
          have hlength := h.length_le hstart
          rw [List.length_cons] at hfuel
          omega
  | succ fuel ih =>
      cases queue with
      | nil => exact .done seen
      | cons current queue =>
          obtain ⟨found, hfold, _⟩ := exists_found (w.targets current) seen queue
          have hwalk : walk w.edges (fuel + 1) seen (current :: queue) =
              walk w.edges fuel (seen ++ found) (queue ++ found) := by
            rw [walk, ← outgoing, ← targets, hfold]
          rw [hwalk]
          -- what is found counts among the nodes seen as well as among those queued, so one node
          -- has left the queue
          refine .turn hfold (ih (h.turn hfold) ?_)
          rw [List.length_cons] at hfuel
          rw [List.length_append, List.length_append]
          omega

/-- When the queue is empty, all that can be reached has been seen, and nothing else. -/
theorem mem_iff (h : w.Frontier seen []) : id ∈ seen ↔ w.Reaches id := by
  constructor
  · exact h.reached id
  · intro hreach
    exact hreach.mem_of_closed h.start_mem fun e he hsource =>
      h.settled e he hsource List.not_mem_nil

end Frontier

/-- The whole walk keeps the frontier, until the queue is empty. -/
theorem Explores.frontier {result : List String} (h : w.Explores seen queue result)
    (hseen : w.Frontier seen queue) : w.Frontier result [] := by
  induction h with
  | done => exact hseen
  | turn hturn _ ih => exact ih (hseen.turn hturn)

/-! ### What the linter takes for reachable -/

theorem reachable?_eq_none_iff : w.reachable? = none ↔ w.startNode? = none := Option.map_eq_none_iff

theorem exists_reachable? (hstart : w.startNode? = some start) :
    ∃ seen, w.reachable? = some seen ∧ w.Explores [start.id] [start.id] seen ∧
    w.Frontier seen [] := by
  have hfrontier := frontier_start hstart
  have hexplores := hfrontier.explores_walk hstart (Nat.le_refl (w.edges.length + 1 + 1))
  refine ⟨_, ?_, hexplores, hexplores.frontier hfrontier⟩
  rw [reachable?, hstart, Option.map_some]

/-- **What the linter takes for reachable can be reached**, and all of it. -/
theorem mem_reachable?_iff : (∃ seen, w.reachable? = some seen ∧ id ∈ seen) ↔ w.Reaches id := by
  cases hs : w.startNode? with
  | none => simp [reachable?_eq_none_iff.mpr hs, Reaches, hs]
  | some start =>
      obtain ⟨seen, hseen, _, hfrontier⟩ := exists_reachable? hs
      simp [hseen, hfrontier.mem_iff]

/-- **The warning about a node that is never reached is exact**, as long as there is a start node to
reach it from. -/
theorem warnsAt_unreachable_iff {n : Node} (hn : n ∈ w.nodes) {label : String} :
    w.WarnsAt n (.unreachable label) ↔
      n.label = label ∧ (∃ start, w.startNode? = some start) ∧ ¬ w.Reaches n.id := by
  rw [WarnsAt, and_iff_right hn, unreachable_mem_lintNode]
  cases hs : w.startNode? with
  | none => simp [reachable?_eq_none_iff.mpr hs]
  | some start =>
      obtain ⟨seen, hseen, _, hfrontier⟩ := exists_reachable? hs
      simp [hseen, hfrontier.mem_iff]

end Workflow

end AgentGraph
