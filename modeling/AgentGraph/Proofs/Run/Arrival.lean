import AgentGraph.Proofs.Run.DeadEnd
import AgentGraph.Proofs.Run.Story

/-!
# The steps of a run, one by one

Some properties of a run are about each of its steps, the last one included, which may have been cut
short and is then no passage. `Arrives` says how a run gets to a step: it has made some passages, no
stop is seen, and it starts the node that comes next. Every node that the events say was started was
started this way, after as many passages as nodes were started before it (`Journey.exists_arrival`).

The steps of the passages are completed, and so is the last step of a run that ends in order. So the
step that is completed after some others is the step after the passages of those
(`Journey.exists_completion`): an edge is taken from there, unless it is an end node or a dead end.
-/

namespace AgentGraph

/-- What a list shows with one more element is one of its own, or the last. -/
theorem getElem?_concat_eq_some {α : Type} {as : List α} {a b : α} {k : Nat}
    (h : (as ++ [a])[k]? = some b) : as[k]? = some b ∨ k = as.length ∧ a = b := by
  rw [List.getElem?_append] at h
  split at h
  next => exact .inl h
  next hk =>
    obtain ⟨hlast, hab⟩ := List.getElem?_eq_some_iff.mp h
    rw [List.length_singleton] at hlast
    exact .inr ⟨by omega, by simpa using hab⟩

/-! ### Completed nodes -/

def Event.completedNode? : Event → Option String
  | nodeCompleted id => some id
  | _ => none

def Mark.completedNode? : Mark → Option String
  | completed id => some id
  | _ => none

@[simp]
theorem Mark.filterMap_completedNode?_map_logged (lines : List LogLine) :
    (lines.map logged).filterMap completedNode? = [] := by
  simp [completedNode?]

/-- The nodes that were completed. -/
def Trail.completions (t : Trail) : List String := t.events.toList.filterMap Event.completedNode?

@[simp]
theorem Trail.completions_writeAll {clock : Nat → UInt64} {t : Trail} {ms : List Mark} :
    (t.writeAll clock ms).completions = t.completions ++ ms.filterMap Mark.completedNode? := by
  apply view_writeAll completions
  intro t m
  cases m <;> simp [completions, write, emit, enter, visit, traverse, call, Mark.completedNode?,
    Event.completedNode?]

theorem Walk.Writes.completions {w w' : Walk} {ms : List Mark} (h : w.Writes ms w') :
    w'.trail.completions = w.trail.completions ++ ms.filterMap Mark.completedNode? := by
  rw [h.trail, Trail.completions_writeAll]

namespace Node

variable {n : Node} {agents : Registry} {ctx : Context} {o : Outcome}

@[simp]
theorem filterMap_completedNode?_begun :
    (n.begun agents ctx).filterMap Mark.completedNode? = [] := by
  rw [begun]
  cases n.call? agents ctx <;> rfl

@[simp]
theorem filterMap_completedNode?_accepted :
    (n.accepted o).filterMap Mark.completedNode? = [n.id] := by
  rw [accepted, List.filterMap_append, Mark.filterMap_completedNode?_map_logged]
  rfl

end Node

/-- Every passage completes its node. -/
theorem completions_account (agents : Registry) (ctx : Context) (ps : List Passage) :
    (account agents ctx ps).filterMap Mark.completedNode? = ps.map (·.node.id) := by
  induction ps generalizing ctx with
  | nil => rfl
  | cons p ps ih =>
      rw [account, List.filterMap_append, ih, List.map_cons]
      simp [Passage.marks, Mark.completedNode?]

namespace Walk

variable {w : Walk} {n : Node}

theorem completions_record {kind : LogKind} {message : String} {nodeId : Option String} :
    (w.record kind message nodeId).trail.completions = w.trail.completions := by
  rw [(writes_record kind message nodeId).completions]
  exact List.append_nil _

theorem completions_failed {error : String} :
    (w.failed n error).trail.completions = w.trail.completions := by
  rw [(writes_failed error).completions]
  exact List.append_nil _

theorem completions_accept {o : Outcome} :
    (w.accept n o).trail.completions = w.trail.completions ++ [n.id] := by
  rw [(writes_accept n o).completions, Node.filterMap_completedNode?_accepted]

end Walk

namespace Executor

variable {σ : Type} {x : Executor} {env : Environment σ} {occasion : Occasion} {task : Task} {s : σ}
  {ps : List Passage} {f : Finish σ}

/-- A step that has its result is not completed yet. -/
theorem Step.completions {w w' : Walk} {s' : σ} {n : Node} {result : Except StepError Outcome}
    (h : x.Step env w s n result w' s') : w'.trail.completions = w.trail.completions := by
  rw [h.writes.completions, Node.filterMap_completedNode?_begun, List.append_nil]

/-! ### Taking a course apart -/

theorem Course.of_append {w w' : Walk} {s' : σ} {qs : List Passage}
    (h : x.Course env w s (ps ++ qs) w' s') :
    ∃ w₁ s₁, x.Course env w s ps w₁ s₁ ∧ x.Course env w₁ s₁ qs w' s' := by
  induction ps generalizing w s with
  | nil => exact ⟨w, s, .nil w s, h⟩
  | cons p ps ih =>
      cases h with
      | cons hstep hagain hk hfollow hrest =>
          obtain ⟨w₁, s₁, hbefore, hafter⟩ := ih hrest
          exact ⟨w₁, s₁, .cons hstep hagain hk hfollow hbefore, hafter⟩

/-- A passage of a course is a step after the passages before it. -/
theorem Course.exists_passage {w w' : Walk} {s' : σ} (h : x.Course env w s ps w' s') {k : Nat}
    {p : Passage} (hp : ps[k]? = some p) :
    ∃ w₁ s₁ w₂ s₂, x.Course env w s (ps.take k) w₁ s₁ ∧
      x.Step env w₁ s₁ p.node (.ok p.outcome) w₂ s₂ := by
  obtain ⟨hk, hget⟩ := List.getElem?_eq_some_iff.mp hp
  have hsplit : ps.take k ++ p :: ps.drop (k + 1) = ps := by
    rw [← hget, ← List.drop_eq_getElem_cons hk, List.take_append_drop]
  rw [← hsplit] at h
  obtain ⟨w₁, s₁, hbefore, hafter⟩ := h.of_append
  -- the later passages do not matter, and their expression would be in the way of the case split
  generalize ps.drop (k + 1) = later at hafter
  cases hafter with
  | cons hstep => exact ⟨w₁, s₁, _, _, hbefore, hstep⟩

/-! ### Arrivals -/

/-- After the passages a run is on the walk, no stop is seen, and the node is started. -/
inductive Arrives (x : Executor) (env : Environment σ) (occasion : Occasion) (task : Task) (s : σ)
    (ps : List Passage) (w : Walk) (n : Node) (s' : σ) : Prop where
  | mk {start : Node} {s₁ : σ} :
      x.workflow.startNode? = some start → x.Course env (x.setOut occasion task start) s ps w s₁ →
      env.stop s₁ = (false, s') → x.workflow.findNode? w.current = some n →
      Arrives x env occasion task s ps w n s'

theorem Arrives.node_mem {w : Walk} {n : Node} {s' : σ}
    (h : x.Arrives env occasion task s ps w n s') : n ∈ x.workflow.nodes := by
  obtain ⟨_, _, _, hfind⟩ := h
  exact Workflow.mem_of_findNode? hfind

/-- At its end a run has started no node since the last passage, or it has started one more. -/
theorem Ends.arrival {rest : Nat} {w : Walk} (h : x.Ends env rest w s f) :
    f.walk.route.visited = w.route.visited ∨
      ∃ n s', env.stop s = (false, s') ∧ x.workflow.findNode? w.current = some n ∧
        f.walk.route.visited = w.route.visited ++ [n.id] := by
  -- whatever is recorded after a step, the route is the one that the step has left
  have of_step : ∀ {n result w' s'}, x.Step env w s n result w' s' →
      f.walk.route = w'.route → ∃ n s', env.stop s = (false, s') ∧
        x.workflow.findNode? w.current = some n ∧
        f.walk.route.visited = w.route.visited ++ [n.id] := by
    intro n result w' s' hstep hroute
    rw [hroute, hstep.route]
    obtain ⟨hstop, hfind, _⟩ := hstep
    exact ⟨n, _, hstop, hfind, rfl⟩
  cases h with
  | stopped | exhausted | lost => exact .inl rfl
  -- the call never returned, so no `Step` relates the two walks
  | dropped hstop hfind hperform =>
      refine .inr ⟨_, _, hstop, hfind, ?_⟩
      show (Walk.route _).visited = _
      rw [route_of_perform hperform, Walk.route_enter]
      rfl
  | discarded hstep => exact .inr (of_step hstep Walk.route_discarded)
  | failed hstep => exact .inr (of_step hstep (Walk.route_failed _))
  | completed hstep => exact .inr (of_step hstep (by rw [Walk.route_completed, Walk.route_accept]))
  | deadEnd hstep => exact .inr (of_step hstep (by rw [Walk.route_deadEnd, Walk.route_accept]))

/-- **Every node that was started was arrived at**, after as many passages as nodes were started
before. -/
theorem Journey.exists_arrival (h : x.Journey env occasion task s ps f) {k : Nat} {id : String}
    (hk : f.walk.route.visited[k]? = some id) :
    k ≤ ps.length ∧ ∃ w n s', x.Arrives env occasion task s (ps.take k) w n s' ∧ n.id = id := by
  obtain @⟨start, w, s₁, rest, hstart, hcourse, _, hends⟩ := h
  have hvisited : w.route.visited = ps.map (·.node.id) := hcourse.route.1
  -- a node that a passage leaves was reached by the passages before it
  have hpassage : (ps.map (·.node.id))[k]? = some id →
      k ≤ ps.length ∧ ∃ w n s', x.Arrives env occasion task s (ps.take k) w n s' ∧ n.id = id := by
    intro hid
    rw [List.getElem?_map, Option.map_eq_some_iff] at hid
    obtain ⟨p, hp, rfl⟩ := hid
    obtain ⟨hlt, _⟩ := List.getElem?_eq_some_iff.mp hp
    obtain ⟨w₁, _, _, _, hbefore, hstop, hfind, _⟩ := hcourse.exists_passage hp
    exact ⟨hlt.le, w₁, p.node, _, .mk hstart hbefore hstop hfind, rfl⟩
  -- either a passage leads on from the node, or the run has ended there
  rcases hends.arrival with hroute | ⟨n, s', hstop, hfind, hroute⟩
  · rw [hroute, hvisited] at hk
    exact hpassage hk
  · rw [hroute, hvisited] at hk
    rcases getElem?_concat_eq_some hk with hid | ⟨hlength, hid⟩
    · exact hpassage hid
    · rw [List.length_map] at hlength
      rw [hlength, List.take_length]
      exact ⟨Nat.le_refl _, w, n, s', .mk hstart hcourse hstop hfind, hid⟩

/-! ### Completed steps -/

theorem StepAfter.node_mem {n : Node} {result : Except StepError Outcome}
    (h : x.StepAfter env occasion task s ps n result) : n ∈ x.workflow.nodes := by
  obtain ⟨_, _, hstep⟩ := h
  exact hstep.node_mem

/-- At its end a run has completed no step since the last passage, or one from which no edge is
taken: it has completed an end node, or no edge leads on. -/
theorem Ends.completion {rest : Nat} {w : Walk} (h : x.Ends env rest w s f) :
    f.walk.trail.completions = w.trail.completions ∨
      ∃ n o w' s', x.Step env w s n (.ok o) w' s' ∧
        f.walk.trail.completions = w.trail.completions ++ [n.id] ∧
        (n.kind = .finish ∧ f.status = some .completed ∧ f.walk = (w'.accept n o).completed n ∨
          n.kind ≠ .finish ∧ x.workflow.follow? n.id o.branch = none) := by
  cases h with
  | stopped | exhausted | lost => exact .inl Walk.completions_record
  | dropped _ _ hperform =>
      left
      rw [(writes_of_enter_perform hperform).1.completions, Node.filterMap_completedNode?_begun,
        List.append_nil]
  | discarded hstep => exact .inl (Walk.completions_record.trans hstep.completions)
  | failed hstep => exact .inl (Walk.completions_failed.trans hstep.completions)
  -- accepting the outcome adds the node's completion, and the closing line adds none
  | completed hstep _ hk =>
      refine .inr ⟨_, _, _, _, hstep, ?_, .inl ⟨hk, rfl, rfl⟩⟩
      rw [← hstep.completions, ← Walk.completions_accept]
      exact Walk.completions_record
  | deadEnd hstep _ hk hfollow =>
      refine .inr ⟨_, _, _, _, hstep, ?_, .inr ⟨hk, hfollow⟩⟩
      rw [← hstep.completions, ← Walk.completions_accept]
      exact Walk.completions_record

/-- The nodes that a course has completed are those of its passages. -/
theorem Course.completions {w w' : Walk} {s' : σ} (h : x.Course env w s ps w' s') :
    w'.trail.completions = w.trail.completions ++ ps.map (·.node.id) := by
  rw [h.writes.1.completions, completions_account]

/-- **Every completed node is the end of a step** that was taken after as many passages as nodes
were completed before. The run goes on from there by an edge that it follows, or it is at its
end. -/
theorem Journey.exists_completion (h : x.Journey env occasion task s ps f) {k : Nat} {id : String}
    (hk : f.walk.trail.completions[k]? = some id) :
    ∃ n o, x.StepAfter env occasion task s (ps.take k) n (.ok o) ∧ n.id = id ∧
      ((∃ e, ps[k]? = some ⟨n, o, e⟩ ∧ x.workflow.follow? n.id o.branch = some e) ∨
        n.kind = .finish ∨ x.workflow.follow? n.id o.branch = none) := by
  obtain @⟨start, w, s₁, rest, hstart, hcourse, _, hends⟩ := h
  have hcompletions : w.trail.completions = ps.map (·.node.id) := hcourse.completions
  -- a passage was taken because `follow?` found its edge
  have hpassage : (ps.map (·.node.id))[k]? = some id →
      ∃ n o, x.StepAfter env occasion task s (ps.take k) n (.ok o) ∧ n.id = id ∧
        ((∃ e, ps[k]? = some ⟨n, o, e⟩ ∧ x.workflow.follow? n.id o.branch = some e) ∨
          n.kind = .finish ∨ x.workflow.follow? n.id o.branch = none) := by
    intro hid
    rw [List.getElem?_map, Option.map_eq_some_iff] at hid
    obtain ⟨p, hp, rfl⟩ := hid
    obtain ⟨_, _, _, _, hbefore, hstep⟩ := hcourse.exists_passage hp
    have hfollow := (hcourse.path.allowed (List.mem_of_getElem? hp)).followed
    exact ⟨p.node, p.outcome, .mk hstart hbefore hstep, rfl, .inl ⟨p.edge, hp, hfollow⟩⟩
  -- either the node was left by a passage, or it is the last one that the run has completed
  rcases hends.completion with hsame | ⟨n, o, _, _, hstep, hmore, hlast⟩
  · rw [hsame, hcompletions] at hk
    exact hpassage hk
  · rw [hmore, hcompletions] at hk
    rcases getElem?_concat_eq_some hk with hid | ⟨hlength, hid⟩
    · exact hpassage hid
    · rw [List.length_map] at hlength
      rw [hlength, List.take_length]
      exact ⟨n, o, .mk hstart hcourse hstep, hid, .inr (hlast.imp And.left And.right)⟩

/-! ### What the events show of it -/

/-- What the closing events do not show is shown by the events of the trail. -/
theorem filterMap_attemptOf {α : Type} {show? : Event → Option α}
    (hstatus : ∀ status, show? (.workflowCompleted status) = none)
    (hhalted : show? (.stateChanged .halted) = none) (f : Finish σ) :
    (attemptOf f).events.filterMap show? = f.walk.trail.events.toList.filterMap show? := by
  have hclosing : (closing f.status).filterMap show? = [] := by
    cases f.status <;> simp [closing, hstatus, hhalted]
  rw [attemptOf, List.filterMap_append, hclosing, List.append_nil]

theorem Journey.startedNodes (h : x.Journey env occasion task s ps f) :
    (attemptOf f).events.filterMap Event.startedNode? = f.walk.route.visited := by
  rw [filterMap_attemptOf (fun _ => rfl) rfl]
  exact h.agrees.visited

theorem Journey.takenEdges (h : x.Journey env occasion task s ps f) :
    (attemptOf f).events.filterMap Event.takenEdge? = f.walk.route.traversed := by
  rw [filterMap_attemptOf (fun _ => rfl) rfl]
  exact h.agrees.traversed

theorem completedNodes_attemptOf (f : Finish σ) :
    (attemptOf f).events.filterMap Event.completedNode? = f.walk.trail.completions :=
  filterMap_attemptOf (fun _ => rfl) rfl f

end Executor

/-! ### An example -/

/-- A triage: a message is sorted by its intent, one for sales is answered, and all go to one
end. -/
def Workflow.triage : Workflow where
  id := .nil
  name := "Triage"
  nodes := [⟨"in", "", .origin, .start⟩, desk "Support",
    ⟨"sorted", "Sorted", .origin, .condition ⟨" intent ", .equals, "Sales"⟩⟩,
    ⟨"pitch", "Pitch", .origin, .llm ⟨"Answer the message.", none, none⟩⟩,
    ⟨"out", "", .origin, .finish⟩]
  edges := [⟨"ask", "in", "desk", none⟩, ⟨"sales", "desk", "sorted", some "Sales"⟩,
    ⟨"support", "desk", "sorted", some "Support"⟩, ⟨"yes", "sorted", "pitch", some "True"⟩,
    ⟨"no", "sorted", "out", some "False"⟩, ⟨"done", "pitch", "out", none⟩]

/-- Runs of the triage. -/
def Executor.triage : Executor := ⟨.triage, .empty, .default, "script"⟩

end AgentGraph
