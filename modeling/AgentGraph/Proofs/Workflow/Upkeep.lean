import AgentGraph.Proofs.Run.Journey
import AgentGraph.Proofs.Workflow.Authoring

/-!
# Edits keep a valid workflow valid

A workflow may be valid without being orderly: a graph that was drawn elsewhere may join a node to
itself, or join two nodes twice under one label. Whatever it looks like, edits do not make it
invalid, as long as they leave its start node alone and what they mint is new. Removing a node takes
its edges along, a changed node keeps its kind, and a graph is only replaced by a valid one.
`edited_valid` says so of every workflow along the way.
-/

namespace AgentGraph

/-! ### Edits and start nodes -/

namespace Edit

/-- The edit puts in no start node and takes out none. An insertion that is refused puts in nothing,
and a graph that is put in place of another one brings its own start node. -/
def LeavesStart (w : Workflow) : Edit → Prop
  | addNode _ kind _ => kind ≠ .start
  | insertNode n => n.kind = .start → n.id ∈ w.nodes.map (·.id)
  | removeNode id => ∀ n ∈ w.nodes, n.id = id → n.kind ≠ .start
  | _ => True

/-- Each edit of a history leaves the start node of that time alone. -/
def AllLeaveStart : Workflow → List Edit → Prop
  | _, [] => True
  | w, e :: edits => e.LeavesStart w ∧ AllLeaveStart (e.apply w) edits

instance (w : Workflow) : DecidablePred (LeavesStart w)
  | addNode _ kind _ => inferInstanceAs (Decidable (kind ≠ .start))
  | insertNode n => inferInstanceAs (Decidable (n.kind = .start → n.id ∈ w.nodes.map (·.id)))
  | removeNode id => inferInstanceAs (Decidable (∀ n ∈ w.nodes, n.id = id → n.kind ≠ .start))
  | renameNode .. | moveNode .. | updateNodeData .. | addEdge .. | removeEdge _ | relabelEdge ..
  | replaceGraph .. => inferInstanceAs (Decidable True)

instance decidableAllLeaveStart (w : Workflow) :
    (edits : List Edit) → Decidable (AllLeaveStart w edits)
  | [] => inferInstanceAs (Decidable True)
  | e :: edits =>
      have := decidableAllLeaveStart (e.apply w) edits
      inferInstanceAs (Decidable (_ ∧ _))

end Edit

namespace Workflow

variable {w w' : Workflow} {e : Edit}

/-! ### Edits of nodes -/

theorem Valid.add_node (hv : w.Valid) {n : Node} (hfree : n.id ∉ w.nodes.map (·.id))
    (hkind : n.kind ≠ .start) : Valid { w with nodes := w.nodes ++ [n] } := by
  obtain ⟨hcount, hnodes, hedges, hends⟩ := valid_iff.mp hv
  refine valid_iff.mpr ⟨?_, nodup_map_concat hnodes hfree, hedges, fun e he => ?_⟩
  · simpa [hkind] using hcount
  · simp only [List.map_append, List.mem_append]
    exact (hends e he).imp .inl .inl

/-- A node is changed, but neither its identifier nor its kind is. -/
theorem Valid.update_node (hv : w.Valid) {before after : List Node} {m n : Node}
    (hsplit : w.nodes = before ++ n :: after) (hid : m.id = n.id) (hkind : m.kind = n.kind) :
    Valid { w with nodes := before ++ m :: after } := by
  obtain ⟨hcount, hnodes, hedges, hends⟩ := valid_iff.mp hv
  have hids : (before ++ m :: after).map (·.id) = w.nodes.map (·.id) := by simp [hsplit, hid]
  refine valid_iff.mpr ⟨?_, hids ▸ hnodes, hedges, fun e he => hids ▸ hends e he⟩
  rw [← hcount, hsplit]
  simp [List.countP_append, List.countP_cons, hkind]

/-- A node that is no start node is removed, and its edges with it. -/
theorem Valid.remove_node (hv : w.Valid) {removed : String}
    (hstart : ∀ n ∈ w.nodes, n.id = removed → n.kind ≠ .start) : Valid { w with
      nodes := w.nodes.filter (·.id ≠ removed)
      edges := w.edges.filter fun e => e.source ≠ removed && e.target ≠ removed } := by
  obtain ⟨hcount, hnodes, hedges, hends⟩ := valid_iff.mp hv
  refine valid_iff.mpr ⟨?_, hnodes.sublist (List.filter_sublist.map _),
    hedges.sublist (List.filter_sublist.map _), fun e => ends_mem_remove hends⟩
  rw [← hcount, List.countP_filter]
  refine List.countP_congr fun n hn => ?_
  simpa using fun hk hid => hstart n hn hid hk

/-! ### Edits of edges -/

/-- Edges may go and come, as long as they are told apart by their identifiers and join nodes. -/
theorem Valid.with_edges (hv : w.Valid) {edges : List Edge} (hids : (edges.map (·.id)).Nodup)
    (hends : ∀ e ∈ edges, e ∈ w.edges ∨ e.source ∈ w.nodes.map (·.id) ∧
      e.target ∈ w.nodes.map (·.id)) :
    Valid { w with edges } := by
  obtain ⟨hcount, hnodes, -, hold⟩ := valid_iff.mp hv
  exact valid_iff.mpr ⟨hcount, hnodes, hids, fun e he => (hends e he).elim (hold e) fun h => h⟩

theorem Valid.add_edge (hv : w.Valid) {e : Edge} (hid : e.id ∉ w.edges.map (·.id))
    (hsource : e.source ∈ w.nodes.map (·.id)) (htarget : e.target ∈ w.nodes.map (·.id)) :
    Valid { w with edges := w.edges ++ [e] } := by
  refine hv.with_edges (nodup_map_concat (valid_iff.mp hv).2.2.1 hid) fun d hd => ?_
  rcases List.mem_append.mp hd with hd | hd
  · exact .inl hd
  · rw [List.mem_singleton.mp hd]
    exact .inr ⟨hsource, htarget⟩

theorem Valid.filter_edges (hv : w.Valid) (p : Edge → Bool) :
    Valid { w with edges := w.edges.filter p } :=
  hv.with_edges ((valid_iff.mp hv).2.2.1.sublist (List.filter_sublist.map _))
    fun _ he => .inl (List.mem_filter.mp he).1

theorem Valid.relabel_edge (hv : w.Valid) {before after : List Edge} {e : Edge}
    (label : Option String) (hsplit : w.edges = before ++ e :: after) :
    Valid { w with edges := before ++ { e with label } :: after } := by
  obtain ⟨-, -, hedges, hends⟩ := valid_iff.mp hv
  have hids : (before ++ { e with label } :: after).map (·.id) = w.edges.map (·.id) := by
    simp [hsplit]
  refine hv.with_edges (hids ▸ hedges) fun d hd => ?_
  rw [hsplit]
  rcases List.mem_append.mp hd with hd | hd
  · exact .inl (List.mem_append_left _ hd)
  · rcases List.mem_cons.mp hd with rfl | hd
    · exact .inr (hends e (hsplit ▸ List.mem_append_right _ List.mem_cons_self))
    · exact .inl (List.mem_append_right _ (List.mem_cons_of_mem _ hd))

/-! ### Histories of edits -/

/-- **Every edit keeps a valid workflow valid.** -/
theorem Valid.of_result? (hv : w.Valid) (hnew : e.MintsNew w) (hstart : e.LeavesStart w)
    (hresult : e.result? w = some w') : w'.Valid := by
  cases e with
  -- a new node must not be a second Start node
  | addNode mint kind position =>
      cases hresult
      refine hv.add_node (fun hmem => hnew (List.mem_append_left _ hmem)) ?_
      rw [Node.kind, newNode, NodeKind.kind_defaultData]
      exact hstart
  | insertNode n =>
      obtain ⟨hfree, rfl⟩ := insertNode_eq_some_iff.mp hresult
      exact hv.add_node hfree fun hkind => hfree (hstart hkind)
  | addEdge mint source target label =>
      obtain ⟨hjoinable, rfl⟩ := addEdge_eq_some_iff.mp hresult
      have hfits : w.Fits ⟨mint.toString, source, target, normalizeLabel label⟩ :=
        fits_of_joinable hjoinable fun _ => normalizeLabel_eq_some
      exact hv.add_edge (fun hmem => hnew (List.mem_append_right _ hmem)) hfits.source_mem
        hfits.target_mem
  | removeNode removed =>
      obtain ⟨-, rfl⟩ := removeNode_eq_some_iff.mp hresult
      exact hv.remove_node hstart
  | removeEdge removed =>
      obtain ⟨-, rfl⟩ := removeEdge_eq_some_iff.mp hresult
      exact hv.filter_edges _
  | relabelEdge id label =>
      obtain ⟨_, _, _, hsplit, _, _, _, rfl⟩ := relabelEdge_eq_some_iff.mp hresult
      exact hv.relabel_edge _ hsplit
  -- the node keeps its id and its kind
  | renameNode id name =>
      obtain ⟨_, _, _, hsplit, _, _, rfl⟩ := updateNode_eq_some_iff.mp hresult
      exact hv.update_node hsplit rfl rfl
  | moveNode id position =>
      obtain ⟨_, _, _, hsplit, _, _, rfl⟩ := updateNode_eq_some_iff.mp hresult
      exact hv.update_node hsplit rfl rfl
  | updateNodeData id data =>
      obtain ⟨_, _, _, hsplit, _, _, hkind, rfl⟩ := updateNodeData_eq_some_iff.mp hresult
      exact hv.update_node hsplit rfl hkind.symm
  -- a graph is replaced by a valid one only
  | replaceGraph nodes edges =>
      rw [Edit.result?] at hresult
      cases hgraph : w.replaceGraph nodes edges with
      | error _ =>
          rw [hgraph] at hresult
          cases hresult
      | ok replaced =>
          rw [hgraph] at hresult
          cases hresult
          obtain ⟨hvalid, rfl⟩ := replaceGraph_eq_ok_iff.mp hgraph
          exact hvalid

/-- A refused edit changes nothing. -/
theorem Valid.apply (hv : w.Valid) (hnew : e.MintsNew w) (hstart : e.LeavesStart w) :
    (e.apply w).Valid := by
  rw [Edit.apply]
  cases hresult : e.result? w with
  | none => exact hv
  | some w' => exact hv.of_result? hnew hstart hresult

/-- Every workflow along the way is valid. -/
theorem Valid.applyAll (hv : w.Valid) {edits past : List Edit} (hnew : Edit.AllMintNew w edits)
    (hstart : Edit.AllLeaveStart w edits) (hpast : past <+: edits) :
    (Edit.applyAll w past).Valid := by
  induction past generalizing w edits with
  | nil => exact hv
  | cons e past ih =>
      obtain ⟨rest, rfl⟩ := hpast
      exact ih (hv.apply hnew.1 hstart.1) hnew.2 hstart.2 (List.prefix_append past rest)

/-- An executor does not refuse a valid graph. -/
theorem Valid.result_ne_invalidGraph {σ : Type} {x : Executor} (hv : x.workflow.Valid)
    (env : Environment σ) (state : ExecutorState) (occasion : Occasion) (task : Executor.Task)
    (s : σ) (e : ValidationError) :
    (x.run env state occasion task s).result ≠ .error (.invalidGraph e) := by
  by_cases hs : state = .running
  · subst hs
    rw [Executor.run, Executor.admission_of_running hv]
    simp
  · obtain ⟨_, _, -, hrun⟩ := Executor.run_of_valid hv hs env occasion task s
    rw [hrun, Executor.attemptOf]
    simp

/-- **Edits keep a valid workflow valid.** Along any history of edits, accepted or refused, that
leaves the start node alone, every workflow is valid, and no executor refuses to run it for its
graph. -/
theorem edited_valid {w : Workflow} (hv : w.Valid) {edits : List Edit}
    (hnew : Edit.AllMintNew w edits) (hstart : Edit.AllLeaveStart w edits) {past : List Edit}
    (hpast : past <+: edits) :
    (Edit.applyAll w past).Valid ∧
    ∀ (agents : Registry) (limits : Limits) (model : String) {σ : Type} (env : Environment σ)
      (state : ExecutorState) (occasion : Occasion) (task : Executor.Task) (s : σ)
      (e : ValidationError),
      ((Executor.mk (Edit.applyAll w past) agents limits model).run env state occasion
        task s).result ≠ .error (.invalidGraph e) := by
  have hvalid := hv.applyAll hnew hstart hpast
  exact ⟨hvalid, fun agents limits model => Valid.result_ne_invalidGraph
    (x := ⟨_, agents, limits, model⟩) hvalid⟩

/-- A graph drawn elsewhere: the condition is joined to itself, and twice to the end under one
label. -/
def tangled : Workflow where
  id := .nil
  name := "Tangled"
  nodes :=
    [⟨"in", "", .origin, .start⟩, ⟨"if", "", .origin, .condition .default⟩,
      ⟨"out", "", .origin, .finish⟩]
  edges :=
    [⟨"0", "in", "if", none⟩, ⟨"1", "if", "if", some " True"⟩, ⟨"2", "if", "out", some "False"⟩,
      ⟨"3", "if", "out", some "False"⟩]

/-- The condition is removed with its edges, and the start is joined to the end. Then an invalid
graph is refused, and the first graph is put back. -/
def tangledEdits : List Edit :=
  [.relabelEdge "1" (some "True"), .removeNode "if", .addEdge ⟨1⟩ "in" "out" none,
    .updateNodeData "in" .finish,
    .replaceGraph tangled.nodes (⟨"4", "out", "nowhere", none⟩ :: tangled.edges),
    .replaceGraph tangled.nodes tangled.edges]

theorem tangled_valid :
    (Edit.applyAll tangled (tangledEdits.take 5)).edges.map (fun e => (e.source, e.target)) =
        [("in", "out")] ∧
      (Edit.applyAll tangled (tangledEdits.take 5)).Valid ∧
      (Edit.applyAll tangled tangledEdits).Valid := by
  have hv : tangled.Valid := by decide
  have hnew : Edit.AllMintNew tangled tangledEdits := by decide +kernel
  have hstart : Edit.AllLeaveStart tangled tangledEdits := by decide +kernel
  refine ⟨by decide +kernel, ?_, ?_⟩
  · exact (edited_valid hv hnew hstart (List.take_prefix 5 _)).1
  · exact (edited_valid hv hnew hstart (List.prefix_refl _)).1

end Workflow

end AgentGraph
