import AgentGraph.Proofs.Workflow.Effect
import AgentGraph.Workflow.InPlace

/-!
# What an operation leaves alone

An operation changes the workflow it is carried out on while it still looks at it. What it may
change is said here once, without the order in which it looks and changes: `Changes` has one
constructor for each operation, with the condition under which it is done and with all that is then
different. `carryOut_frame` says that a refused operation leaves the workflow as it was, and that
any other has done that one change. Nothing is assumed of the graph: two nodes or two edges may
share an identifier, and edges may lead to nowhere.
-/

namespace AgentGraph.Edit

variable {w w' : Workflow} {e : Edit}

/-- What an operation on `w` that is not refused leaves in the place of `w`. -/
inductive Changes (w : Workflow) : Edit → Workflow → Prop
  | addNode {id : Uuid} {kind : NodeKind} {position : Position} :
      Changes w (.addNode id kind position)
      { w with nodes := w.nodes ++ [Workflow.newNode id kind position] }
  | insertNode {n : Node} : n.id ∉ w.nodes.map (·.id) →
      Changes w (.insertNode n) { w with nodes := w.nodes ++ [n] }
  | addEdge {id : Uuid} {source target : String} {label : Option String} :
      w.Joinable source target (normalizeLabel label) → Changes w (.addEdge id source target label)
        { w with edges := w.edges ++ [⟨id.toString, source, target, normalizeLabel label⟩] }
  | removeNode {id : String} : id ∈ w.nodes.map (·.id) →
      Changes w (.removeNode id) { w with
        nodes := w.nodes.filter (·.id ≠ id)
        edges := w.edges.filter fun e => e.source ≠ id && e.target ≠ id }
  | removeEdge {id : String} : id ∈ w.edges.map (·.id) →
      Changes w (.removeEdge id) { w with edges := w.edges.filter (·.id ≠ id) }
  | relabelEdge {id : String} {label : Option String} {before after : List Edge} {e : Edge} :
      w.edges = before ++ e :: after → e.id = id → (∀ d ∈ before, d.id ≠ id) →
      w.Relabelable e (normalizeLabel label) → Changes w (.relabelEdge id label)
        { w with edges := before ++ { e with label := normalizeLabel label } :: after }
  | renameNode {id name : String} {before after : List Node} {n : Node} :
      w.nodes = before ++ n :: after → n.id = id → (∀ m ∈ before, m.id ≠ id) →
      Changes w (.renameNode id name) { w with nodes := before ++ { n with name } :: after }
  | moveNode {id : String} {position : Position} {before after : List Node} {n : Node} :
      w.nodes = before ++ n :: after → n.id = id → (∀ m ∈ before, m.id ≠ id) →
      Changes w (.moveNode id position) { w with nodes := before ++ { n with position } :: after }
  | updateNodeData {id : String} {data : NodeData} {before after : List Node} {n : Node} :
      w.nodes = before ++ n :: after → n.id = id → (∀ m ∈ before, m.id ≠ id) → n.kind = data.kind →
      Changes w (.updateNodeData id data) { w with nodes := before ++ { n with data } :: after }
  | replaceGraph {nodes : List Node} {edges : List Edge} : validateAll nodes edges = [] →
      Changes w (.replaceGraph nodes edges) { w with nodes, edges }

/-- An operation that is not refused gives the workflow with the change. -/
theorem result?_eq_some_iff : e.result? w = some w' ↔ Changes w e w' := by
  constructor
  · intro h
    cases e with
    | addNode id kind position =>
        cases h
        exact .addNode
    | insertNode n =>
        obtain ⟨hfree, rfl⟩ := Workflow.insertNode_eq_some_iff.mp h
        exact .insertNode hfree
    | addEdge id source target label =>
        obtain ⟨hjoinable, rfl⟩ := Workflow.addEdge_eq_some_iff.mp h
        exact .addEdge hjoinable
    | removeNode id =>
        obtain ⟨hmem, rfl⟩ := Workflow.removeNode_eq_some_iff.mp h
        exact .removeNode hmem
    | removeEdge id =>
        obtain ⟨hmem, rfl⟩ := Workflow.removeEdge_eq_some_iff.mp h
        exact .removeEdge hmem
    | relabelEdge id label =>
        obtain ⟨_, _, _, hsplit, hid, hbefore, hfree, rfl⟩ := Workflow.relabelEdge_eq_some_iff.mp h
        exact .relabelEdge hsplit hid hbefore hfree
    | renameNode id name =>
        obtain ⟨_, _, _, hsplit, hid, hbefore, rfl⟩ := Workflow.updateNode_eq_some_iff.mp h
        exact .renameNode hsplit hid hbefore
    | moveNode id position =>
        obtain ⟨_, _, _, hsplit, hid, hbefore, rfl⟩ := Workflow.updateNode_eq_some_iff.mp h
        exact .moveNode hsplit hid hbefore
    | updateNodeData id data =>
        obtain ⟨_, _, _, hsplit, hid, hbefore, hkind, rfl⟩ :=
          Workflow.updateNodeData_eq_some_iff.mp h
        exact .updateNodeData hsplit hid hbefore hkind
    -- the one edit that reports why it was refused
    | replaceGraph nodes edges =>
        rw [result?] at h
        cases hgraph : w.replaceGraph nodes edges with
        | error _ =>
            rw [hgraph] at h
            cases h
        | ok replaced =>
            rw [hgraph] at h
            cases h
            obtain ⟨hvalid, rfl⟩ := Workflow.replaceGraph_eq_ok_iff.mp hgraph
            exact .replaceGraph hvalid
  · intro h
    cases h with
    | addNode => rfl
    | insertNode hfree => exact Workflow.insertNode_eq_some_iff.mpr ⟨hfree, rfl⟩
    | addEdge hjoinable => exact Workflow.addEdge_eq_some_iff.mpr ⟨hjoinable, rfl⟩
    | removeNode hmem => exact Workflow.removeNode_eq_some_iff.mpr ⟨hmem, rfl⟩
    | removeEdge hmem => exact Workflow.removeEdge_eq_some_iff.mpr ⟨hmem, rfl⟩
    | relabelEdge hsplit hid hbefore hfree =>
        exact Workflow.relabelEdge_eq_some_iff.mpr ⟨_, _, _, hsplit, hid, hbefore, hfree, rfl⟩
    | renameNode hsplit hid hbefore =>
        exact Workflow.updateNode_eq_some_iff.mpr ⟨_, _, _, hsplit, hid, hbefore, rfl⟩
    | moveNode hsplit hid hbefore =>
        exact Workflow.updateNode_eq_some_iff.mpr ⟨_, _, _, hsplit, hid, hbefore, rfl⟩
    | updateNodeData hsplit hid hbefore hkind =>
        exact Workflow.updateNodeData_eq_some_iff.mpr ⟨_, _, _, hsplit, hid, hbefore, hkind, rfl⟩
    | replaceGraph hvalid =>
        rw [result?, Workflow.replaceGraph_eq_ok_iff.mpr ⟨hvalid, rfl⟩]
        rfl

/-! ### Operations in their place -/

/-- What an operation tells that was not refused. -/
def granted : Edit → Response
  | addNode id kind position => .node (Workflow.newNode id kind position)
  | addEdge id source target label =>
      .edge (some ⟨id.toString, source, target, normalizeLabel label⟩)
  | replaceGraph _ _ => .graph (.ok ())
  | _ => .flag true

theorem isRefusal_granted (e : Edit) : e.granted.isRefusal = false := by
  cases e <;> rfl

/-- The operation has come to the result, or there is none, and it is refused and has changed
nothing. -/
inductive ComesTo (w : Workflow) (granted : Response) : Option Workflow → Response × Workflow → Prop
  | done {w' : Workflow} : ComesTo w granted (some w') (granted, w')
  | refused {response : Response} : response.isRefusal = true → ComesTo w granted none (response, w)

theorem run_changeNode (id : String) (f : Node → Node) (w : Workflow) :
    ComesTo w (.flag true) (w.updateNode id f) ((changeNode id f).run w) := by
  rw [Workflow.updateNode]
  cases h : updateFirst (·.id = id) f w.nodes with
  | none =>
      simp only [changeNode, StateT.run_bind, StateT.run_get, pure_bind, h]
      exact .refused rfl
  | some nodes =>
      simp only [changeNode, StateT.run_bind, StateT.run_get, pure_bind, h]
      exact .done

/-- The length tells whether anything was thrown out. -/
theorem length_filter_eq_iff {α : Type} (name : α → String) (id : String) (l : List α) :
    (l.filter (name · ≠ id)).length = l.length ↔ l.any (name · = id) = false := by
  rw [List.length_filter_eq_length_iff, List.any_eq_false]
  simp

theorem run_removeNode (id : String) (w : Workflow) :
    ComesTo w (.flag true) (w.removeNode id) ((removeNode id).carryOut.run w) := by
  have hlength := length_filter_eq_iff Node.id id w.nodes
  rw [Workflow.removeNode]
  simp only [carryOut, StateT.run_bind, StateT.run_get, StateT.run_modify, pure_bind]
  cases hany : w.nodes.any (·.id = id) with
  -- nothing is filtered out, so the workflow is as it was
  | false =>
      have hkept := hlength.mpr hany
      rw [if_pos hkept, List.filter_sublist.eq_of_length hkept]
      exact .refused rfl
  | true =>
      have hgone : (w.nodes.filter (·.id ≠ id)).length ≠ w.nodes.length := by
        rw [ne_eq, hlength, hany]
        decide
      rw [if_neg hgone]
      exact .done

theorem run_removeEdge (id : String) (w : Workflow) :
    ComesTo w (.flag true) (w.removeEdge id) ((removeEdge id).carryOut.run w) := by
  have hlength := length_filter_eq_iff Edge.id id w.edges
  rw [Workflow.removeEdge]
  simp only [carryOut, StateT.run_bind, StateT.run_get, StateT.run_modify, pure_bind]
  cases hany : w.edges.any (·.id = id) with
  | false =>
      have hkept := hlength.mpr hany
      rw [decide_eq_false (not_not.mpr hkept), List.filter_sublist.eq_of_length hkept]
      exact .refused rfl
  | true =>
      have hgone : (w.edges.filter (·.id ≠ id)).length ≠ w.edges.length := by
        rw [ne_eq, hlength, hany]
        decide
      rw [decide_eq_true hgone]
      exact .done

theorem run_relabelEdge (id : String) (label : Option String) (w : Workflow) :
    ComesTo w (.flag true) (w.relabelEdge id label) ((relabelEdge id label).carryOut.run w) := by
  rw [Workflow.relabelEdge]
  simp only [carryOut, StateT.run_bind, StateT.run_get, pure_bind]
  cases w.findEdge? id with
  | none => exact .refused rfl
  | some e =>
      rw [Option.bind_eq_bind, Option.bind_some]
      -- another edge may join the same nodes under the label already
      by_cases hjoined : w.edges.any fun d => d.id ≠ id &&
        d.connects e.source e.target (normalizeLabel label)
      · simp only [StateT.run_bind, StateT.run_get, pure_bind, if_pos hjoined]
        exact .refused rfl
      · simp only [StateT.run_bind, StateT.run_get, pure_bind, if_neg hjoined]
        cases
          updateFirst (·.id = id) (fun e => { e with label := normalizeLabel label }) w.edges with
        | none => exact .refused rfl
        | some edges => exact .done

theorem run_updateNodeData (id : String) (data : NodeData) (w : Workflow) :
    ComesTo w (.flag true) (w.updateNodeData id data)
      ((updateNodeData id data).carryOut.run w) := by
  rw [Workflow.updateNodeData]
  simp only [carryOut, StateT.run_bind, StateT.run_get, pure_bind]
  cases w.findNode? id with
  | none => exact .refused rfl
  | some n =>
      by_cases hkind : n.kind = data.kind
      · simp only [Option.bind_eq_bind, Option.bind_some, hkind, if_true, ne_eq, not_true, if_false]
        exact run_changeNode id _ w
      · simp only [Option.bind_eq_bind, Option.bind_some, hkind, if_false, ne_eq,
          not_false_iff, if_true]
        exact .refused rfl

/-- **An operation that is carried out in place comes to its result.** -/
theorem run_carryOut (e : Edit) (w : Workflow) :
    ComesTo w e.granted (e.result? w) (e.carryOut.run w) := by
  cases e with
  -- each edit in place is compared with the same edit as a function
  | addNode id kind position => exact .done
  | insertNode n =>
      rw [result?, Workflow.insertNode]
      simp only [carryOut, StateT.run_bind, StateT.run_get, pure_bind]
      split
      · exact .refused rfl
      · exact .done
  | addEdge id source target label =>
      rw [result?, Workflow.addEdge]
      simp only [carryOut, StateT.run_bind, StateT.run_get, pure_bind]
      cases hnew : w.newEdge? id source target label with
      | none => exact .refused rfl
      | some added =>
          rw [← (Workflow.newEdge?_eq_some_iff.mp hnew).2]
          exact .done
  | removeNode id => exact run_removeNode id w
  | removeEdge id => exact run_removeEdge id w
  | relabelEdge id label => exact run_relabelEdge id label w
  | renameNode id name => exact run_changeNode id _ w
  | moveNode id position => exact run_changeNode id _ w
  | updateNodeData id data => exact run_updateNodeData id data w
  | replaceGraph nodes edges =>
      rw [result?, Workflow.replaceGraph]
      simp only [carryOut]
      cases validate nodes edges with
      | error e => exact .refused rfl
      | ok _ => exact .done

/-! ### Refused or changed -/

theorem Changes.id_and_name (h : Changes w e w') : w'.id = w.id ∧ w'.name = w.name := by
  cases h <;> exact ⟨rfl, rfl⟩

/-- What is left in the place of the workflow is the edited workflow. -/
theorem run_carryOut_snd (e : Edit) (w : Workflow) : (e.carryOut.run w).2 = e.apply w := by
  have hrun := run_carryOut e w
  rw [apply]
  generalize e.carryOut.run w = outcome, e.result? w = result at hrun ⊢
  cases hrun <;> rfl

/-- **A refused operation changes nothing, and any other makes its one change.** The workflow need
not be valid. What is not changed keeps its contents and its place, so `Changes` gives the lists as
they are afterwards. An operation is refused only where its change cannot be made. -/
theorem carryOut_frame (w : Workflow) (e : Edit) :
    ((e.carryOut.run w).1.isRefusal = true → (e.carryOut.run w).2 = w ∧ ∀ w', ¬ Changes w e w') ∧
    ((e.carryOut.run w).1.isRefusal = false → (e.carryOut.run w).1 = e.granted ∧
      Changes w e (e.carryOut.run w).2 ∧ (e.carryOut.run w).2.id = w.id ∧
      (e.carryOut.run w).2.name = w.name) := by
  have hrun := run_carryOut e w
  generalize hresult : e.result? w = result at hrun
  generalize e.carryOut.run w = outcome at hrun ⊢
  cases hrun with
  | done =>
      have hchanges := result?_eq_some_iff.mp hresult
      refine ⟨fun hrefusal => ?_, fun _ => ⟨rfl, hchanges, hchanges.id_and_name⟩⟩
      rw [isRefusal_granted] at hrefusal
      cases hrefusal
  | refused hrefusal =>
      refine ⟨fun _ => ⟨rfl, fun w' hchanges => ?_⟩, fun hnot => ?_⟩
      -- a change would have been granted
      · rw [result?_eq_some_iff.mpr hchanges] at hresult
        cases hresult
      · rw [hrefusal] at hnot
        cases hnot

/-- A graph that was drawn badly: two nodes share an identifier, and so do two edges, one of which
leads nowhere. -/
def blotted : Workflow where
  id := .nil
  name := "Blotted"
  nodes :=
    [⟨"in", "", .origin, .start⟩, ⟨"step", "", .origin, .llm .default⟩,
      ⟨"out", "", .origin, .finish⟩, ⟨"step", "", .origin, .condition .default⟩]
  edges :=
    [⟨"0", "in", "step", none⟩, ⟨"1", "in", "out", none⟩, ⟨"0", "out", "nowhere", some "True"⟩]

/-- Both nodes go, with the edge between them and the start, and the other edges stay as they are. A
node of an identifier that no node has cannot be removed. -/
theorem blotted_frame :
    (((removeNode "step").carryOut.run blotted).2.edges =
        [⟨"1", "in", "out", none⟩, ⟨"0", "out", "nowhere", some "True"⟩] ∧
      Changes blotted (.removeNode "step") ((removeNode "step").carryOut.run blotted).2) ∧
    ((removeNode "nowhere").carryOut.run blotted).2 = blotted := by
  refine ⟨⟨by decide, ?_⟩, ?_⟩
  · exact ((carryOut_frame blotted (.removeNode "step")).2 (by decide)).2.1
  · exact ((carryOut_frame blotted (.removeNode "nowhere")).1 (by decide)).1

end AgentGraph.Edit
