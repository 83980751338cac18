import AgentGraph.Proofs.Text.Trim
import AgentGraph.Proofs.Workflow.Valid
import AgentGraph.Workflow.Edit

/-!
# What an edit does

An operation of an author refuses, or it changes one thing. For each operation there is one lemma
here that says when it succeeds and what the workflow is afterwards, without the searches by which
the operation finds the place. Proofs about edited workflows go through these lemmas.
-/

namespace AgentGraph

/-- The first member that satisfies `p` is changed, and all others stay as they are and where they
are. -/
theorem updateFirst_eq_some_iff {α : Type} {p : α → Bool} {f : α → α} {l l' : List α} :
    updateFirst p f l = some l' ↔ ∃ before a after, l = before ++ a :: after ∧ p a = true ∧
      (∀ b ∈ before, p b = false) ∧ l' = before ++ f a :: after := by
  induction l generalizing l' with
  | nil => simp [updateFirst]
  | cons b l ih =>
      rw [updateFirst]
      cases hb : p b with
      | true =>
          constructor
          · intro h
            exact ⟨[], b, l, rfl, hb, by simp, (Option.some.inj h).symm⟩
          · rintro ⟨before, a, after, hsplit, _, hbefore, rfl⟩
            cases before with
            | nil =>
                obtain ⟨rfl, rfl⟩ := List.cons.inj hsplit
                rfl
            | cons c before =>
                -- nothing that satisfies `p` comes before the place, but `b` would
                obtain ⟨rfl, _⟩ := List.cons.inj hsplit
                rw [hbefore b List.mem_cons_self] at hb
                cases hb
      | false =>
          simp only [Bool.false_eq_true, if_false, Option.map_eq_some_iff, ih]
          constructor
          · rintro ⟨_, ⟨before, a, after, rfl, ha, hbefore, rfl⟩, rfl⟩
            exact ⟨b :: before, a, after, rfl, ha, List.forall_mem_cons.mpr ⟨hb, hbefore⟩, rfl⟩
          · rintro ⟨before, a, after, hsplit, ha, hbefore, rfl⟩
            cases before with
            | nil =>
                obtain ⟨rfl, _⟩ := List.cons.inj hsplit
                rw [ha] at hb
                cases hb
            | cons c before =>
                obtain ⟨rfl, rfl⟩ := List.cons.inj hsplit
                exact ⟨_, ⟨before, a, after, rfl, ha, (List.forall_mem_cons.mp hbefore).2, rfl⟩,
                  rfl⟩

/-- A label that is stored is no blank text, and has no blanks around it. -/
theorem normalizeLabel_eq_some {label : Option String} {l : String}
    (h : normalizeLabel label = some l) : l ≠ "" ∧ Text.trim l = l := by
  obtain ⟨htrimmed, hkept⟩ := Option.filter_eq_some_iff.mp h
  obtain ⟨_, _, rfl⟩ := Option.map_eq_some_iff.mp htrimmed
  exact ⟨by simpa using hkept, Text.trim_trim _⟩

theorem Edge.connects_iff {e : Edge} {source target : String} {label : Option String} :
    e.connects source target label = true ↔ e.source = source ∧ e.target = target ∧
    e.label = label := by
  simp [connects, and_assoc]

namespace Workflow

variable {w w' : Workflow} {id source target : String}

/-! ### Nodes and edges by identifier -/

theorem findNode?_eq_none_iff : w.findNode? id = none ↔ id ∉ w.nodes.map (·.id) := by
  simp [findNode?]

theorem findNode?_eq_some_iff {n : Node} : w.findNode? id = some n ↔
    ∃ before after, w.nodes = before ++ n :: after ∧ n.id = id ∧ ∀ m ∈ before, m.id ≠ id := by
  rw [findNode?, List.find?_eq_some_iff_append]
  simp only [decide_eq_true_eq, Bool.not_eq_eq_eq_not, Bool.not_true, decide_eq_false_iff_not]
  constructor
  · rintro ⟨hid, before, after, hnodes, hbefore⟩
    exact ⟨before, after, hnodes, hid, hbefore⟩
  · rintro ⟨before, after, hnodes, hid, hbefore⟩
    exact ⟨hid, before, after, hnodes, hbefore⟩

theorem findEdge?_eq_some_iff {e : Edge} : w.findEdge? id = some e ↔
    ∃ before after, w.edges = before ++ e :: after ∧ e.id = id ∧ ∀ d ∈ before, d.id ≠ id := by
  rw [findEdge?, List.find?_eq_some_iff_append]
  simp only [decide_eq_true_eq, Bool.not_eq_eq_eq_not, Bool.not_true, decide_eq_false_iff_not]
  constructor
  · rintro ⟨hid, before, after, hedges, hbefore⟩
    exact ⟨before, after, hedges, hid, hbefore⟩
  · rintro ⟨before, after, hedges, hid, hbefore⟩
    exact ⟨hid, before, after, hedges, hbefore⟩

/-! ### Adding -/

theorem insertNode_eq_some_iff {n : Node} : w.insertNode n = some w' ↔
    n.id ∉ w.nodes.map (·.id) ∧ w' = { w with nodes := w.nodes ++ [n] } := by
  rw [insertNode, ← findNode?_eq_none_iff]
  cases w.findNode? n.id <;> simp [eq_comm]

/-- Two nodes can be joined under a label: they are different nodes, the first is no end node and
the second no start node, and no edge joins them under it already. -/
structure Joinable (w : Workflow) (source target : String) (label : Option String) : Prop where
  not_loop : source ≠ target
  source_found : ∃ n, w.findNode? source = some n ∧ n.kind ≠ .finish
  target_found : ∃ n, w.findNode? target = some n ∧ n.kind ≠ .start
  free : ∀ e ∈ w.edges, ¬ e.connects source target label

theorem newEdge?_eq_some_iff {edgeId : Uuid} {label : Option String} {e : Edge} :
    w.newEdge? edgeId source target label = some e ↔
      w.Joinable source target (normalizeLabel label) ∧
        ⟨edgeId.toString, source, target, normalizeLabel label⟩ = e := by
  rw [newEdge?]
  -- the checks in the order of the code, each of them a condition of `Joinable`
  by_cases hloop : source = target
  · subst hloop
    have hnot : ¬ w.Joinable source source (normalizeLabel label) := fun h => h.not_loop rfl
    simp [hnot, failure]
  cases hsource : w.findNode? source with
  | none =>
      have hnot : ¬ w.Joinable source target (normalizeLabel label) := fun h => by
        simpa [hsource] using h.source_found
      simp [hloop, hnot]
  | some s =>
      cases htarget : w.findNode? target with
      | none =>
          have hnot : ¬ w.Joinable source target (normalizeLabel label) := fun h => by
            simpa [htarget] using h.target_found
          simp [hloop, hnot]
      | some t =>
          by_cases hkinds : s.kind = .finish ∨ t.kind = .start
          · have hnot : ¬ w.Joinable source target (normalizeLabel label) := fun h => by
              obtain ⟨_, hs, ht, _⟩ := h
              simp only [hsource, htarget, Option.some.injEq, exists_eq_left'] at hs ht
              exact hkinds.elim hs ht
            simp [hloop, hkinds, hnot, failure]
          cases hjoined : w.edges.any (·.connects source target (normalizeLabel label)) with
          | true =>
              obtain ⟨d, hd, hconnects⟩ := List.any_eq_true.mp hjoined
              have hnot : ¬ w.Joinable source target (normalizeLabel label) :=
                fun h => h.free d hd hconnects
              simp [hloop, hjoined, hnot, failure]
          | false =>
              rw [not_or] at hkinds
              have hjoinable : w.Joinable source target (normalizeLabel label) :=
                ⟨hloop, ⟨s, hsource, hkinds.1⟩, ⟨t, htarget, hkinds.2⟩,
                  List.any_eq_false.mp hjoined⟩
              simp [hloop, hkinds, hjoined, hjoinable]

theorem addEdge_eq_some_iff {edgeId : Uuid} {label : Option String} :
    w.addEdge edgeId source target label = some w' ↔
      w.Joinable source target (normalizeLabel label) ∧
      w' = { w with edges := w.edges ++
        [⟨edgeId.toString, source, target, normalizeLabel label⟩] } := by
  simp [addEdge, newEdge?_eq_some_iff, and_assoc, @eq_comm _ w']

/-! ### Removing -/

theorem removeNode_eq_some_iff : w.removeNode id = some w' ↔ id ∈ w.nodes.map (·.id) ∧
    w' = { w with
      nodes := w.nodes.filter (·.id ≠ id)
      edges := w.edges.filter fun e => e.source ≠ id && e.target ≠ id } := by
  have hany : w.nodes.any (·.id = id) = true ↔ id ∈ w.nodes.map (·.id) := by simp
  rw [removeNode, ← hany]
  split
  next h => rw [and_iff_right h, Option.some.injEq, eq_comm]
  next h => simp only [h, false_and, reduceCtorEq]

theorem removeEdge_eq_some_iff : w.removeEdge id = some w' ↔ id ∈ w.edges.map (·.id) ∧
    w' = { w with edges := w.edges.filter (·.id ≠ id) } := by
  have hany : w.edges.any (·.id = id) = true ↔ id ∈ w.edges.map (·.id) := by simp
  rw [removeEdge, ← hany]
  split
  next h => rw [and_iff_right h, Option.some.injEq, eq_comm]
  next h => simp only [h, false_and, reduceCtorEq]

/-! ### Changing -/

/-- The edge can be relabelled: no edge with another identifier joins the same nodes under the
label. -/
def Relabelable (w : Workflow) (e : Edge) (label : Option String) : Prop :=
  ∀ d ∈ w.edges, d.id ≠ e.id → ¬ d.connects e.source e.target label

/-- The label is that of the first edge with the identifier. -/
theorem relabelEdge_eq_some_iff {label : Option String} : w.relabelEdge id label = some w' ↔
    ∃ before e after, w.edges = before ++ e :: after ∧ e.id = id ∧ (∀ d ∈ before, d.id ≠ id) ∧
      w.Relabelable e (normalizeLabel label) ∧
      w' = { w with edges := before ++ { e with label := normalizeLabel label } :: after } := by
  -- the search for the edge and the change of the edge come to the same place
  have hplace : ∀ {before e after}, w.edges = before ++ e :: after → e.id = id →
      (∀ d ∈ before, d.id ≠ id) → w.findEdge? id = some e ∧
        updateFirst (·.id = id) (fun e => { e with label := normalizeLabel label }) w.edges =
          some (before ++ { e with label := normalizeLabel label } :: after) := by
    intro before e after hsplit hid hbefore
    refine ⟨findEdge?_eq_some_iff.mpr ⟨before, after, hsplit, hid, hbefore⟩, ?_⟩
    exact updateFirst_eq_some_iff.mpr ⟨before, e, after, hsplit, by simpa using hid,
      by simpa using hbefore, rfl⟩
  -- the code compares with all edges but the one of this id
  have hfree : ∀ {e : Edge}, e.id = id → (w.Relabelable e (normalizeLabel label) ↔
      ¬ w.edges.any
        (fun d => d.id ≠ id && d.connects e.source e.target (normalizeLabel label))) := by
    intro e hid
    simp [Relabelable, hid]
  rw [relabelEdge]
  constructor
  · intro h
    obtain ⟨e, hfind, h⟩ := Option.bind_eq_some_iff.mp h
    obtain ⟨before, after, hsplit, hid, hbefore⟩ := findEdge?_eq_some_iff.mp hfind
    by_cases hjoined : w.edges.any fun d => d.id ≠ id &&
      d.connects e.source e.target (normalizeLabel label)
    · rw [if_pos hjoined] at h
      cases h
    · rw [if_neg hjoined, (hplace hsplit hid hbefore).2] at h
      cases h
      exact ⟨before, e, after, hsplit, hid, hbefore, (hfree hid).mpr hjoined, rfl⟩
  · rintro ⟨before, e, after, hsplit, hid, hbefore, hrelabelable, rfl⟩
    obtain ⟨hfind, hupdate⟩ := hplace hsplit hid hbefore
    refine Option.bind_eq_some_iff.mpr ⟨e, hfind, ?_⟩
    rw [if_neg ((hfree hid).mp hrelabelable), hupdate]
    rfl

/-- The first node with the identifier is changed. -/
theorem updateNode_eq_some_iff {f : Node → Node} : w.updateNode id f = some w' ↔
    ∃ before n after, w.nodes = before ++ n :: after ∧ n.id = id ∧ (∀ m ∈ before, m.id ≠ id) ∧
      w' = { w with nodes := before ++ f n :: after } := by
  rw [updateNode, Option.map_eq_some_iff]
  constructor
  · rintro ⟨_, hnodes, rfl⟩
    obtain ⟨before, n, after, hsplit, hid, hbefore, rfl⟩ := updateFirst_eq_some_iff.mp hnodes
    exact ⟨before, n, after, hsplit, by simpa using hid, by simpa using hbefore, rfl⟩
  · rintro ⟨before, n, after, hsplit, hid, hbefore, rfl⟩
    refine ⟨_, updateFirst_eq_some_iff.mpr ⟨before, n, after, hsplit, ?_, ?_, rfl⟩, rfl⟩
    · simpa using hid
    · simpa using hbefore

/-- The first node with the identifier gets the data, if they are of its kind. -/
theorem updateNodeData_eq_some_iff {data : NodeData} : w.updateNodeData id data = some w' ↔
    ∃ before n after, w.nodes = before ++ n :: after ∧ n.id = id ∧ (∀ m ∈ before, m.id ≠ id) ∧
      n.kind = data.kind ∧ w' = { w with nodes := before ++ { n with data } :: after } := by
  rw [updateNodeData]
  constructor
  · intro h
    obtain ⟨n, hfind, h⟩ := Option.bind_eq_some_iff.mp h
    by_cases hk : n.kind = data.kind
    · rw [if_neg (not_not.mpr hk)] at h
      obtain ⟨before, m, after, hsplit, hid, hbefore, rfl⟩ := updateNode_eq_some_iff.mp h
      -- the node found is the one changed
      rw [findNode?_eq_some_iff.mpr ⟨before, after, hsplit, hid, hbefore⟩] at hfind
      cases hfind
      exact ⟨before, n, after, hsplit, hid, hbefore, hk, rfl⟩
    · rw [if_pos hk] at h
      cases h
  · rintro ⟨before, n, after, hsplit, hid, hbefore, hk, rfl⟩
    have hfind := findNode?_eq_some_iff.mpr ⟨before, after, hsplit, hid, hbefore⟩
    refine Option.bind_eq_some_iff.mpr ⟨n, hfind, ?_⟩
    rw [if_neg (not_not.mpr hk)]
    exact updateNode_eq_some_iff.mpr ⟨before, n, after, hsplit, hid, hbefore, rfl⟩

/-! ### Replacing -/

/-- Only a valid graph is put in place of another one. -/
theorem replaceGraph_eq_ok_iff {nodes : List Node} {edges : List Edge} :
    w.replaceGraph nodes edges = .ok w' ↔ validateAll nodes edges = [] ∧
    w' = { w with nodes, edges } := by
  rw [← validate_eq_ok_iff, replaceGraph]
  cases validate nodes edges with
  | error e => simp [bind, Except.bind]
  | ok _ => simp [bind, Except.bind, pure, Except.pure, eq_comm]

end Workflow

end AgentGraph
