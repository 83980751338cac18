import Mathlib.Data.List.Infix
import AgentGraph.Proofs.Workflow.Effect
import AgentGraph.Proofs.Workflow.Lint

/-!
# Graphs that authors make

An author who starts with a new workflow and adds, removes and changes nodes and edges one by one
gets an `Orderly` graph, whatever the order of the edits and whatever their arguments are:
identifiers are not used twice, edges join two different nodes, no edge enters a start node or
leaves an end node, and no two edges are alike. What the edits mint has to be new, of course.

The invariant speaks of the kinds of nodes at the ends of edges, so it rests on another one: a node
keeps its kind as long as it stays (`keepsKinds_of_result?`). With that, every edit that adds no
edge and changes none is dealt with by one lemma, `Orderly.of_keepsKinds`, and only adding and
relabelling an edge need arguments of their own. `authored_orderly` goes through whole histories.
-/

namespace AgentGraph

/-! ### Histories -/

namespace Workflow

/-- The identifiers in use. -/
def ids (w : Workflow) : List String := w.nodes.map (·.id) ++ w.edges.map (·.id)

end Workflow

namespace Edit

/-- The edit is about one node or one edge, and does not replace the graph as a whole. -/
def IsLocal : Edit → Prop
  | replaceGraph .. => False
  | _ => True

/-- The identifier that the edit mints, if it mints one, is not in use. -/
def MintsNew (w : Workflow) : Edit → Prop
  | addNode id .. | addEdge id .. => id.toString ∉ w.ids
  | _ => True

/-- Each edit of a history mints what is not in use at that time. -/
def AllMintNew : Workflow → List Edit → Prop
  | _, [] => True
  | w, e :: edits => e.MintsNew w ∧ AllMintNew (e.apply w) edits

instance : DecidablePred IsLocal
  | replaceGraph .. => inferInstanceAs (Decidable False)
  | addNode .. | insertNode _ | removeNode _ | renameNode .. | moveNode .. | updateNodeData
      .. | addEdge ..
  | removeEdge _ | relabelEdge .. => inferInstanceAs (Decidable True)

instance (w : Workflow) : DecidablePred (MintsNew w)
  | addNode id .. | addEdge id .. => inferInstanceAs (Decidable (id.toString ∉ w.ids))
  | insertNode _ | removeNode _ | renameNode .. | moveNode .. | updateNodeData .. | removeEdge _
  | relabelEdge .. | replaceGraph .. => inferInstanceAs (Decidable True)

instance decidableAllMintNew (w : Workflow) : (edits : List Edit) → Decidable (AllMintNew w edits)
  | [] => inferInstanceAs (Decidable True)
  | e :: edits =>
      have := decidableAllMintNew (e.apply w) edits
      inferInstanceAs (Decidable (_ ∧ _))

theorem applyAll_append (w : Workflow) (edits more : List Edit) :
    applyAll w (edits ++ more) = applyAll (applyAll w edits) more :=
  List.foldl_append

end Edit

namespace Workflow

variable {w w' : Workflow} {id : String} {e : Edit}

/-! ### Kinds -/

/-- The kind of the node with an identifier. -/
def kindOf? (w : Workflow) (id : String) : Option NodeKind := (w.findNode? id).map (·.kind)

/-- The identifiers of the nodes with their kinds. -/
def roster (w : Workflow) : List (String × NodeKind) := w.nodes.map fun n => (n.id, n.kind)

theorem kindOf?_eq_find? : w.kindOf? id = (w.roster.find? (·.1 = id)).map (·.2) := by
  rw [kindOf?, roster, List.find?_map, Option.map_map]
  rfl

theorem kindOf?_of_mem (hnodup : (w.nodes.map (·.id)).Nodup) {n : Node} (hn : n ∈ w.nodes) :
    w.kindOf? n.id = some n.kind := by
  obtain ⟨m, hm⟩ := exists_findNode? (List.mem_map_of_mem hn)
  have hsame : m = n :=
    List.inj_on_of_nodup_map hnodup (mem_of_findNode? hm) hn (id_of_findNode? hm)
  rw [kindOf?, hm, hsame, Option.map_some]

/-- Every node that is in both workflows is of the same kind in both. -/
def KeepsKinds (w w' : Workflow) : Prop :=
  ∀ id ∈ w.nodes.map (·.id), id ∈ w'.nodes.map (·.id) → w'.kindOf? id = w.kindOf? id

theorem KeepsKinds.of_roster_eq (h : w'.roster = w.roster) : w.KeepsKinds w' := by
  intro id _ _
  rw [kindOf?_eq_find?, kindOf?_eq_find?, h]

theorem keepsKinds_add (n : Node) (edges : List Edge) :
    w.KeepsKinds { w with nodes := w.nodes ++ [n], edges } := by
  intro id hid _
  obtain ⟨m, hm⟩ := exists_findNode? hid
  rw [findNode?] at hm
  simp [kindOf?, findNode?, hm]

theorem keepsKinds_remove (removed : String) (edges : List Edge) :
    w.KeepsKinds { w with nodes := w.nodes.filter (·.id ≠ removed), edges } := by
  intro id _ hid
  have hne : id ≠ removed := by
    obtain ⟨n, hn, rfl⟩ := List.mem_map.mp hid
    simpa using (List.mem_filter.mp hn).2
  simp only [kindOf?, findNode?, List.find?_filter]
  congr 2
  funext n
  by_cases hn : n.id = id
  · simp [hn, hne]
  · simp [hn]

/-- Changing a node in a way that changes neither its identifier nor its kind changes no entry of
the roster. -/
theorem roster_update {before after : List Node} {m n : Node}
    (hsplit : w.nodes = before ++ n :: after) (hid : m.id = n.id) (hkind : m.kind = n.kind) :
    roster { w with nodes := before ++ m :: after } = w.roster := by
  simp [roster, hsplit, hid, hkind]

/-- **A node keeps its kind** when the workflow is edited. -/
theorem keepsKinds_of_result? (hlocal : e.IsLocal) (h : e.result? w = some w') :
    w.KeepsKinds w' := by
  cases e with
  | addNode mint kind position =>
      cases h
      exact keepsKinds_add _ _
  | insertNode n =>
      obtain ⟨_, rfl⟩ := insertNode_eq_some_iff.mp h
      exact keepsKinds_add _ _
  | removeNode removed =>
      obtain ⟨_, rfl⟩ := removeNode_eq_some_iff.mp h
      exact keepsKinds_remove _ _
  -- a node that is changed keeps its id and its kind
  | renameNode id name =>
      obtain ⟨before, n, after, hsplit, _, _, rfl⟩ := updateNode_eq_some_iff.mp h
      exact .of_roster_eq (roster_update hsplit rfl rfl)
  | moveNode id position =>
      obtain ⟨before, n, after, hsplit, _, _, rfl⟩ := updateNode_eq_some_iff.mp h
      exact .of_roster_eq (roster_update hsplit rfl rfl)
  | updateNodeData id data =>
      obtain ⟨before, n, after, hsplit, _, _, hkind, rfl⟩ := updateNodeData_eq_some_iff.mp h
      exact .of_roster_eq (roster_update hsplit rfl hkind.symm)
  -- the nodes are untouched
  | addEdge mint source target label =>
      obtain ⟨_, rfl⟩ := addEdge_eq_some_iff.mp h
      exact .of_roster_eq rfl
  | removeEdge removed =>
      obtain ⟨_, rfl⟩ := removeEdge_eq_some_iff.mp h
      exact .of_roster_eq rfl
  | relabelEdge id label =>
      obtain ⟨_, _, _, _, _, _, _, rfl⟩ := relabelEdge_eq_some_iff.mp h
      exact .of_roster_eq rfl
  | replaceGraph nodes edges => exact hlocal.elim

/-! ### Orderly graphs -/

/-- The edge joins two different nodes, it leaves no end node and enters no start node, and its
label is no blank text and has no blanks around it. -/
structure Fits (w : Workflow) (e : Edge) : Prop where
  source_mem : e.source ∈ w.nodes.map (·.id)
  target_mem : e.target ∈ w.nodes.map (·.id)
  not_loop : e.source ≠ e.target
  not_from_finish : w.kindOf? e.source ≠ some .finish
  not_into_start : w.kindOf? e.target ≠ some .start
  label_trimmed : ∀ label, e.label = some label → label ≠ "" ∧ Text.trim label = label

/-- What holds of every graph that is made edit by edit. -/
structure Orderly (w : Workflow) : Prop where
  nodes_nodup : (w.nodes.map (·.id)).Nodup
  edges_nodup : (w.edges.map (·.id)).Nodup
  fits : ∀ e ∈ w.edges, w.Fits e
  /-- Edges that agree in their ends and their label are the same edge. -/
  unlike : ∀ d ∈ w.edges, ∀ e ∈ w.edges, d.connects e.source e.target e.label → d = e

theorem orderly_empty (id : Uuid) (name : String) : (empty id name).Orderly := by
  constructor <;> simp [empty]

/-! ### Edits of nodes -/

/-- Nodes may come and go and edges may go, as long as the edges that stay join nodes that stay. -/
theorem Orderly.of_keepsKinds (h : w.Orderly) (hkinds : w.KeepsKinds w')
    (hnodes : (w'.nodes.map (·.id)).Nodup) (hedges : w'.edges.Sublist w.edges)
    (hends : ∀ e ∈ w'.edges, e.source ∈ w'.nodes.map (·.id) ∧ e.target ∈ w'.nodes.map (·.id)) :
    w'.Orderly where
  nodes_nodup := hnodes
  edges_nodup := h.edges_nodup.sublist (hedges.map _)
  fits := by
    intro e he
    obtain ⟨hsource, htarget, hloop, hfinish, hstart, hlabel⟩ := h.fits e (hedges.subset he)
    obtain ⟨hsource', htarget'⟩ := hends e he
    -- the ends that are left are of the kinds they were
    rw [← hkinds _ hsource hsource'] at hfinish
    rw [← hkinds _ htarget htarget'] at hstart
    exact ⟨hsource', htarget', hloop, hfinish, hstart, hlabel⟩
  unlike := fun d hd e he => h.unlike d (hedges.subset hd) e (hedges.subset he)

theorem Orderly.ends_mem (h : w.Orderly) {e : Edge} (he : e ∈ w.edges) :
    e.source ∈ w.nodes.map (·.id) ∧ e.target ∈ w.nodes.map (·.id) :=
  ⟨(h.fits e he).source_mem, (h.fits e he).target_mem⟩

theorem nodup_map_concat {α : Type} {f : α → String} {as : List α} {a : α} (h : (as.map f).Nodup)
    (ha : f a ∉ as.map f) : ((as ++ [a]).map f).Nodup := by
  rw [List.map_append, List.map_singleton, ← List.concat_eq_append]
  exact h.concat ha

/-- The edges that stay when a node is removed lead from nodes to nodes, as they did before. -/
theorem ends_mem_remove {removed : String} {e : Edge}
    (hends : ∀ e ∈ w.edges, e.source ∈ w.nodes.map (·.id) ∧ e.target ∈ w.nodes.map (·.id))
    (he : e ∈ w.edges.filter fun e => e.source ≠ removed && e.target ≠ removed) :
    e.source ∈ (w.nodes.filter (·.id ≠ removed)).map (·.id) ∧
      e.target ∈ (w.nodes.filter (·.id ≠ removed)).map (·.id) := by
  have hstays : ∀ id ∈ w.nodes.map (·.id), id ≠ removed →
      id ∈ (w.nodes.filter (·.id ≠ removed)).map (·.id) := by
    intro id hid hne
    obtain ⟨n, hn, rfl⟩ := List.mem_map.mp hid
    exact List.mem_map_of_mem (List.mem_filter.mpr ⟨hn, by simpa using hne⟩)
  obtain ⟨he, hkept⟩ := List.mem_filter.mp he
  obtain ⟨hsource, htarget⟩ : e.source ≠ removed ∧ e.target ≠ removed := by simpa using hkept
  exact ⟨hstays _ (hends e he).1 hsource, hstays _ (hends e he).2 htarget⟩

theorem Orderly.add_node (h : w.Orderly) {n : Node} (hn : n.id ∉ w.nodes.map (·.id)) :
    Orderly { w with nodes := w.nodes ++ [n] } := by
  apply h.of_keepsKinds (keepsKinds_add n _) (nodup_map_concat h.nodes_nodup hn)
    (List.Sublist.refl _)
  intro e he
  simp only [List.map_append, List.mem_append]
  exact (h.ends_mem he).imp .inl .inl

theorem Orderly.update_node (h : w.Orderly) {before after : List Node} {m n : Node}
    (hsplit : w.nodes = before ++ n :: after) (hid : m.id = n.id) (hkind : m.kind = n.kind) :
    Orderly { w with nodes := before ++ m :: after } := by
  have hids : (before ++ m :: after).map (·.id) = w.nodes.map (·.id) := by simp [hsplit, hid]
  apply h.of_keepsKinds (.of_roster_eq (roster_update hsplit hid hkind)) _ (List.Sublist.refl _)
  · rw [hids]
    exact fun e => h.ends_mem
  · rw [hids]
    exact h.nodes_nodup

theorem Orderly.remove_node (h : w.Orderly) (removed : String) : Orderly { w with
    nodes := w.nodes.filter (·.id ≠ removed)
    edges := w.edges.filter fun e => e.source ≠ removed && e.target ≠ removed } := by
  exact h.of_keepsKinds (keepsKinds_remove removed _)
    (h.nodes_nodup.sublist (List.filter_sublist.map _))
    List.filter_sublist fun e => ends_mem_remove fun e => h.ends_mem

/-! ### Edits of edges -/

theorem Orderly.remove_edge (h : w.Orderly) (p : Edge → Bool) :
    Orderly { w with edges := w.edges.filter p } :=
  h.of_keepsKinds (.of_roster_eq rfl) h.nodes_nodup List.filter_sublist
    fun _ he => h.ends_mem (List.mem_filter.mp he).1

/-- An edge that fits may join the others, or take the place of one, if none of the others is like
it. -/
theorem Orderly.put_edge (h : w.Orderly) {e : Edge} {edges : List Edge} (he : w.Fits e)
    (hnodup : (edges.map (·.id)).Nodup)
    (hothers : ∀ d ∈ edges, d = e ∨ d ∈ w.edges ∧ ¬ d.connects e.source e.target e.label) :
    Orderly { w with edges } where
  nodes_nodup := h.nodes_nodup
  edges_nodup := hnodup
  -- an edge is the one that was put, or it is an old one that joins something else
  fits := by
    intro d hd
    rcases hothers d hd with rfl | ⟨hd, _⟩
    · exact ⟨he.1, he.2, he.3, he.4, he.5, he.6⟩
    · obtain ⟨hsource, htarget, hloop, hfinish, hstart, hlabel⟩ := h.fits d hd
      exact ⟨hsource, htarget, hloop, hfinish, hstart, hlabel⟩
  unlike := by
    intro c hc d hd hconnects
    rcases hothers c hc with rfl | ⟨hc, hother⟩
    · rcases hothers d hd with rfl | ⟨_, hother⟩
      · rfl
      · obtain ⟨hsource, htarget, hlabel⟩ := Edge.connects_iff.mp hconnects
        exact absurd (Edge.connects_iff.mpr ⟨hsource.symm, htarget.symm, hlabel.symm⟩) hother
    · rcases hothers d hd with rfl | ⟨hd, _⟩
      · exact absurd hconnects hother
      · exact h.unlike c hc d hd hconnects

theorem fits_of_joinable {e : Edge} (hjoinable : w.Joinable e.source e.target e.label)
    (hlabel : ∀ label, e.label = some label → label ≠ "" ∧ Text.trim label = label) : w.Fits e := by
  obtain ⟨hloop, ⟨s, hs, hsource⟩, ⟨t, ht, htarget⟩, _⟩ := hjoinable
  constructor
  case source_mem =>
    rw [← id_of_findNode? hs]
    exact List.mem_map_of_mem (mem_of_findNode? hs)
  case target_mem =>
    rw [← id_of_findNode? ht]
    exact List.mem_map_of_mem (mem_of_findNode? ht)
  case not_loop => exact hloop
  case not_from_finish => simpa [kindOf?, hs] using hsource
  case not_into_start => simpa [kindOf?, ht] using htarget
  case label_trimmed => exact hlabel

theorem Orderly.add_edge (h : w.Orderly) {e : Edge} (hid : e.id ∉ w.edges.map (·.id))
    (hjoinable : w.Joinable e.source e.target e.label)
    (hlabel : ∀ label, e.label = some label → label ≠ "" ∧ Text.trim label = label) :
    Orderly { w with edges := w.edges ++ [e] } := by
  apply h.put_edge (fits_of_joinable hjoinable hlabel) (nodup_map_concat h.edges_nodup hid)
  intro d hd
  rcases List.mem_append.mp hd with hd | hd
  · exact .inr ⟨hd, hjoinable.free d hd⟩
  · exact .inl (List.mem_singleton.mp hd)

theorem Orderly.relabel_edge (h : w.Orderly) {before after : List Edge} {e : Edge}
    {label : Option String} (hsplit : w.edges = before ++ e :: after)
    (hrelabelable : w.Relabelable e label)
    (hlabel : ∀ l, label = some l → l ≠ "" ∧ Text.trim l = l) :
    Orderly { w with edges := before ++ { e with label } :: after } := by
  have hids : (before ++ { e with label } :: after).map (·.id) = w.edges.map (·.id) := by
    simp [hsplit]
  -- every other edge has another identifier, so the edit has looked at it
  have hothers : ∀ d ∈ before ++ after, d ∈ w.edges ∧ d.id ≠ e.id := by
    have hnodup : ((e :: (before ++ after)).map (·.id)).Nodup := by
      rw [← (List.perm_middle.map _).nodup_iff, ← hsplit]
      exact h.edges_nodup
    intro d hd
    refine ⟨?_, fun hid => (List.nodup_cons.mp hnodup).1 (List.mem_map.mpr ⟨d, hd, hid⟩)⟩
    rw [hsplit]
    exact List.perm_middle.mem_iff.mpr (List.mem_cons_of_mem e hd)
  obtain ⟨hsource, htarget, hloop, hfinish, hstart, _⟩ := h.fits e (by simp [hsplit])
  have hfits : w.Fits { e with label } := ⟨hsource, htarget, hloop, hfinish, hstart, hlabel⟩
  apply h.put_edge hfits
  · rw [hids]
    exact h.edges_nodup
  · intro d hd
    rcases List.mem_cons.mp (List.perm_middle.mem_iff.mp hd) with rfl | hd
    · exact .inl rfl
    · obtain ⟨hold, hid⟩ := hothers d hd
      exact .inr ⟨hold, hrelabelable d hold hid⟩

/-! ### Histories of edits -/

/-- **Every edit keeps an orderly graph orderly.** -/
theorem Orderly.of_result? (h : w.Orderly) (hlocal : e.IsLocal) (hnew : e.MintsNew w)
    (hresult : e.result? w = some w') : w'.Orderly := by
  cases e with
  | addNode mint kind position =>
      cases hresult
      exact h.add_node fun hmem => hnew (List.mem_append_left _ hmem)
  | insertNode n =>
      obtain ⟨hfree, rfl⟩ := insertNode_eq_some_iff.mp hresult
      exact h.add_node hfree
  | addEdge mint source target label =>
      obtain ⟨hjoinable, rfl⟩ := addEdge_eq_some_iff.mp hresult
      refine h.add_edge (fun hmem => hnew (List.mem_append_right _ hmem)) hjoinable ?_
      exact fun _ => normalizeLabel_eq_some
  | removeNode removed =>
      obtain ⟨_, rfl⟩ := removeNode_eq_some_iff.mp hresult
      exact h.remove_node removed
  | removeEdge removed =>
      obtain ⟨_, rfl⟩ := removeEdge_eq_some_iff.mp hresult
      exact h.remove_edge _
  | relabelEdge id label =>
      obtain ⟨_, _, _, hsplit, _, _, hrelabelable, rfl⟩ := relabelEdge_eq_some_iff.mp hresult
      exact h.relabel_edge hsplit hrelabelable fun _ => normalizeLabel_eq_some
  | renameNode id name =>
      obtain ⟨_, _, _, hsplit, _, _, rfl⟩ := updateNode_eq_some_iff.mp hresult
      exact h.update_node hsplit rfl rfl
  | moveNode id position =>
      obtain ⟨_, _, _, hsplit, _, _, rfl⟩ := updateNode_eq_some_iff.mp hresult
      exact h.update_node hsplit rfl rfl
  | updateNodeData id data =>
      obtain ⟨_, _, _, hsplit, _, _, hkind, rfl⟩ := updateNodeData_eq_some_iff.mp hresult
      exact h.update_node hsplit rfl hkind.symm
  | replaceGraph nodes edges => exact hlocal.elim

/-- A refused edit changes nothing, so it keeps an orderly graph orderly too. -/
theorem Orderly.apply (h : w.Orderly) (hlocal : e.IsLocal) (hnew : e.MintsNew w) :
    (e.apply w).Orderly := by
  rw [Edit.apply]
  cases hresult : e.result? w with
  | none => exact h
  | some w' => exact h.of_result? hlocal hnew hresult

theorem Orderly.applyAll (h : w.Orderly) {edits : List Edit} (hlocal : ∀ e ∈ edits, e.IsLocal)
    (hnew : Edit.AllMintNew w edits) : (Edit.applyAll w edits).Orderly := by
  induction edits generalizing w with
  | nil => exact h
  | cons e edits ih =>
      obtain ⟨he, hedits⟩ := List.forall_mem_cons.mp hlocal
      exact ih (h.apply he hnew.1) hedits hnew.2

theorem keepsKinds_apply (hlocal : e.IsLocal) : w.KeepsKinds (e.apply w) := by
  rw [Edit.apply]
  cases hresult : e.result? w with
  | none => exact .of_roster_eq rfl
  | some w' => exact keepsKinds_of_result? hlocal hresult

/-- A node keeps its kind through a history during which it stays. -/
theorem kindOf?_applyAll {edits : List Edit} (hlocal : ∀ e ∈ edits, e.IsLocal)
    (hstays : ∀ past, past <+: edits → id ∈ (Edit.applyAll w past).nodes.map (·.id)) :
    (Edit.applyAll w edits).kindOf? id = w.kindOf? id := by
  induction edits generalizing w with
  | nil => rfl
  | cons e edits ih =>
      obtain ⟨he, hedits⟩ := List.forall_mem_cons.mp hlocal
      have hbefore := hstays [] List.nil_prefix
      have hafter := hstays [e] (List.prefix_append [e] edits)
      have hrest : (Edit.applyAll (e.apply w) edits).kindOf? id = (e.apply w).kindOf? id :=
        ih hedits fun past hpast => hstays (e :: past) (List.cons_prefix_cons.mpr ⟨rfl, hpast⟩)
      exact hrest.trans (keepsKinds_apply he id hbefore hafter)

/-- The linter has nothing to say about edges that leave end nodes or enter start nodes. -/
theorem Orderly.not_mem_lint (h : w.Orderly) (label : String) :
    .edgeFromEnd label ∉ w.lint ∧ .edgeIntoStart label ∉ w.lint := by
  constructor
  · intro hwarn
    obtain ⟨n, hn, hwarn⟩ := mem_lint.mp hwarn
    obtain ⟨_, hkind, houtgoing⟩ := edgeFromEnd_mem_lintNode.mp hwarn
    -- the warning is about an edge, and no edge leaves an end node
    obtain ⟨e, he⟩ := List.exists_mem_of_ne_nil _ houtgoing
    obtain ⟨he, hsource⟩ := mem_outgoing.mp he
    apply (h.fits e he).not_from_finish
    rw [hsource, kindOf?_of_mem h.nodes_nodup hn, hkind]
  · intro hwarn
    obtain ⟨n, hn, hwarn⟩ := mem_lint.mp hwarn
    obtain ⟨_, hkind, hincoming⟩ := edgeIntoStart_mem_lintNode.mp hwarn
    obtain ⟨e, he⟩ := List.exists_mem_of_ne_nil _ hincoming
    obtain ⟨he, htarget⟩ := List.mem_filter.mp he
    apply (h.fits e he).not_into_start
    rw [show e.target = n.id by simpa using htarget, kindOf?_of_mem h.nodes_nodup hn, hkind]

/-- The edits that make a new workflow a starter. -/
def starterEdits (startId endId edgeId : Uuid) : List Edit :=
  [.addNode startId .start ⟨.ofNat 100, .ofNat 200⟩,
    .addNode endId .finish ⟨.ofNat 500, .ofNat 200⟩,
    .addEdge edgeId startId.toString endId.toString none]

theorem starter_eq_applyAll (id startId endId edgeId : Uuid) (name : String) :
    starter id startId endId edgeId name =
      Edit.applyAll (empty id name) (starterEdits startId endId edgeId) := by
  simp only [starter, starterEdits, Edit.applyAll, List.foldl_cons, List.foldl_nil, Edit.apply,
    Edit.result?, Option.getD_some]

/-- The workflows that authors begin with: one without nodes, and one in which a start node leads
straight to an end node. -/
inductive IsNew : Workflow → Prop where
  | empty (id : Uuid) (name : String) : IsNew (.empty id name)
  | starter {id startId endId edgeId : Uuid} {name : String} :
      Edit.AllMintNew (.empty id name) (starterEdits startId endId edgeId) →
      IsNew (.starter id startId endId edgeId name)

theorem IsNew.orderly (h : w.IsNew) : w.Orderly := by
  cases h with
  | empty id name => exact orderly_empty id name
  | starter hnew =>
      rw [starter_eq_applyAll]
      exact (orderly_empty _ _).applyAll (by simp [starterEdits, Edit.IsLocal]) hnew

/-- **Authors make orderly graphs.** After any history of edits of single nodes and edges, accepted
or refused, a new workflow is orderly; so the linter does not warn of edges that leave end nodes or
enter start nodes. And a node has at the end the kind that it had at any time since when it
stayed. -/
theorem authored_orderly {w : Workflow} (hw : w.IsNew) {edits : List Edit}
    (hlocal : ∀ e ∈ edits, e.IsLocal) (hnew : Edit.AllMintNew w edits) :
    (Edit.applyAll w edits).Orderly ∧
    (∀ label, .edgeFromEnd label ∉ (Edit.applyAll w edits).lint ∧
      .edgeIntoStart label ∉ (Edit.applyAll w edits).lint) ∧
    ∀ before since, edits = before ++ since → ∀ id,
      (∀ past, past <+: since → id ∈ (Edit.applyAll w (before ++ past)).nodes.map (·.id)) →
      (Edit.applyAll w edits).kindOf? id = (Edit.applyAll w before).kindOf? id := by
  have horderly := hw.orderly.applyAll hlocal hnew
  refine ⟨horderly, horderly.not_mem_lint, ?_⟩
  rintro before since rfl id hstays
  rw [Edit.applyAll_append]
  apply kindOf?_applyAll fun e he => hlocal e (List.mem_append_right _ he)
  -- the node has been there all the time, so its kind was never up for change
  intro past hpast
  rw [← Edit.applyAll_append]
  exact hstays past hpast

/-- The graph that an author begins with in `branches_orderly`. -/
def branching : Workflow := starter ⟨0⟩ ⟨1⟩ ⟨2⟩ ⟨3⟩ "Branches"

/-- A condition is put between the start and the end, its branches are joined to the end, and the
label of one is changed. The changes that would make the branches alike or turn the condition into
an end are refused. -/
def branchingEdits : List Edit :=
  [.addNode ⟨4⟩ .condition .origin, .addEdge ⟨5⟩ (Uuid.toString ⟨1⟩) (Uuid.toString ⟨4⟩) none,
    .addEdge ⟨6⟩ (Uuid.toString ⟨4⟩) (Uuid.toString ⟨2⟩) (some " True "),
    .addEdge ⟨7⟩ (Uuid.toString ⟨4⟩) (Uuid.toString ⟨2⟩) (some "no"),
    .relabelEdge (Uuid.toString ⟨7⟩) (some "True"), .relabelEdge (Uuid.toString ⟨7⟩) (some "False"),
    .updateNodeData (Uuid.toString ⟨4⟩) .finish]

theorem branches_orderly :
    (Edit.applyAll branching branchingEdits).edges.map (·.label) =
        [none, none, some "True", some "False"] ∧
      (Edit.applyAll branching branchingEdits).Orderly ∧
      (Edit.applyAll branching branchingEdits).kindOf? (Uuid.toString ⟨4⟩) = some .condition := by
  have hnew : branching.IsNew := .starter (by decide +kernel)
  have hlocal : ∀ e ∈ branchingEdits, e.IsLocal := by decide +kernel
  obtain ⟨horderly, _, hkinds⟩ := authored_orderly hnew hlocal (by decide +kernel)
  refine ⟨by decide +kernel, horderly, ?_⟩
  have hkind := hkinds (branchingEdits.take 1) (branchingEdits.drop 1) rfl (Uuid.toString ⟨4⟩) ?_
  · rw [hkind]
    decide +kernel
  · intro past hpast
    -- one check for every prefix of the later edits
    have hstays : ∀ past ∈ (branchingEdits.drop 1).inits,
        Uuid.toString ⟨4⟩ ∈
          (Edit.applyAll branching (branchingEdits.take 1 ++ past)).nodes.map (·.id) := by
      decide +kernel
    exact hstays past ((List.mem_inits _ _).mpr hpast)

end Workflow

end AgentGraph
