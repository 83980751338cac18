import AgentGraph.Proofs.Synthesis.Draft
import AgentGraph.Proofs.Synthesis.Entry
import AgentGraph.Proofs.Workflow.Valid

/-!
# Graphs that need no repair

The reader of proposals gives identifiers to what has none, puts nodes in rows, trims labels and
drops edges. On a `Settled` graph it does none of this: **the text of a settled graph is read as
that graph, without a warning** (`readDraft_faithful`), whatever identifiers would be minted. What
was accepted once is settled when its numbers are finite (`Draft.settled_of_readDraft`), so it can
be written and proposed again any number of times.

The edges are judged one after another, and the induction is on those that are still to be judged:
what was kept so far are the edges before them (`readEdges_restored`).
-/

namespace AgentGraph

/-- All numbers of the node are finite. -/
def Node.IsFinite (n : Node) : Prop :=
  n.position.x.isFinite = true ∧ n.position.y.isFinite = true ∧
    ∀ x ∈ n.data.temperature?, x.isFinite = true

theorem Node.IsFinite.reread_eq {n : Node} (h : n.IsFinite) : n.reread = some n := by
  obtain ⟨hx, hy, htemperature⟩ := h
  rw [reread_eq_self_iff, Position.reread_eq_self_iff, NodeData.reread_eq_self_iff]
  simp only [Json.rereadSingle_eq_self_iff]
  exact ⟨⟨hx, hy⟩, htemperature⟩

namespace Synthesis

open Json

variable {mint : Nat → Uuid} {reply : String} {draft : Draft}

/-! ### Graphs -/

/-- Nodes and edges, as a model is asked for them. -/
structure Graph where
  nodes : List Node
  edges : List Edge

namespace Graph

def format : Format Graph :=
  .record "Graph"
    (.cons "nodes" (.list Node.format) .required <|
      .cons "edges" (.list Edge.format) .required .nil)
    (fun (nodes, edges, _) => ⟨nodes, edges⟩) (fun g => (g.nodes, g.edges, ()))

/-- The text of a graph in one of the two layouts. -/
def text (style : Style) (g : Graph) : String := (format.encode g).render style

/-- A valid graph in the form in which graphs are kept: everything has an identifier, no edge is
idle, labels are trimmed, the numbers are finite, and the nodes do not all lie in one corner. -/
structure Settled (g : Graph) : Prop where
  valid : validateAll g.nodes g.edges = []
  id_not_blank : ∀ n ∈ g.nodes, Text.isBlank n.id = false
  edges : CleanEdges g.edges
  finite : ∀ n ∈ g.nodes, n.IsFinite
  placed : ∃ n ∈ g.nodes, n.position.numEq .origin = false

end Graph

/-- The graph of a draft. -/
def Draft.graph (draft : Draft) : Graph := ⟨draft.nodes, draft.edges⟩

/-- The entries of a graph, as they are found in its text. -/
def Graph.entries (g : Graph) : Entries where
  nodes := g.nodes.map fun n => (Node.format.encode n).restored
  edges := g.edges.map fun e => (Edge.format.encode e).restored

/-- Entries are found where they were written. -/
theorem finds_render (style : Style) {e : Entries} (hnodes : ∀ v ∈ e.nodes, Readable 126 v)
    (hedges : ∀ v ∈ e.edges, Readable 126 v) :
    Finds ((Entries.format.encode e).render style)
      ⟨e.nodes.map restored, e.edges.map restored⟩ := by
  refine ⟨(Entries.format.encode e).render style, ?_, Entries.ofText?_render style hnodes hedges⟩
  rw [Entries.encode_format]
  exact outerObject?_render style _

/-- **In the text of a graph its entries are found.** -/
theorem Graph.finds_entries (style : Style) (g : Graph) : Finds (g.text style) g.entries := by
  set written : Entries :=
    ⟨g.nodes.map Node.format.encode, g.edges.map Edge.format.encode⟩ with hwritten
  have hnodes : ∀ v ∈ written.nodes, Readable 126 v := by
    refine List.forall_mem_map.mpr fun n _ => ?_
    exact Node.format.readable_encode rfl (by decide) n
  have hedges : ∀ v ∈ written.edges, Readable 126 v := by
    refine List.forall_mem_map.mpr fun e _ => ?_
    exact Edge.format.readable_encode rfl (by decide) e
  have htext : g.text style = (Entries.format.encode written).render style := by
    rw [Entries.encode_format]
    rfl
  have hfinds := finds_render style hnodes hedges
  rwa [← htext, hwritten, List.map_map, List.map_map] at hfinds

/-! ### Nodes -/

theorem identify_eq_self {n : Node} (h : Text.isBlank n.id = false) (place : Nat) :
    identify mint place n = n := by
  rw [identify, h]
  rfl

theorem layOut_eq_self {nodes : List Node} (h : ∃ n ∈ nodes, n.position.numEq .origin = false) :
    layOut nodes = nodes := by
  obtain ⟨n, hn, hposition⟩ := h
  rw [layOut, if_neg]
  intro hall
  exact absurd (List.all_eq_true.mp hall n hn) (by simp [hposition])

/-- Nodes that lie in different places, and have identifiers, are left as they are. -/
theorem settleNodes_eq_self {nodes : List Node} (hids : ∀ n ∈ nodes, Text.isBlank n.id = false)
    (hplaced : ∃ n ∈ nodes, n.position.numEq .origin = false) : settleNodes mint nodes = nodes := by
  have hidentify : (nodes.zipIdx.map fun m => identify mint m.2 m.1) =
      nodes.zipIdx.map Prod.fst := by
    refine List.map_congr_left fun m hm => ?_
    exact identify_eq_self (hids m.1 (List.fst_mem_of_mem_zipIdx hm)) m.2
  show layOut (nodes.zipIdx.map fun m => identify mint m.2 m.1) = nodes
  rw [hidentify, List.zipIdx_map_fst, layOut_eq_self hplaced]

/-- After laying out, the nodes do not all lie in the corner. -/
theorem exists_placed_layOut {nodes : List Node} (h : layOut nodes ≠ []) :
    ∃ n ∈ layOut nodes, n.position.numEq .origin = false := by
  rw [layOut] at h ⊢
  split at h
  next hall =>
    rw [if_pos hall]
    cases nodes with
    | nil => exact absurd rfl h
    | cons n nodes =>
        -- the grid begins away from the origin
        have hcorner : (gridPosition 0).numEq .origin = false := by decide
        exact ⟨{ n with position := gridPosition 0 }, List.mem_cons_self, hcorner⟩
  next hall =>
    rw [if_neg hall]
    simpa using hall

/-! ### Edges -/

theorem normalizeLabel_eq_self {label : Option String}
    (h : ∀ l, label = some l → l ≠ "" ∧ Text.trim l = l) : normalizeLabel label = label := by
  cases label with
  | none => rfl
  | some l =>
      obtain ⟨hne, htrim⟩ := h l rfl
      simp [normalizeLabel, htrim, hne]

/-- **An edge that is unlike those kept so far is kept as it is.** -/
theorem judgeEdge_restored {kept : List Edge} {e : Edge} (hblank : Text.isBlank e.id = false)
    (hloop : e.source ≠ e.target) (hlabel : ∀ l, e.label = some l → l ≠ "" ∧ Text.trim l = l)
    (hunlike : e.joint ∉ kept.map Edge.joint) (hid : e.id ∉ kept.map (·.id)) (fresh : Uuid)
    (index : Nat) :
    judgeEdge kept fresh index (Edge.format.encode e).restored = .keep e := by
  -- none of the three repairs applies to this edge
  have hconnects : ¬ kept.any (·.connects e.source e.target e.label) = true := by
    intro hany
    obtain ⟨d, hd, hjoins⟩ := List.any_eq_true.mp hany
    exact hunlike (List.mem_map.mpr ⟨d, hd, Edge.connects_iff_joint.mp hjoins⟩)
  have hfree : kept.all (·.id ≠ e.id) = true := by
    rw [List.all_eq_true]
    intro d hd
    exact decide_eq_true fun heq => hid (List.mem_map.mpr ⟨d, hd, heq⟩)
  have hkept : edgeId kept fresh (some e.id) = e.id := by
    rw [edgeId, Option.filter_some, hblank, hfree]
    rfl
  rw [judgeEdge, readEdge_restored]
  dsimp only
  rw [normalizeLabel_eq_self hlabel, if_neg hloop, if_neg hconnects, hkept]

/-- What was kept so far are the edges before those that are still to be judged. -/
theorem readEdges_restored {kept edges : List Edge} (hclean : CleanEdges (kept ++ edges))
    (hids : ((kept ++ edges).map (·.id)).Nodup) (fresh : Nat → Uuid) (index : Nat) :
    readEdges fresh index ⟨kept, [], []⟩ (edges.map fun e => (Edge.format.encode e).restored) =
      ⟨kept ++ edges, [], []⟩ := by
  induction edges generalizing kept index with
  | nil => rw [List.append_nil]; rfl
  | cons e edges ih =>
      have he : e ∈ kept ++ e :: edges := List.mem_append_right _ List.mem_cons_self
      -- an edge of a clean list differs from those before it
      have hnew {α : Type} {f : Edge → α} (h : ((kept ++ e :: edges).map f).Nodup) :
          f e ∉ kept.map f := by
        rw [List.map_append, List.map_cons, List.nodup_middle] at h
        exact fun hmem => (List.nodup_cons.mp h).1 (List.mem_append_left _ hmem)
      have hkeep := judgeEdge_restored (hclean.id_not_blank e he) (hclean.not_loop e he)
        (hclean.label_trimmed e he) (hnew hclean.unlike) (hnew hids) (fresh index) index
      have hsplit : kept ++ e :: edges = (kept ++ [e]) ++ edges := by
        rw [List.append_assoc, List.singleton_append]
      rw [hsplit] at hclean hids ⊢
      rw [List.map_cons, readEdges, hkeep]
      exact ih hclean hids (index + 1)

/-! ### Whole graphs -/

/-- Where every entry can be read there is nothing to warn of. -/
theorem unreadable_eq_nil {α : Type} {kind : EntryKind} {read : Json → Except Mismatch α}
    {index : Nat} {entries : List Json} (h : ∀ entry ∈ entries, ∃ a, read entry = .ok a) :
    unreadable kind read index entries = [] := by
  refine List.filterMap_eq_nil_iff.mpr fun m hm => ?_
  obtain ⟨a, ha⟩ := h m.1 (List.fst_mem_of_mem_zipIdx hm)
  dsimp only
  rw [ha]

namespace Graph.Settled

variable {g : Graph} (h : g.Settled)
include h

theorem readNode_entry {n : Node} (hn : n ∈ g.nodes) :
    readNode (Node.format.encode n).restored = .ok n :=
  toOption_eq_some_iff.mp ((toOption_readNode n).trans (h.finite n hn).reread_eq)

theorem cleanedNodes_entries : cleanedNodes mint g.entries = g.nodes := by
  have hread : g.entries.nodes.filterMap (fun entry => (readNode entry).toOption) = g.nodes := by
    rw [Graph.entries, List.filterMap_map]
    refine (List.filterMap_congr fun n hn => ?_).trans List.filterMap_some
    rw [Function.comp_apply, h.readNode_entry hn]
    rfl
  rw [cleanedNodes, hread, settleNodes_eq_self h.id_not_blank h.placed]

theorem harvest_entries : harvest mint g.entries = ⟨g.edges, [], []⟩ := by
  have hvalid : (Workflow.mk .nil "" g.nodes g.edges).Valid := h.valid
  have hids : (g.edges.map (·.id)).Nodup := (Workflow.valid_iff.mp hvalid).2.2.1
  exact @readEdges_restored [] g.edges h.edges hids _ 0

theorem unreadable_entries : g.entries.unreadable = [] := by
  have hnodes : ∀ entry ∈ g.entries.nodes, ∃ n, readNode entry = .ok n :=
    List.forall_mem_map.mpr fun n hn => ⟨n, h.readNode_entry hn⟩
  have hedges : ∀ entry ∈ g.entries.edges, ∃ e, readEdge entry = .ok e :=
    List.forall_mem_map.mpr fun e _ => ⟨_, readEdge_restored e⟩
  rw [Entries.unreadable, unreadable_eq_nil hnodes, unreadable_eq_nil hedges]
  rfl

/-- **Nothing of a settled graph is repaired.** -/
theorem readDraft_text (style : Style) :
    readDraft mint (g.text style) = .ok ⟨g.nodes, g.edges, []⟩ := by
  have hedges : cleanedEdges mint g.entries = g.edges :=
    congrArg EdgeHarvest.edges h.harvest_entries
  apply readDraft_eq_ok_iff.mpr
  refine ⟨g.entries, g.finds_entries style, ?_, ?_, ?_⟩
  · obtain ⟨n, hn, -⟩ := h.placed
    rw [h.cleanedNodes_entries]
    exact List.ne_nil_of_mem hn
  · rw [h.cleanedNodes_entries, hedges]
    exact h.valid
  · rw [h.cleanedNodes_entries, hedges, h.harvest_entries, h.unreadable_entries]
    rfl

end Graph.Settled

/-! ### Graphs that were accepted -/

/-- **What was accepted is settled when its numbers are finite.** -/
theorem Draft.settled_of_readDraft (h : readDraft mint reply = .ok draft)
    (hfinite : ∀ n ∈ draft.nodes, n.IsFinite) :
    draft.graph.Settled := by
  have hclean := Draft.clean_of_readDraft h
  have hplaced : ∃ n ∈ draft.nodes, n.position.numEq .origin = false := by
    obtain ⟨entries, -, hne, -, rfl⟩ := readDraft_eq_ok_iff.mp h
    exact exists_placed_layOut hne
  exact ⟨hclean.valid, hclean.id_not_blank, hclean.edges, hfinite, hplaced⟩

/-- **A settled graph is read as it was written, and so is whatever was accepted once.** Nothing is
dropped, changed or warned of, and no identifier is made, whatever the identifiers would be. -/
theorem readDraft_faithful (mint : Nat → Uuid) (style : Style) :
    (∀ g : Graph, g.Settled → readDraft mint (g.text style) = .ok ⟨g.nodes, g.edges, []⟩) ∧
    ∀ (mint' : Nat → Uuid) (reply : String) (draft : Draft), readDraft mint' reply = .ok draft →
      (∀ n ∈ draft.nodes, n.IsFinite) →
      readDraft mint (draft.graph.text style) = .ok ⟨draft.nodes, draft.edges, []⟩ := by
  refine ⟨fun g h => h.readDraft_text style, ?_⟩
  intro mint' reply draft h hfinite
  exact (Draft.settled_of_readDraft h hfinite).readDraft_text style

/-- A check of what comes in; one name is a brace, and one edge has a label. -/
def Graph.gate : Graph where
  nodes :=
    [⟨"in", "\x7d", .origin, .start⟩, ⟨"check", "", ⟨.ofNat 260, .ofNat 90⟩, .condition .default⟩,
      ⟨"ask", "Ask", ⟨.ofNat 520, .ofNat 0⟩, .llm .default⟩,
      ⟨"out", "", ⟨.ofNat 780, .ofNat 90⟩, .finish⟩]
  edges :=
    [⟨"first", "in", "check", none⟩, ⟨"yes", "check", "ask", some "True"⟩,
      ⟨"last", "ask", "out", none⟩]

theorem Graph.settled_gate : gate.Settled where
  valid := by decide
  id_not_blank := by decide
  edges := {
    id_not_blank := by decide
    not_loop := by decide
    unlike := by decide
    label_trimmed := by decide }
  finite := by unfold Node.IsFinite; decide
  placed := by decide

/-- The graph is accepted as it is, and when what was accepted is written on one line, once more. -/
theorem gate_accepted_again :
    readDraft (fun _ => .nil) (Graph.gate.text .pretty) =
        .ok ⟨Graph.gate.nodes, Graph.gate.edges, []⟩ ∧
      readDraft (fun _ => .nil) (Graph.gate.text .compact) =
        .ok ⟨Graph.gate.nodes, Graph.gate.edges, []⟩ := by
  have hpretty := (readDraft_faithful (fun _ => .nil) .pretty).1 Graph.gate Graph.settled_gate
  have hcompact :=
    (readDraft_faithful (fun _ => .nil) .compact).2 _ _ _ hpretty Graph.settled_gate.finite
  have hgraph : (Draft.mk Graph.gate.nodes Graph.gate.edges []).graph = Graph.gate := rfl
  rw [hgraph] at hcompact
  exact ⟨hpretty, hcompact⟩

end Synthesis

end AgentGraph
