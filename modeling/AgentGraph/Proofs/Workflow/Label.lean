import AgentGraph.Proofs.Workflow.Effect
import AgentGraph.Proofs.Workflow.Follow

/-!
# Labels that an author gives

An author gives an edge its label when the edge is added, or later. `Workflow.Labels` is either of
these. The label is stored without the blanks around it (`Labels.exists_edge`), and the edges out of
a node are searched without regard to blanks. So whoever asks for the label, however it is spelled,
is led along the edge, unless another edge out of the node has the same label: `Labels.follow?`.
-/

namespace AgentGraph

theorem normalizeLabel_of_not_blank {label : String} (h : Text.isBlank label = false) :
    normalizeLabel (some label) = some (Text.trim label) := by
  simp [normalizeLabel, Text.trim_ne_empty h]

namespace Workflow

/-- The author gives an edge out of the node the label, and then the workflow is `w'`: the edge has
been added under the label, or it was there and has been relabelled. -/
inductive Labels (w : Workflow) (source label : String) (w' : Workflow) :
    (edgeId : String) → Prop where
  | added {id : Uuid} {target : String} : w.addEdge id source target (some label) = some w' →
      Labels w source label w' id.toString
  | relabelled {id : String} {e : Edge} : w.findEdge? id = some e → e.source = source →
      w.relabelEdge id (some label) = some w' → Labels w source label w' id

namespace Labels

variable {w w' : Workflow} {source label edgeId : String}

theorem nodes_eq (h : w.Labels source label w' edgeId) : w'.nodes = w.nodes := by
  cases h with
  | added hadd =>
      obtain ⟨_, rfl⟩ := addEdge_eq_some_iff.mp hadd
      rfl
  | relabelled _ _ hrelabel =>
      obtain ⟨_, _, _, _, _, _, _, rfl⟩ := relabelEdge_eq_some_iff.mp hrelabel
      rfl

/-- The edge has the label, without the blanks around it. -/
theorem exists_edge (h : w.Labels source label w' edgeId) (hblank : Text.isBlank label = false) :
    ∃ e ∈ w'.edges, e.id = edgeId ∧ e.source = source ∧ e.label = some (Text.trim label) := by
  have hstored := normalizeLabel_of_not_blank hblank
  cases h with
  | added hadd =>
      obtain ⟨_, rfl⟩ := addEdge_eq_some_iff.mp hadd
      rw [hstored]
      exact ⟨_, List.mem_append_right _ (List.mem_singleton_self _), rfl, rfl, rfl⟩
  | relabelled hfind hsource hrelabel =>
      obtain ⟨before, e, after, hsplit, hid, hbefore, _, rfl⟩ := relabelEdge_eq_some_iff.mp hrelabel
      -- the edge that is relabelled is the one that is found
      rw [findEdge?_eq_some_iff.mpr ⟨before, after, hsplit, hid, hbefore⟩] at hfind
      obtain rfl := Option.some.inj hfind
      rw [hstored]
      exact ⟨_, List.mem_append_right _ List.mem_cons_self, hid, hsource, rfl⟩

/-- **The label leads along the edge**, if no other edge out of the node has it. -/
theorem follow? (h : w.Labels source label w' edgeId) (hblank : Text.isBlank label = false)
    (hother : ∀ d ∈ w'.edges, d.source = source → d.id ≠ edgeId → ¬ d.Carries label) :
    ∃ e, w'.follow? source (some (Text.trim label)) = some e ∧ e.id = edgeId := by
  obtain ⟨e, he, hid, hsource, hlabel⟩ := h.exists_edge hblank
  have hcarries : e.Carries label := by
    rw [Edge.Carries, hlabel, Option.map_some, Text.trim_trim]
  rw [follow?_trim]
  cases hfollow : w'.follow? source (some label) with
  | none =>
      exact absurd hcarries (follow?_some_eq_none_iff.mp hfollow e (mem_outgoing.mpr ⟨he, hsource⟩))
  -- some edge carries the label, and every other one is ruled out
  | some d =>
      obtain ⟨hd, hd'⟩ := mem_outgoing.mp (mem_outgoing_of_follow? hfollow)
      obtain ⟨_, _, _, _, hdcarries, _⟩ := follow?_some_eq_some_iff.mp hfollow
      refine ⟨d, rfl, ?_⟩
      by_contra hne
      exact hother d hd hd' hne hdcarries

end Labels

end Workflow

end AgentGraph
