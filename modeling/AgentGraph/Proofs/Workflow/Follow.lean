import AgentGraph.Proofs.Text.Trim
import AgentGraph.Workflow.Basic

/-!
# Which edge is followed

`Workflow.follow?` picks the edge by which a run leaves a node. Here it is described without a
search: the edge is the first in the list of edges that leaves the node and, when a branch was
chosen, carries the branch as its label. Blanks around labels never count.
-/

namespace AgentGraph

/-- The edge carries the label, blanks around either aside. -/
def Edge.Carries (e : Edge) (label : String) : Prop :=
  e.label.map Text.trim = some (Text.trim label)

instance (e : Edge) (label : String) : Decidable (e.Carries label) :=
  inferInstanceAs (Decidable (_ = _))

theorem Edge.carries_of_label_eq {e : Edge} {label : String} (h : e.label = some label) :
    e.Carries label := by
  rw [Carries, h, Option.map_some]

namespace Workflow

variable {w : Workflow} {id : String}

/-- `e` is the first edge that leaves the node and has the property. -/
def FirstOut (w : Workflow) (id : String) (p : Edge → Prop) (e : Edge) : Prop :=
  ∃ before after, w.edges = before ++ e :: after ∧ e.source = id ∧ p e ∧
    ∀ d ∈ before, d.source = id → ¬ p d

theorem mem_outgoing {e : Edge} : e ∈ w.outgoing id ↔ e ∈ w.edges ∧ e.source = id := by
  simp [outgoing]

/-- Without a branch it is the first edge out of the node. -/
theorem follow?_none_eq_some_iff {e : Edge} :
    w.follow? id none = some e ↔ w.FirstOut id (fun _ => True) e := by
  rw [follow?, outgoing, List.head?_filter, List.find?_eq_some_iff_append]
  constructor
  · rintro ⟨hsource, before, after, hedges, hbefore⟩
    refine ⟨before, after, hedges, by simpa using hsource, trivial, ?_⟩
    intro d hd hsource
    exact absurd hsource (by simpa using hbefore d hd)
  · rintro ⟨before, after, hedges, hsource, _, hbefore⟩
    refine ⟨by simpa using hsource, before, after, hedges, fun d hd => ?_⟩
    simpa using fun h => hbefore d hd h trivial

/-- With a branch it is the first edge out of the node that carries the branch. -/
theorem follow?_some_eq_some_iff {branch : String} {e : Edge} :
    w.follow? id (some branch) = some e ↔ w.FirstOut id (·.Carries branch) e := by
  rw [follow?, outgoing, List.find?_filter, List.find?_eq_some_iff_append]
  constructor
  · rintro ⟨hmatch, before, after, hedges, hbefore⟩
    obtain ⟨hsource, hcarries⟩ : e.source = id ∧ e.Carries branch := by
      simpa [Edge.Carries] using hmatch
    refine ⟨before, after, hedges, hsource, hcarries, ?_⟩
    intro d hd
    simpa [Edge.Carries, imp_iff_not_or] using hbefore d hd
  · rintro ⟨before, after, hedges, hsource, hcarries, hbefore⟩
    refine ⟨?_, before, after, hedges, fun d hd => ?_⟩
    · simpa [Edge.Carries] using And.intro hsource hcarries
    · simpa [Edge.Carries, imp_iff_not_or] using hbefore d hd

theorem mem_outgoing_of_follow? {branch : Option String} {e : Edge}
    (h : w.follow? id branch = some e) : e ∈ w.outgoing id := by
  cases branch with
  | none => exact List.mem_of_head? h
  | some label => exact List.mem_of_find?_eq_some h

/-- The blanks around the branch do not matter. -/
theorem follow?_trim {branch : String} :
    w.follow? id (some (Text.trim branch)) = w.follow? id (some branch) := by
  rw [follow?, follow?, Text.trim_trim]

/-- Without a branch the way ends only where no edge leaves the node. -/
theorem follow?_none_eq_none_iff : w.follow? id none = none ↔ w.outgoing id = [] := by
  rw [follow?, List.head?_eq_none_iff]

/-- With a branch the way ends where no edge out of the node carries it. -/
theorem follow?_some_eq_none_iff {branch : String} :
    w.follow? id (some branch) = none ↔ ∀ e ∈ w.outgoing id, ¬ e.Carries branch := by
  simp [follow?, Edge.Carries]

end Workflow

end AgentGraph
