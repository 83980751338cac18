import AgentGraph.Proofs.Workflow.Lint
import AgentGraph.Proofs.Workflow.Valid
import AgentGraph.Run.Action
import Mathlib.Data.List.Perm.Subperm
import Mathlib.Logic.Relation

/-!
# Paths through a workflow

A `Passage` is one step from node to node: the node that is left, the outcome of the step there, and
the edge that is taken. A path is a list of passages each of which begins where the one before it
leads. Paths do not say how an outcome comes about; the course of a run is shown to be a path in
`Proofs.Run.Course`.

A path without cycles never comes to a node twice (`Path.nodup`), so it has fewer passages than the
workflow has nodes (`Path.length_lt`).
-/

namespace AgentGraph

/-- A node that is left, the outcome of the step there, and the edge that is taken. -/
structure Passage where
  node : Node
  outcome : Outcome
  edge : Edge

/-- The branch chosen at the node. -/
def Passage.branch (p : Passage) : Option String := p.outcome.branch

/-- A passage that a run of the workflow can make. -/
structure Passage.Allowed (p : Passage) (w : Workflow) : Prop where
  node_mem : p.node ∈ w.nodes
  not_finish : p.node.kind ≠ .finish
  chosen : p.node.MayChoose p.branch
  followed : w.follow? p.node.id p.branch = some p.edge

namespace Passage.Allowed

variable {p : Passage} {w : Workflow}

theorem edge_mem (h : p.Allowed w) : p.edge ∈ w.edges :=
  (Workflow.mem_outgoing.mp (Workflow.mem_outgoing_of_follow? h.followed)).1

theorem edge_source (h : p.Allowed w) : p.edge.source = p.node.id :=
  (Workflow.mem_outgoing.mp (Workflow.mem_outgoing_of_follow? h.followed)).2

/-- A node that does not branch is left by its first edge. -/
theorem firstOut_of_not_branching (h : p.Allowed w)
    (hk : p.node.kind ≠ .condition ∧ p.node.kind ≠ .classifier) :
    p.branch = none ∧ w.FirstOut p.node.id (fun _ => True) p.edge := by
  have hnone : p.branch = none := by
    rw [← Option.not_isSome_iff_eq_none, h.chosen.isSome_iff]
    rintro (hc | hc)
    · exact hk.1 hc
    · exact hk.2 hc
  refine ⟨hnone, ?_⟩
  rw [← Workflow.follow?_none_eq_some_iff, ← hnone]
  exact h.followed

/-- A branching node is left by the first edge that carries the branch it chose. -/
theorem firstOut_of_branching (h : p.Allowed w)
    (hk : p.node.kind = .condition ∨ p.node.kind = .classifier) :
    ∃ branch, p.branch = some branch ∧ w.FirstOut p.node.id (·.Carries branch) p.edge := by
  obtain ⟨branch, hbranch⟩ := Option.isSome_iff_exists.mp (h.chosen.isSome_iff.mpr hk)
  refine ⟨branch, hbranch, ?_⟩
  rw [← Workflow.follow?_some_eq_some_iff, ← hbranch]
  exact h.followed

end Passage.Allowed

namespace Workflow

variable {w : Workflow} {a b : String} {ps : List Passage}

/-- The passages lead from the first node to the last. -/
inductive Path (w : Workflow) : String → List Passage → String → Prop where
  | nil (id : String) : Path w id [] id
  | cons {p : Passage} {ps : List Passage} {id : String} :
      p.Allowed w → Path w p.edge.target ps id → Path w p.node.id (p :: ps) id

/-- The nodes on the way, the last one included. -/
def stations (ps : List Passage) (last : String) : List String := ps.map (·.node.id) ++ [last]

namespace Path

theorem allowed (h : w.Path a ps b) {p : Passage} (hp : p ∈ ps) : p.Allowed w := by
  induction h with
  | nil => cases hp
  | cons hallowed _ ih =>
      rcases List.mem_cons.mp hp with rfl | hp
      · exact hallowed
      · exact ih hp

/-- A path ends where its last passage leads. -/
theorem eq_nil_or_concat (h : w.Path a ps b) :
    ps = [] ∧ a = b ∨ ∃ before p, ps = before ++ [p] ∧ p.Allowed w ∧ p.edge.target = b := by
  induction h with
  | nil id => exact .inl ⟨rfl, rfl⟩
  | @cons p ps b hallowed _ ih =>
      rcases ih with ⟨rfl, htarget⟩ | ⟨before, last, rfl, hlast, htarget⟩
      · exact .inr ⟨[], p, rfl, hallowed, htarget⟩
      · exact .inr ⟨p :: before, last, rfl, hlast, htarget⟩

theorem head?_stations (h : w.Path a ps b) : (stations ps b).head? = some a := by
  cases h with
  | nil | cons => rfl

/-- Every passage leads to the station after it. -/
theorem getElem?_stations (h : w.Path a ps b) {i : Nat} {p : Passage} (hp : ps[i]? = some p) :
    (stations ps b)[i + 1]? = some p.edge.target := by
  induction h generalizing i with
  | nil => cases hp
  | @cons q qs c hallowed hpath ih =>
      cases i with
      | zero =>
          rw [List.getElem?_cons_zero, Option.some.injEq] at hp
          rw [← hp, ← hpath.head?_stations, List.head?_eq_getElem?]
          rfl
      | succ i => exact ih hp

/-- A path that begins at a node stays among the nodes. -/
theorem stations_subset (hv : w.Valid) (ha : a ∈ w.nodes.map (·.id)) (h : w.Path a ps b) :
    stations ps b ⊆ w.nodes.map (·.id) := by
  induction h with
  | nil =>
      intro id hid
      rw [List.mem_singleton.mp hid]
      exact ha
  | cons hallowed _ ih =>
      intro id hid
      rcases List.mem_cons.mp hid with rfl | hid
      · exact ha
      · exact ih (hv.target_mem hallowed.edge_mem) hid

theorem last_mem (hv : w.Valid) (ha : a ∈ w.nodes.map (·.id)) (h : w.Path a ps b) :
    b ∈ w.nodes.map (·.id) :=
  h.stations_subset hv ha (List.mem_append_right _ (List.mem_singleton_self b))

end Path

/-! ### Cycles -/

/-- An edge leads from the first node to the second. -/
def Linked (w : Workflow) (a b : String) : Prop := ∃ e ∈ w.edges, e.source = a ∧ e.target = b

/-- No node that can be reached from here lies on a cycle. -/
def AcyclicFrom (w : Workflow) (a : String) : Prop :=
  ∀ id, Relation.ReflTransGen w.Linked a id → ¬ Relation.TransGen w.Linked id id

theorem AcyclicFrom.of_linked (hacyclic : w.AcyclicFrom a) (h : w.Linked a b) : w.AcyclicFrom b :=
  fun id hid => hacyclic id (.head h hid)

/-- A rank that grows along every edge leaves no room for a cycle. -/
theorem acyclicFrom_of_rank (rank : String → Nat)
    (hrank : ∀ e ∈ w.edges, rank e.source < rank e.target) : w.AcyclicFrom a := by
  intro id _ hcycle
  have hgrows : ∀ {b c}, Relation.TransGen w.Linked b c → rank b < rank c := by
    intro b c h
    induction h with
    | single hlink =>
        obtain ⟨e, he, rfl, rfl⟩ := hlink
        exact hrank e he
    | tail _ hlink ih =>
        obtain ⟨e, he, rfl, rfl⟩ := hlink
        exact ih.trans (hrank e he)
  exact Nat.lt_irrefl _ (hgrows hcycle)

namespace Path

theorem linked {p : Passage} (h : p.Allowed w) : w.Linked p.node.id p.edge.target :=
  ⟨p.edge, h.edge_mem, h.edge_source, rfl⟩

/-- Every station can be reached from the first. -/
theorem reaches (h : w.Path a ps b) {id : String} (hid : id ∈ stations ps b) :
    Relation.ReflTransGen w.Linked a id := by
  induction h with
  | nil =>
      rw [List.mem_singleton.mp hid]
  | cons hallowed _ ih =>
      rcases List.mem_cons.mp hid with rfl | hid
      · exact .refl
      · exact .head (linked hallowed) (ih hid)

/-- Without cycles no station comes twice. -/
theorem nodup (hacyclic : w.AcyclicFrom a) (h : w.Path a ps b) : (stations ps b).Nodup := by
  induction h with
  | nil => exact List.nodup_singleton _
  | @cons p ps b hallowed hpath ih =>
      have hlink := linked hallowed
      refine List.nodup_cons.mpr ⟨fun hagain => ?_, ih (hacyclic.of_linked hlink)⟩
      -- the way back from the next station closes a cycle
      exact hacyclic p.node.id .refl (.head' hlink (hpath.reaches hagain))

/-- **Pigeonhole**: without cycles there are fewer passages than nodes. -/
theorem length_lt (hv : w.Valid) (ha : a ∈ w.nodes.map (·.id)) (hacyclic : w.AcyclicFrom a)
    (h : w.Path a ps b) : ps.length < w.nodes.length := by
  have hlen := ((h.nodup hacyclic).subperm (h.stations_subset hv ha)).length_le
  rw [stations, List.length_append, List.length_map, List.length_map, List.length_singleton] at hlen
  exact hlen

end Path

end Workflow

end AgentGraph
