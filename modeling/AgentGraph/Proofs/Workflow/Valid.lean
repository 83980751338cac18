import AgentGraph.Workflow.Validation
import Mathlib.Data.List.Nodup

/-!
# What validity gives

A valid workflow has exactly one start node, its nodes and its edges are known by their identifiers,
and every edge joins two of its nodes. `Workflow.valid_iff` says that this is all there is to it;
the lemmas after it are the form in which proofs about runs use it.
-/

namespace AgentGraph

/-! ### The parts of a validation -/

theorem repeated_eq_nil_iff {seen ids : List String} :
    repeated seen ids = [] ↔ ids.Nodup ∧ ∀ id ∈ ids, id ∉ seen := by
  induction ids generalizing seen with
  | nil => simp [repeated]
  | cons id ids ih =>
      rw [repeated]
      split
      -- an id that was seen before is reported
      next hmem =>
        constructor
        · intro h
          cases h
        · rintro ⟨_, hfresh⟩
          exact absurd hmem (hfresh id List.mem_cons_self)
      next hmem =>
        rw [ih, List.nodup_cons]
        constructor
        · rintro ⟨hnodup, hfresh⟩
          refine ⟨⟨fun h => hfresh id h List.mem_cons_self, hnodup⟩, ?_⟩
          intro other hother
          rcases List.mem_cons.mp hother with rfl | hother
          · exact hmem
          · exact fun h => hfresh other hother (List.mem_cons_of_mem _ h)
        · rintro ⟨⟨hid, hnodup⟩, hfresh⟩
          refine ⟨hnodup, fun other hother h => ?_⟩
          rcases List.mem_cons.mp h with rfl | h
          · exact hid hother
          · exact hfresh other (List.mem_cons_of_mem _ hother) h

theorem danglingEnds_eq_nil_iff {nodeIds : List String} {e : Edge} :
    danglingEnds nodeIds e = [] ↔ e.source ∈ nodeIds ∧ e.target ∈ nodeIds := by
  simp [danglingEnds]

theorem startErrors_eq_nil_iff {nodes : List Node} :
    startErrors nodes = [] ↔ nodes.countP (·.kind = .start) = 1 := by
  simp [startErrors]

theorem validate_eq_ok_iff {nodes : List Node} {edges : List Edge} :
    validate nodes edges = .ok () ↔ validateAll nodes edges = [] := by
  rw [validate]
  split
  next e h =>
    constructor
    · intro hok
      cases hok
    · intro hnil
      rw [hnil] at h
      cases h
  next h => simpa using h

namespace Workflow

variable {w : Workflow}

/-- **Validity, spelled out**: one start node, identifiers that identify, and edges between
nodes. -/
theorem valid_iff :
    w.Valid ↔ w.nodes.countP (·.kind = .start) = 1 ∧ (w.nodes.map (·.id)).Nodup ∧
      (w.edges.map (·.id)).Nodup ∧
      ∀ e ∈ w.edges, e.source ∈ w.nodes.map (·.id) ∧ e.target ∈ w.nodes.map (·.id) := by
  simp only [Valid, problems, validateAll, List.append_eq_nil_iff, List.map_eq_nil_iff,
    List.flatMap_eq_nil_iff, startErrors_eq_nil_iff, repeated_eq_nil_iff, danglingEnds_eq_nil_iff]
  simp [and_assoc]

theorem valid_iff_validate : w.Valid ↔ validate w.nodes w.edges = .ok () :=
  validate_eq_ok_iff.symm

/-! ### Identifiers -/

theorem mem_of_findNode? {id : String} {n : Node} (h : w.findNode? id = some n) : n ∈ w.nodes :=
  List.mem_of_find?_eq_some h

theorem id_of_findNode? {id : String} {n : Node} (h : w.findNode? id = some n) : n.id = id := by
  simpa using List.find?_some h

/-- In a valid workflow a node is the only one with its identifier. -/
theorem Valid.node_ext (hv : w.Valid) {m n : Node} (hm : m ∈ w.nodes) (hn : n ∈ w.nodes)
    (h : m.id = n.id) : m = n :=
  List.inj_on_of_nodup_map (valid_iff.mp hv).2.1 hm hn h

theorem Valid.edge_ext (hv : w.Valid) {d e : Edge} (hd : d ∈ w.edges) (he : e ∈ w.edges)
    (h : d.id = e.id) : d = e :=
  List.inj_on_of_nodup_map (valid_iff.mp hv).2.2.1 hd he h

theorem exists_findNode? {id : String} (h : id ∈ w.nodes.map (·.id)) :
    ∃ n, w.findNode? id = some n := by
  obtain ⟨n, hn, rfl⟩ := List.mem_map.mp h
  rw [← Option.isSome_iff_exists, findNode?, List.find?_isSome]
  exact ⟨n, hn, by simp⟩

/-- In a valid workflow a node is found under its identifier. -/
theorem Valid.findNode?_of_mem (hv : w.Valid) {n : Node} (hn : n ∈ w.nodes) :
    w.findNode? n.id = some n := by
  obtain ⟨m, hm⟩ := exists_findNode? (List.mem_map_of_mem hn)
  rw [hm, hv.node_ext (mem_of_findNode? hm) hn (id_of_findNode? hm)]

/-- In a valid workflow every edge leads to a node. -/
theorem Valid.target_mem (hv : w.Valid) {e : Edge} (he : e ∈ w.edges) :
    e.target ∈ w.nodes.map (·.id) :=
  ((valid_iff.mp hv).2.2.2 e he).2

/-! ### The start node -/

theorem startNode?_eq_some_iff {n : Node} :
    w.startNode? = some n ↔ w.nodes.filter (·.kind = .start) = [n] := by
  rw [startNode?]
  split
  next m h => rw [h, Option.some.injEq, List.cons.injEq, and_iff_left rfl]
  next h =>
    constructor
    · intro hnone
      cases hnone
    · exact fun hn => absurd hn (h n)

theorem mem_of_startNode? {n : Node} (h : w.startNode? = some n) : n ∈ w.nodes := by
  have hmem : n ∈ w.nodes.filter (·.kind = .start) := by
    rw [startNode?_eq_some_iff.mp h]
    exact List.mem_singleton_self n
  exact (List.mem_filter.mp hmem).1

/-- There is a start node to begin with just when there is one node of that kind. -/
theorem exists_startNode?_iff :
    (∃ n, w.startNode? = some n) ↔ w.nodes.countP (·.kind = .start) = 1 := by
  rw [List.countP_eq_length_filter, List.length_eq_one_iff]
  exact exists_congr fun _ => startNode?_eq_some_iff

theorem startNode?_eq_none_iff : w.startNode? = none ↔ w.nodes.countP (·.kind = .start) ≠ 1 := by
  rw [Ne, ← exists_startNode?_iff, not_exists, Option.eq_none_iff_forall_ne_some]

/-- A valid workflow has a start node. -/
theorem Valid.exists_startNode? (hv : w.Valid) : ∃ n, w.startNode? = some n :=
  exists_startNode?_iff.mpr (valid_iff.mp hv).1

end Workflow

end AgentGraph
