import AgentGraph.Proofs.Workflow.Valid
import Mathlib.Data.List.Count

/-!
# Everything that is wrong with a graph

`validateAll` passes over the nodes and over the edges with the identifiers seen so far in hand.
Here its errors are described by places in the lists that were given, without anything that is
carried along: an identifier is a duplicate where it stands at an earlier place too (`recurring`),
and an end of an edge is missing when no node has it as its identifier (`missingEnds`).
`validateAll_exact` says that these are the errors, in this order and no others.
-/

namespace AgentGraph

/-! ### Duplicates -/

/-- The members of a list that stand at an earlier place too, in order. -/
def recurring (ids : List String) : List String :=
  (ids.zipIdx.filter fun m => m.1 ∈ ids.take m.2).map (·.1)

/-- With the members before a place in hand, what is repeated from there on stands at an earlier
place. -/
theorem repeated_eq {before seen : List String} (hseen : ∀ id, id ∈ seen ↔ id ∈ before)
    (ids : List String) :
    repeated seen ids =
      ((ids.zipIdx before.length).filter fun m => m.1 ∈ (before ++ ids).take m.2).map (·.1) := by
  induction ids generalizing before seen with
  | nil => rfl
  | cons id ids ih =>
      have hplace : (before ++ id :: ids).take before.length = before := List.take_left
      have hsplit : before ++ id :: ids = (before ++ [id]) ++ ids := by
        rw [List.append_assoc, List.singleton_append]
      have hlength : before.length + 1 = (before ++ [id]).length := by
        rw [List.length_append, List.length_singleton]
      rw [repeated, List.zipIdx_cons, List.filter_cons, hplace]
      -- what has been seen is what stands before this place
      by_cases hmem : id ∈ seen
      · have hseen' : ∀ other, other ∈ seen ↔ other ∈ before ++ [id] := by
          intro other
          rw [List.mem_append, List.mem_singleton, ← hseen]
          exact ⟨.inl, fun h => h.elim (fun h => h) fun h => h ▸ hmem⟩
        rw [if_pos hmem, if_pos (decide_eq_true ((hseen id).mp hmem)), List.map_cons, ih hseen',
          hsplit, hlength]
      · have hseen' : ∀ other, other ∈ id :: seen ↔ other ∈ before ++ [id] := by
          intro other
          rw [List.mem_append, List.mem_singleton, List.mem_cons, hseen, or_comm]
        have hnew : ¬ decide (id ∈ before) = true := by
          rw [decide_eq_true_iff, ← hseen]
          exact hmem
        rw [if_neg hmem, if_neg hnew, ih hseen', hsplit, hlength]

theorem repeated_nil_eq (ids : List String) : repeated [] ids = recurring ids :=
  @repeated_eq [] [] (fun _ => Iff.rfl) ids

/-- A member that was not seen before is repeated once less often than it stands in the list. -/
theorem count_repeated (id : String) (seen ids : List String) :
    (repeated seen ids).count id = ids.count id - if id ∈ seen then 0 else 1 := by
  induction ids generalizing seen with
  | nil => simp [repeated]
  | cons other ids ih =>
      rw [repeated]
      -- the first occurrence is not counted, every later one is
      by_cases hother : other ∈ seen
      · rw [if_pos hother, List.count_cons, List.count_cons, ih]
        by_cases hid : other = id
        · subst hid
          simp [hother]
        · simp [hid]
      · rw [if_neg hother, List.count_cons, ih]
        by_cases hid : other = id
        · subst hid
          simp [hother]
        · simp [hid, Ne.symm hid]

/-! ### Ends that are no nodes -/

/-- The ends of all edges, each with the identifier of its edge, the source before the target. -/
def edgeEnds (edges : List Edge) : List (String × String) :=
  edges.flatMap fun e => [(e.id, e.source), (e.id, e.target)]

/-- The ends that no node has as its identifier. -/
def missingEnds (nodes : List Node) (edges : List Edge) : List (String × String) :=
  (edgeEnds edges).filter fun m => ∀ n ∈ nodes, n.id ≠ m.2

theorem danglingEnds_eq (nodes : List Node) (edges : List Edge) :
    edges.flatMap (danglingEnds (nodes.map (·.id))) =
      (missingEnds nodes edges).map fun m => .danglingEdge m.1 m.2 := by
  induction edges with
  | nil => rfl
  | cons e edges ih =>
      have hmissing (id : String) : id ∉ nodes.map (·.id) ↔ ∀ n ∈ nodes, n.id ≠ id := by simp
      have hends : missingEnds nodes (e :: edges) =
          [(e.id, e.source), (e.id, e.target)].filter (fun m => ∀ n ∈ nodes, n.id ≠ m.2) ++
            missingEnds nodes edges := by
        rw [missingEnds, edgeEnds, List.flatMap_cons, List.filter_append]
        rfl
      rw [List.flatMap_cons, ih, hends, List.map_append]
      congr 1
      simp only [danglingEnds, hmissing, List.filter_cons, List.filter_nil]
      split <;> split <;> rfl

/-! ### All errors -/

theorem validate_eq_error_iff {nodes : List Node} {edges : List Edge} {e : ValidationError} :
    validate nodes edges = .error e ↔ ∃ more, validateAll nodes edges = e :: more := by
  rw [validate]
  cases validateAll nodes edges <;> simp

theorem count_map_eq_zero {α : Type} {f : α → ValidationError} {e : ValidationError}
    (h : ∀ a, f a ≠ e) (l : List α) : (l.map f).count e = 0 := by
  rw [List.count_eq_zero, List.mem_map]
  rintro ⟨a, -, ha⟩
  exact h a ha

/-- An error about an identifier is found among the duplicates only. -/
theorem count_validateAll {e : ValidationError} (hstart : ∀ count, .startCount count ≠ e)
    (hends : ∀ edgeId nodeId, .danglingEdge edgeId nodeId ≠ e) (nodes : List Node)
    (edges : List Edge) :
    (validateAll nodes edges).count e =
      ((repeated [] (nodes.map (·.id))).map .duplicateNode).count e +
      ((repeated [] (edges.map (·.id))).map .duplicateEdge).count e := by
  have hcount : (startErrors nodes).count e = 0 := by
    rw [startErrors, List.count_eq_zero]
    split <;> simp [Ne.symm (hstart _)]
  have hmissing := count_map_eq_zero (fun m => hends m.1 m.2) (missingEnds nodes edges)
  rw [validateAll, danglingEnds_eq, List.count_append, List.count_append, List.count_append,
    hcount, hmissing, Nat.zero_add, Nat.add_zero]

/-- An identifier of a node is reported once less often than nodes have it. -/
theorem count_duplicateNode (nodes : List Node) (edges : List Edge) (id : String) :
    (validateAll nodes edges).count (.duplicateNode id) = (nodes.map (·.id)).count id - 1 := by
  have hinj : Function.Injective ValidationError.duplicateNode :=
    fun _ _ => ValidationError.duplicateNode.inj
  have hother : ∀ other, .duplicateEdge other ≠ ValidationError.duplicateNode id := by simp
  rw [count_validateAll (by simp) (by simp), List.count_map_of_injective _ _ hinj,
    count_map_eq_zero hother, count_repeated, if_neg List.not_mem_nil, Nat.add_zero]

theorem count_duplicateEdge (nodes : List Node) (edges : List Edge) (id : String) :
    (validateAll nodes edges).count (.duplicateEdge id) = (edges.map (·.id)).count id - 1 := by
  have hinj : Function.Injective ValidationError.duplicateEdge :=
    fun _ _ => ValidationError.duplicateEdge.inj
  have hother : ∀ other, .duplicateNode other ≠ ValidationError.duplicateEdge id := by simp
  rw [count_validateAll (by simp) (by simp), List.count_map_of_injective _ _ hinj,
    count_map_eq_zero hother, count_repeated, if_neg List.not_mem_nil, Nat.zero_add]

/-- **The errors of a graph are exactly these, in this order.** First the number of start nodes
unless it is one; then each node whose identifier an earlier node has; then each edge likewise; and
then each end of an edge that is no node. So there is none just when there is one start node,
identifiers identify and every edge joins two nodes, an identifier that stands `k` times is reported
`k - 1` times, and the first error is the one a graph is refused for. -/
theorem validateAll_exact (nodes : List Node) (edges : List Edge) :
    validateAll nodes edges =
        (if nodes.countP (·.kind = .start) = 1 then []
          else [.startCount (nodes.countP (·.kind = .start))]) ++
        (recurring (nodes.map (·.id))).map .duplicateNode ++
        (recurring (edges.map (·.id))).map .duplicateEdge ++
        (missingEnds nodes edges).map (fun m => .danglingEdge m.1 m.2) ∧
      (validateAll nodes edges = [] ↔ nodes.countP (·.kind = .start) = 1 ∧
        (nodes.map (·.id)).Nodup ∧ (edges.map (·.id)).Nodup ∧
        ∀ e ∈ edges, (∃ n ∈ nodes, n.id = e.source) ∧ ∃ n ∈ nodes, n.id = e.target) ∧
      (∀ id, (validateAll nodes edges).count (.duplicateNode id) =
        (nodes.map (·.id)).count id - 1) ∧
      (∀ id, (validateAll nodes edges).count (.duplicateEdge id) =
        (edges.map (·.id)).count id - 1) ∧
      (validate nodes edges = .ok () ↔ validateAll nodes edges = []) ∧
      ∀ e, validate nodes edges = .error e ↔ ∃ more, validateAll nodes edges = e :: more := by
  have hvalid := Workflow.valid_iff (w := ⟨.nil, "", nodes, edges⟩)
  simp only [List.mem_map] at hvalid
  refine ⟨?_, hvalid, count_duplicateNode nodes edges, count_duplicateEdge nodes edges,
    validate_eq_ok_iff, fun e => validate_eq_error_iff⟩
  rw [validateAll, repeated_nil_eq, repeated_nil_eq, danglingEnds_eq, startErrors]

/-- Two start nodes under one identifier, three edges under another, and a loop at a node that does
not exist. -/
example : validateAll [⟨"a", "", .origin, .start⟩, ⟨"a", "", .origin, .start⟩]
    [⟨"0", "a", "b", none⟩, ⟨"0", "c", "c", none⟩, ⟨"0", "a", "a", none⟩] =
      [.startCount 2, .duplicateNode "a", .duplicateEdge "0", .duplicateEdge "0",
        .danglingEdge "0" "b", .danglingEdge "0" "c", .danglingEdge "0" "c"] := by decide

end AgentGraph
